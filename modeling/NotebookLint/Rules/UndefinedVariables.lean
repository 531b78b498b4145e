import NotebookLint.Diagnostic
import NotebookLint.Names.Binding
import NotebookLint.Names.Usage

/-!
# Undefined variables

A name that is read has to be bound: by the cell itself, anywhere in it, by an earlier cell, by
the language, or by the habit of notebooks to rely on certain module aliases. Each undefined name
is reported once per line.
-/

set_option autoImplicit false

namespace NotebookLint.UndefinedVariables

def known (allowCommonAliases : Bool) (source : Text) (context : List Text) : List Text :=
  Names.builtinNames ++ Names.notebookNames ++ Names.implicitNames ++ Names.definedNames source ++
    context ++ (if allowCommonAliases then Names.commonAliases else [])

/-- Keeps the first usage of each name on each line; `reported` holds those already kept. -/
def firstPerLine (reported : List (Text × Nat)) : List Names.Usage → List Names.Usage
  | [] => []
  | usage :: rest =>
      if reported.contains (usage.name, usage.line) then firstPerLine reported rest
      else usage :: firstPerLine ((usage.name, usage.line) :: reported) rest

/-- The findings of the rule. A cell that belongs to a magic command is not checked. -/
def findings (allowCommonAliases : Bool) (source : Text) (context : List Text) : List Finding :=
  if Text.isCellMagic source then []
  else
    let bound := known allowCommonAliases source context
    (firstPerLine [] ((Names.usedNames source).filter fun usage => !bound.contains usage.name)).map
      fun usage => ⟨.undefinedName usage.name, usage.line, some usage.column⟩

end NotebookLint.UndefinedVariables
