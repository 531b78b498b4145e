import NotebookLint.Diagnostic
import NotebookLint.Imports.Binding

/-!
# Import issues

Within a cell, imports belong before all other code, no import should be a wildcard, no name should
be imported twice, and every imported name should be used.
-/

set_option autoImplicit false

namespace NotebookLint.ImportIssues

structure TopLevelStatement where
  line : Nat
  text : Text
  deriving DecidableEq, Repr

/-- Whether a line holds nothing but literals, as a documentation string does. -/
def isBareLiteral (text : Text) : Bool :=
  text.all fun char => char == '"' || char == '\x27' || char == ' '

/-- The unindented statements of code lines; `continued` says that the line before ended in a
backslash. -/
def topLevelFrom (continued : Bool) : List CodeLine → List TopLevelStatement
  | [] => []
  | line :: rest =>
      let text := Text.trim line.clean
      let skipped :=
        line.insideBrackets || continued || line.interior || isBareLiteral text ||
          Text.indentWidth standardTabWidth line.clean > 0
      (if skipped then [] else [⟨line.number, text⟩]) ++
        topLevelFrom (Text.endsWithBackslash line.clean) rest

def topLevelStatements (source : Text) : List TopLevelStatement :=
  topLevelFrom false (Text.codeLines source)

def isImport (statement : Text) : Bool :=
  let plain := (Text.after? "import".toList statement).bind Text.gap?
  let named := do
    let rest ← (Text.after? "from".toList statement).bind Text.gap?
    if rest.isEmpty then none
    let rest ← Text.gap? (rest.dropWhile fun char => !isBlank char)
    Text.word? "import" rest
  plain.isSome || named.isSome

def misplaced (source : Text) : List Finding :=
  let late := (topLevelStatements source).dropWhile fun statement => isImport statement.text
  (late.filter fun statement => isImport statement.text).map
    fun statement => ⟨.misplacedImport, statement.line, none⟩

/-- The first binding of each name, wildcards apart; `seen` holds the first bindings so far, the
latest first. -/
def firstBindings (seen : List ImportBinding) : List ImportBinding → List ImportBinding
  | [] => seen.reverse
  | binding :: rest =>
      if binding.isWildcard || seen.any fun other => other.name == binding.name then
        firstBindings seen rest
      else firstBindings (binding :: seen) rest

def questionable (seen : List ImportBinding) : List ImportBinding → List Finding
  | [] => []
  | binding :: rest =>
      if binding.isWildcard then ⟨.wildcardImport, binding.line, none⟩ :: questionable seen rest
      else
        match seen.find? fun other => other.name == binding.name with
        | some first =>
            ⟨.repeatedImport binding.name first.line, binding.line, none⟩ :: questionable seen rest
        | none => questionable (binding :: seen) rest

/-- The names that occur outside import statements; `importLines` are the lines on which imports
begin, and `inList` says that a member list in parentheses goes on. -/
def usedFrom (importLines : List Nat) (inList : Bool) : List CodeLine → List Text
  | [] => []
  | line :: rest =>
      if importLines.contains line.number then
        usedFrom importLines (line.clean.contains '(' && !line.clean.contains ')') rest
      else if inList then usedFrom importLines (!line.clean.contains ')') rest
      else (Text.names line.clean).map Word.text ++ usedFrom importLines false rest

def usedNames (source : Text) : List Text :=
  usedFrom ((Text.importBindings source).map ImportBinding.line) false (Text.codeLines source)

/-- Imports of this module change the language and need no use. -/
def exemptModule : Text := "__future__".toList

def unused (source : Text) : List Finding :=
  let used := usedNames source
  ((firstBindings [] (Text.importBindings source)).filter fun binding =>
    !used.contains binding.name && binding.module != exemptModule).map
    fun binding => ⟨.unusedImport binding.name, binding.line, none⟩

def findings (reportUnused : Bool) (source : Text) : List Finding :=
  misplaced source ++ questionable [] (Text.importBindings source) ++
    (if reportUnused then unused source else [])

end NotebookLint.ImportIssues
