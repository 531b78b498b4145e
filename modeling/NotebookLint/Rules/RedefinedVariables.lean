import NotebookLint.Definitions.Scope
import NotebookLint.Names.Target

/-!
# Redefined variables

A cell should not give the names of predefined objects to its own variables, functions, classes or
loop variables, nor reuse the name of a variable for a function or class.
-/

set_option autoImplicit false

namespace NotebookLint.RedefinedVariables

structure Assigned where
  name : Text
  line : Nat
  deriving DecidableEq, Repr

def assigned? (line : CodeLine) : Option Assigned := do
  let (name, rest) ← Text.name? (Text.trimLeft line.clean)
  let _ ← Text.assignSign? rest
  pure ⟨name, line.number⟩

/-- The first assignment of each variable after one more assignment. -/
def remember (assignments : List Assigned) : Option Assigned → List Assigned
  | none => assignments
  | some new =>
      if assignments.any fun old => old.name == new.name then assignments
      else new :: assignments

def isBuiltin (name : Text) : Bool :=
  Names.shadowableBuiltins.contains name

def assignmentProblems (line : CodeLine) : List Problem :=
  (assigned? line).toList.filterMap fun assigned =>
    if isBuiltin assigned.name then some (.rebindsBuiltin assigned.name) else none

def definitionProblems (assignments : List Assigned) (line : CodeLine) : List Problem :=
  match Definition.ofLine? line.number line.clean with
  | none => []
  | some definition =>
      let earlier := assignments.find? fun assigned => assigned.name == definition.name
      (if isBuiltin definition.name then [.shadowsBuiltin definition.kind definition.name]
        else []) ++
        earlier.toList.map fun assigned =>
          .redefinesVariable definition.kind definition.name assigned.line

def loopProblems (line : CodeLine) : List Problem :=
  let statement := Text.skipWord "async" (Text.trimLeft line.clean)
  match (Text.after? "for".toList statement).bind Names.loopTargets? with
  | none => []
  | some (targets, _) =>
      ((Text.names targets).filter fun word => isBuiltin word.text).map
        fun word => .loopShadowsBuiltin word.text

/-- The findings on statement lines; `assignments` are the first assignments of the variables before
them. -/
def findingsFrom (assignments : List Assigned) : List CodeLine → List Finding
  | [] => []
  | line :: rest =>
      let assignments := remember assignments (assigned? line)
      (assignmentProblems line ++ definitionProblems assignments line ++ loopProblems line).map
          (fun problem => ⟨problem, line.number, none⟩) ++
        findingsFrom assignments rest

def findings (source : Text) : List Finding :=
  findingsFrom [] (Text.statementLines source)

end NotebookLint.RedefinedVariables
