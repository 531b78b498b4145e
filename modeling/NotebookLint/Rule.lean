import NotebookLint.Diagnostic

/-!
# Rules

A rule looks at one cell at a time: its text, the number of notebook lines before it and the names
that earlier cells defined. It may fail, and the engine then goes on without it.
-/

set_option autoImplicit false

namespace NotebookLint

inductive RuleFault where
  /-- A tab was configured to be wider than a text can be long. -/
  | tabTooWide
  /-- A tab was configured to be wider than the memory. -/
  | outOfMemory
  | failure (message : String)
  deriving DecidableEq, Repr

namespace RuleFault

def message : RuleFault → String
  | .tabTooWide => "cannot fit 'int' into an index-sized integer"
  | .outOfMemory => ""
  | .failure message => message

end RuleFault

structure Rule where
  name : String
  /-- The reports on a cell with the given text, line offset and known names. -/
  check : Text → Int → List Text → Except RuleFault (List Diagnostic)
  /-- The names that a cell makes known to later cells. -/
  definedNames : Text → Except RuleFault (List Text)

end NotebookLint
