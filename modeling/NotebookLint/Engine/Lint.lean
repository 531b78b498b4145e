import NotebookLint.Engine.Known
import NotebookLint.Engine.Order
import NotebookLint.Log
import NotebookLint.Rule
import NotebookLint.Suppression

/-!
# Linting cells and notebooks

A cell is linted by running every rule on it. A rule that fails, be it in its reports or in its
names, contributes nothing and is noted in the log. A notebook is linted cell by cell in notebook
order, each cell knowing the names that the cells before it define.
-/

set_option autoImplicit false

namespace NotebookLint

structure CellResult where
  diagnostics : List Diagnostic
  defined : List Text
  log : List LogEntry

structure NotebookResult where
  diagnostics : List Diagnostic
  log : List LogEntry

namespace Diagnostic

/-- A diagnostic under the name of the rule that made it, at its place in its cell. -/
def placeIn (rule : String) (offset : Int) (cellIndex : Option Int) (diagnostic : Diagnostic) :
    Diagnostic :=
  { diagnostic with rule, cellIndex, cellLine := some (diagnostic.line - offset) }

/-- The order of a notebook's reports: by severity, then by line. -/
def mayPrecede (left right : Diagnostic) : Bool :=
  left.severity.rank < right.severity.rank ||
    (left.severity.rank == right.severity.rank && left.line ≤ right.line)

end Diagnostic

namespace Lint

structure Request where
  text : Text
  offset : Int
  context : List Text
  cellIndex : Option Int

def runRule (request : Request) (rule : Rule) : Except RuleFault (List Diagnostic × List Text) := do
  let found ← rule.check request.text request.offset request.context
  let names ← rule.definedNames request.text
  pure (found.map (Diagnostic.placeIn rule.name request.offset request.cellIndex), names)

/-- Runs rules on a cell, before suppressions. -/
def runRules (request : Request) : List Rule → CellResult
  | [] => ⟨[], [], []⟩
  | rule :: rest =>
      let others := runRules request rest
      match runRule request rule with
      | .ok (found, names) =>
          { others with
            diagnostics := found ++ others.diagnostics
            defined := names ++ others.defined }
      | .error _ => { others with log := .ruleFailed rule.name request.cellIndex :: others.log }

def cell (rules : List Rule) (request : Request) : CellResult :=
  let result := runRules request rules
  { result with diagnostics := Suppression.apply request.text request.offset result.diagnostics }

/-- Lints placed cells one after the other, before sorting; `known` are the names defined before
them. -/
def cellsFrom (rules : List Rule) (known : KnownNames) :
    List PlacedCell → NotebookResult × KnownNames
  | [] => (⟨[], []⟩, known)
  | placed :: rest =>
      let result := cell rules ⟨placed.text, placed.offset, known.toList, some placed.index⟩
      let known := known.add result.defined
      let entry := LogEntry.cellChecked placed.index result.diagnostics.length known.size
      let (others, known) := cellsFrom rules known rest
      (⟨result.diagnostics ++ others.diagnostics, result.log ++ entry :: others.log⟩, known)

end Lint

/-- An engine: its rules, and the names it knows from the notebook it linted last. -/
structure Engine where
  rules : List Rule
  known : KnownNames

namespace Engine

def start (rules : List Rule) : Engine := ⟨rules, .empty⟩

/-- Adds a rule, which may have the name of another one. -/
def register (engine : Engine) (rule : Rule) : Engine :=
  { engine with rules := engine.rules ++ [rule] }

def ruleNames (engine : Engine) : List String :=
  engine.rules.map Rule.name

def lintCell (engine : Engine) (request : Lint.Request) : CellResult :=
  Lint.cell engine.rules request

def lintCode (engine : Engine) (text : Text) (offset : Int) : CellResult :=
  engine.lintCell ⟨text, offset, [], none⟩

/-- Lints a notebook. The names known from an earlier notebook are forgotten first. -/
def lintNotebook (engine : Engine) (cells : List Cell) : NotebookResult × Engine :=
  let (result, known) := Lint.cellsFrom engine.rules .empty (Cell.placed cells)
  ({ result with diagnostics := stableSort Diagnostic.mayPrecede result.diagnostics },
    { engine with known })

end Engine

end NotebookLint
