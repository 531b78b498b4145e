import NotebookLint.Config
import NotebookLint.Engine.Lint
import NotebookLint.Notebook.Percent
import NotebookLint.Report

/-!
# Editor diagnostics

An editor treats a document as a percent-format script and shows diagnostics on the lines of the
document. Positions are counted from zero.
-/

set_option autoImplicit false

namespace NotebookLint.Editor

open File (Tree)

structure Position where
  line : Int
  character : Int
  deriving DecidableEq, Repr

structure Mark where
  start : Position
  stop : Position
  message : String
  severity : Severity
  deriving DecidableEq, Repr

def severityCode : Severity → Nat
  | .error => 1
  | .warning => 2
  | .info => 3

def sourceName : String := "cellint"

/-- The mark of a diagnostic in a document whose cells start on the given lines. -/
def markOf (starts : List Nat) (diagnostic : Diagnostic) : Mark :=
  let cellStart : Nat :=
    match diagnostic.cellIndex with
    | some index => (starts[index.toNat]?).getD 0
    | none => 0
  let line := cellStart + diagnostic.cellLine.getD diagnostic.line - 1
  let character := (diagnostic.column.map fun column => column - 1).getD 0
  { start := ⟨line, character⟩
    stop := ⟨line, character + 1⟩
    message := s!"{diagnostic.rule} {diagnostic.message}"
    severity := diagnostic.severity }

def marks (rules : List Rule) (least : Severity) (source : Text) : List Mark :=
  let result := ((Engine.start rules).lintNotebook (Percent.cells source)).1
  let starts := (Percent.chunks source).map Percent.Chunk.start
  (Report.atLeast least result.diagnostics).map (markOf starts)

inductive Event where
  | shown (document : String) (source : Text)
  | closed (document : String)

structure Publication where
  document : String
  marks : List Mark

/-- The answer to an event. The settings are read anew for every document shown. -/
def handle (memory : Nat) (tree : Tree) : Event → Except ConfigFault Publication
  | .shown document source => do
      let (config, _) ← Config.loadHere tree
      pure ⟨document, marks (config.rules memory) config.minSeverity source⟩
  | .closed document => .ok ⟨document, []⟩

end NotebookLint.Editor
