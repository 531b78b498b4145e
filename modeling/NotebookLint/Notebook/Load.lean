import NotebookLint.File.Tree
import NotebookLint.Json.Reader
import NotebookLint.Notebook.Document

/-!
# Loading notebooks

A file whose name ends in `.ipynb` is read as a JSON document, any other file as a percent-format
script.
-/

set_option autoImplicit false

namespace NotebookLint

open File (Path Tree AccessFault Utf8Fault)

inductive LoadFault where
  | noAccess (path : Path) (fault : AccessFault)
  | notUtf8 (path : Path) (fault : Utf8Fault)
  | notJson (path : Path) (reason : String)
  | noCells (path : Path)
  | limit (fault : LimitFault)

namespace LoadFault

def noCellsMessage : String := "notebook has no 'cells' list"

/-- Whether a fault stops a run. Every other one is reported, and the run goes on with the next
notebook. -/
def stopsRun : LoadFault → Bool
  | .noAccess _ fault => fault == .nullCharacter
  | .limit _ => true
  | _ => false

def message : LoadFault → String
  | .noAccess _ .nullCharacter => "embedded null byte"
  | .limit fault => fault.message
  | .noAccess path fault => s!"cannot read {String.ofList path.toText}: {fault.message path}"
  | .notUtf8 path fault => s!"cannot read {String.ofList path.toText}: {fault.message}"
  | .notJson path reason => s!"invalid notebook JSON in {String.ofList path.toText}: {reason}"
  | .noCells path => s!"{String.ofList path.toText}: {noCellsMessage}"

end LoadFault

namespace Notebook

def readText (tree : Tree) (path : Path) : Except LoadFault Text := do
  let bytes ← (tree.read path).mapError (LoadFault.noAccess path)
  let text ← (File.decodeUtf8 bytes).mapError (LoadFault.notUtf8 path)
  pure (File.unifyLineBreaks text)

def documentCells (path : Path) (text : Text) : Except LoadFault (List Cell) :=
  match Json.parse text with
  | .error (.invalid failure) => .error (.notJson path (failure.message text))
  | .error (.limit fault) => .error (.limit fault)
  | .ok document =>
      match Document.cells? document with
      | some cells => .ok cells
      | none => .error (.noCells path)

def load (tree : Tree) (path : Path) : Except LoadFault (List Cell) := do
  let text ← readText tree path
  if path.suffix == ".ipynb".toList then documentCells path text else pure (Percent.cells text)

end Notebook

end NotebookLint
