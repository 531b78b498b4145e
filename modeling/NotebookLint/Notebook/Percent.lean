import NotebookLint.Engine.Order
import NotebookLint.Text.Blank

/-!
# Percent-format scripts

A script is cut into cells by marker lines, which start with `# %%`. Marker lines belong to no cell,
and what stands before the first marker is a cell only if it is not blank.
-/

set_option autoImplicit false

namespace NotebookLint.Percent

/-- Whether a line is a marker: a hash sign, blanks, two percent signs, and a blank or nothing after
them. -/
def isMarker : Text → Bool
  | '#' :: rest =>
      match Text.trimLeft rest with
      | '%' :: '%' :: after => after.head?.all isBlank
      | _ => false
  | _ => false

/-- A piece of a script between markers, with the number of its first line, counted from zero. -/
structure Chunk where
  start : Nat
  lines : List Text
  deriving DecidableEq, Repr

namespace Chunk

def text (chunk : Chunk) : Text :=
  Text.ofLines chunk.lines

end Chunk

/-- The chunks of lines whose first one has the given number. The first chunk starts there, and
every marker starts another one. -/
def chunksFrom (number : Nat) : List Text → List Chunk
  | [] => [⟨number, []⟩]
  | line :: rest =>
      if isMarker line then ⟨number, []⟩ :: chunksFrom (number + 1) rest
      else
        match chunksFrom (number + 1) rest with
        | [] => [⟨number, [line]⟩]
        | chunk :: chunks => ⟨number, line :: chunk.lines⟩ :: chunks

/-- The cells of a script with the lines on which they start. A blank beginning is dropped if a
marker follows it. -/
def chunks (source : Text) : List Chunk :=
  match chunksFrom 0 (Text.lines source) with
  | beginning :: next :: rest =>
      if Text.isBlankText beginning.text then next :: rest else beginning :: next :: rest
  | chunks => chunks

def numberCells (texts : List Text) : List Cell :=
  texts.zipIdx.map fun (text, position) => ⟨text, some position⟩

def cells (source : Text) : List Cell :=
  numberCells ((chunks source).map Chunk.text)

end NotebookLint.Percent
