import NotebookLint.Engine.Order
import NotebookLint.Json.Value
import NotebookLint.Notebook.Percent

/-!
# Notebook documents

The code cells of a notebook stored as JSON. The index of a code cell is its position among the
code cells, and one line break at the end of its source is dropped.
-/

set_option autoImplicit false

namespace NotebookLint.Document

/-- The text of a cell's source, which is a text or a list of texts. -/
def sourceText : Option Json → Text
  | some (.string text) => text
  | some (.array items) => (items.filterMap Json.text?).flatten
  | _ => []

def dropLastBreak (text : Text) : Text :=
  if text.getLast? == some '\n' then text.dropLast else text

def codeSource? (cell : Json) : Option Text :=
  if ((cell.member? "cell_type").bind Json.text?) == some "code".toList then
    some (dropLastBreak (sourceText (cell.member? "source")))
  else none

def cells? (document : Json) : Option (List Cell) :=
  match document.member? "cells" with
  | some (.array items) => some (Percent.numberCells (items.filterMap codeSource?))
  | _ => none

end NotebookLint.Document

namespace NotebookLint.Cell

/-- A cell given by a text and an index that may be missing or of another kind. A text that is none
counts as empty, and an index counts only if it is an integer. -/
def ofJson (text index : Option Json) : Cell where
  text := (text.bind Json.text?).getD []
  index := index.bind Json.integer?

end NotebookLint.Cell
