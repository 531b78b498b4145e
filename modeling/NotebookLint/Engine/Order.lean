import NotebookLint.Text.Basic

/-!
# Notebook order

Cells are taken in the order of their indices. A cell without an index takes the place of its
position in the input, and is reported under an index that no other cell has.
-/

set_option autoImplicit false

namespace NotebookLint

structure Cell where
  text : Text
  index : Option Int
  deriving DecidableEq, Repr

/-- A cell with the index under which it is reported and the number of notebook lines before it. -/
structure PlacedCell where
  index : Int
  offset : Nat
  text : Text
  deriving DecidableEq, Repr

namespace Cell

def lineCount (cell : Cell) : Nat :=
  Text.lineCount cell.text

def offsetsFrom (offset : Nat) : List Cell → List Nat
  | [] => []
  | cell :: rest => offset :: offsetsFrom (offset + cell.lineCount) rest

def offsets (cells : List Cell) : List Nat :=
  offsetsFrom 0 cells

/-- Pairs every cell with the key by which it is ordered: its index, or its position. -/
def keyed (cells : List Cell) : List (Int × Cell) :=
  cells.zipIdx.map fun (cell, position) => (cell.index.getD position, cell)

/-- The cells in notebook order. Cells with equal keys stay in input order. -/
def sorted (cells : List Cell) : List Cell :=
  (stableSort (fun left right => left.1 ≤ right.1) (keyed cells)).map Prod.snd

/-- The least integer from `start` on that is not taken. One of the first `taken.length + 1`
candidates is free. -/
def firstFree (taken : List Int) (start : Int) : Int :=
  (((List.range (taken.length + 1)).map fun (step : Nat) => start + step).find?
    fun candidate => !taken.contains candidate).getD start

/-- Gives every cell of a sorted list, whose first cell has the given position, the index under
which it is reported. -/
def numbered (taken : List Int) (position : Nat) : List Cell → List (Int × Cell)
  | [] => []
  | cell :: rest =>
      match cell.index with
      | some index => (index, cell) :: numbered taken (position + 1) rest
      | none =>
          let index := firstFree taken position
          (index, cell) :: numbered (index :: taken) (position + 1) rest

def ordered (cells : List Cell) : List (Int × Cell) :=
  numbered (cells.filterMap Cell.index) 0 (sorted cells)

def placed (cells : List Cell) : List PlacedCell :=
  ((ordered cells).zip (offsets (sorted cells))).map fun ((index, cell), offset) =>
    ⟨index, offset, cell.text⟩

end Cell

end NotebookLint
