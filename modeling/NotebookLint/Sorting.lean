/-!
# Stable sorting

Sorting by insertion. Elements that are equal in the order keep the places they have to each other.
-/

set_option autoImplicit false

namespace NotebookLint

def insertSorted {α : Type} (mayPrecede : α → α → Bool) (element : α) : List α → List α
  | [] => [element]
  | head :: rest =>
      if mayPrecede element head then element :: head :: rest
      else head :: insertSorted mayPrecede element rest

/-- Sorts a list; `mayPrecede` says of two elements whether the first may stand before the
second. -/
def stableSort {α : Type} (mayPrecede : α → α → Bool) : List α → List α
  | [] => []
  | head :: rest => insertSorted mayPrecede head (stableSort mayPrecede rest)

end NotebookLint
