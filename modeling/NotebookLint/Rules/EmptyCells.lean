import NotebookLint.Diagnostic

/-!
# Empty cells

A cell that holds nothing worth running is reported on its first line: an empty cell, or one with
nothing but comments, `pass` statements or ellipses.
-/

set_option autoImplicit false

namespace NotebookLint.EmptyCells

/-- The lines of a cell that are neither blank nor comments, without the blanks around them. -/
def statements (source : Text) : List Text :=
  ((Text.lines source).map Text.trim).filter fun line => !line.isEmpty && line.head? != some '#'

def triviality? (source : Text) : Option Triviality :=
  if Text.isBlankText source then some .empty
  else if (statements source).isEmpty then some .onlyComments
  else if (statements source).all fun statement => statement == "pass".toList then some .onlyPass
  else if (statements source).all fun statement => statement == "...".toList then some .onlyEllipsis
  else none

def findings (source : Text) : List Finding :=
  (triviality? source).toList.map fun reason => ⟨.trivialCell reason, 1, none⟩

end NotebookLint.EmptyCells
