import NotebookLint.Text.Basic

/-!
# Known names

The names that the cells of one notebook have defined so far. A name is kept once, however often
it is defined.
-/

set_option autoImplicit false

namespace NotebookLint

structure KnownNames where
  toList : List Text
  deriving DecidableEq, Repr

namespace KnownNames

def empty : KnownNames := ⟨[]⟩

def contains (known : KnownNames) (name : Text) : Bool :=
  known.toList.contains name

def insert (known : KnownNames) (name : Text) : KnownNames :=
  if known.contains name then known else ⟨known.toList ++ [name]⟩

def add (known : KnownNames) (names : List Text) : KnownNames :=
  names.foldl insert known

def size (known : KnownNames) : Nat :=
  known.toList.length

end KnownNames

end NotebookLint
