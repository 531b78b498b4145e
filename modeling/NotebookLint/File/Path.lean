import NotebookLint.Text.Basic

/-!
# Paths

A path as it is written: an optional root and components between slashes. Empty components and
single dots are dropped, double dots are kept. A path without components prints as a dot.
-/

set_option autoImplicit false

namespace NotebookLint.File

structure Path where
  /-- Empty for a relative path, otherwise one slash, or two if exactly two were written. -/
  root : Text
  components : List Text
  deriving DecidableEq, Repr

namespace Path

def up : Text := ['.', '.']

def componentsOf (written : Text) : List Text :=
  (Text.splitOn '/' written).filter fun component => !component.isEmpty && component != ['.']

def ofText (written : Text) : Path where
  root :=
    match (written.takeWhile fun char => char == '/').length with
    | 0 => []
    | 2 => ['/', '/']
    | _ => ['/']
  components := componentsOf written

def toText (path : Path) : Text :=
  match path.root, path.components with
  | [], [] => ['.']
  | root, components => root ++ Text.join ['/'] components

def holdsNull (path : Path) : Bool :=
  path.components.any fun component => component.contains '\x00'

def isAbsolute (path : Path) : Bool :=
  !path.root.isEmpty

def below (path : Path) (components : List Text) : Path :=
  { path with components := path.components ++ components }

/-- The ending of the last component from its last dot on. There is none if the dot is the first or
the last character. -/
def suffix (path : Path) : Text :=
  match path.components.getLast? with
  | none => []
  | some name =>
      let ending := (name.reverse.takeWhile fun char => char != '.').reverse
      if name.contains '.' && !ending.isEmpty && ending.length + 1 < name.length then
        '.' :: ending
      else []

end Path

end NotebookLint.File
