import NotebookLint.File.Tree

/-!
# Finding notebooks

A path argument that leads to a directory stands for the notebooks below it, in the order of their
components, except those with a directory on their way that is never interesting. A file that
several arguments lead to is taken once.
-/

set_option autoImplicit false

namespace NotebookLint.Command

open File (Path Tree Location AccessFault)

def skippedNames : List Text :=
  [".venv", "venv", "__pycache__", ".git", "node_modules", "build", "dist", ".tox",
    ".ipynb_checkpoints"].map String.toList

/-- Whether a path has a skipped name among its components, those of the directory searched
included. -/
def isSkipped (path : Path) : Bool :=
  path.components.any skippedNames.contains

def isNotebookName (location : Location) : Bool :=
  location.getLast?.any fun name => Text.endsWith ".ipynb".toList name

def locationPrecedes : Location → Location → Bool
  | _, [] => false
  | [], _ :: _ => true
  | left :: lefts, right :: rights =>
      Text.precedes left right || (left == right && locationPrecedes lefts rights)

def notebooksBelow (tree : Tree) (root : Path) (directory : Location) : List Path :=
  let found := (tree.allBelow directory).filter isNotebookName
  let ordered := stableSort (fun left right => !locationPrecedes right left) found
  (ordered.map root.below).filter fun path => !isSkipped path

structure SearchFault where
  path : Path
  fault : AccessFault

/-- Refuses a path argument that cannot be the path of anything. -/
def accept (path : Path) : Except SearchFault Unit :=
  if path.holdsNull then .error ⟨path, .nullCharacter⟩ else .ok ()

/-- Whether a path may turn out to lead nowhere only when it is loaded. -/
def isDeferred : AccessFault → Bool
  | .missing | .notDirectory | .isDirectory => true
  | .permissionDenied | .nameTooLong | .nullCharacter => false

def expand (tree : Tree) (path : Path) : Except SearchFault (List Path) :=
  match tree.lookup path with
  | .ok (directory, .directory) => .ok (notebooksBelow tree path directory)
  | .ok _ => .ok [path]
  | .error fault => if isDeferred fault then .ok [path] else .error ⟨path, fault⟩

/-- Keeps the first of the paths that name the same location; `seen` are the locations before
them. -/
def distinctFrom (tree : Tree) (seen : List Location) : List Path → List Path
  | [] => []
  | path :: rest =>
      let location := tree.resolve path
      if seen.contains location then distinctFrom tree seen rest
      else path :: distinctFrom tree (location :: seen) rest

def files (tree : Tree) (paths : List Path) : Except SearchFault (List Path) :=
  (paths.mapM (expand tree)).map fun found => distinctFrom tree [] found.flatten

end NotebookLint.Command
