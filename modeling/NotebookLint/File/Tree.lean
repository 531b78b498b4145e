import NotebookLint.File.Path
import NotebookLint.File.Utf8
import NotebookLint.Text.Quoted

/-!
# File trees

The files that a run sees, as a value: a list of files and directories by location. A location is
the list of the names on the way from the root, and every location on the way to an entry is a
directory. A path is looked up one component at a time, so that a double dot after a component
that does not exist leads nowhere. Some files can be found but not read. Symbolic links and
directories that cannot be entered are left out.
-/

set_option autoImplicit false

namespace NotebookLint.File

abbrev Location := List Text

inductive Node where
  | file (bytes : List UInt8)
  /-- A file that exists but may not be read. -/
  | unreadable
  | directory

structure Tree where
  entries : List (Location × Node)
  workingDirectory : Location

inductive AccessFault where
  | missing
  | notDirectory
  | isDirectory
  | permissionDenied
  | nameTooLong
  | nullCharacter
  deriving DecidableEq, Repr

def AccessFault.message (path : Path) (fault : AccessFault) : String :=
  let about (cause : String) := s!"{cause}: {String.ofList (Text.quoted path.toText)}"
  match fault with
  | .missing => about "[Errno 2] No such file or directory"
  | .notDirectory => about "[Errno 20] Not a directory"
  | .isDirectory => about "[Errno 21] Is a directory"
  | .permissionDenied => about "[Errno 13] Permission denied"
  | .nameTooLong => about "[Errno 36] File name too long"
  | .nullCharacter => "embedded null byte"

def maxNameBytes : Nat := 255

def maxPathBytes : Nat := 4095

namespace Tree

def node? (tree : Tree) (location : Location) : Option Node :=
  match tree.entries.find? fun entry => entry.1 == location with
  | some entry => some entry.2
  | none =>
      if location.isEmpty || tree.workingDirectory == location ||
          location.isPrefixOf tree.workingDirectory ||
          tree.entries.any fun entry => location.isPrefixOf entry.1 then
        some .directory
      else none

/-- The location to which one component leads: one level up, or to an entry. -/
def step (location : Location) (component : Text) : Location :=
  if component == Path.up then location.dropLast else location ++ [component]

def follow (tree : Tree) (location : Location) : List Text → Except AccessFault Location
  | [] => .ok location
  | component :: rest =>
      match tree.node? location with
      | none => .error .missing
      | some (.file _) | some .unreadable => .error .notDirectory
      | some .directory =>
          if utf8Length component > maxNameBytes then .error .nameTooLong
          else tree.follow (step location component) rest

def startOf (tree : Tree) (path : Path) : Location :=
  if path.isAbsolute then [] else tree.workingDirectory

def lookup (tree : Tree) (path : Path) : Except AccessFault (Location × Node) :=
  if path.holdsNull then .error .nullCharacter
  else if utf8Length path.toText > maxPathBytes then .error .nameTooLong
  else do
    let location ← tree.follow (tree.startOf path) path.components
    match tree.node? location with
    | some node => .ok (location, node)
    | none => .error .missing

def read (tree : Tree) (path : Path) : Except AccessFault (List UInt8) := do
  match (← tree.lookup path).2 with
  | .file bytes => .ok bytes
  | .unreadable => .error .permissionDenied
  | .directory => .error .isDirectory

/-- Whether a path leads to a file. Of a path that is too long this cannot be told. -/
def isFile (tree : Tree) (path : Path) : Except AccessFault Bool :=
  match tree.lookup path with
  | .ok (_, .directory) => .ok false
  | .ok _ => .ok true
  | .error .nameTooLong => .error .nameTooLong
  | .error _ => .ok false

/-- The location that a path names by its spelling alone, whether or not it exists. -/
def resolve (tree : Tree) (path : Path) : Location :=
  path.components.foldl step (tree.startOf path)

def beginnings {α : Type} : List α → List (List α)
  | [] => []
  | head :: rest => [head] :: (beginnings rest).map (head :: ·)

def relativeTo? (directory : Location) : Location → Option Location
  | location =>
      if directory.isPrefixOf location then some (location.drop directory.length) else none

/-- Everything below a directory, files and directories, by location relative to it. -/
def allBelow (tree : Tree) (directory : Location) : List Location :=
  ((tree.entries.filterMap fun entry => relativeTo? directory entry.1).flatMap beginnings).eraseDups

end Tree

end NotebookLint.File
