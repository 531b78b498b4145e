import NotebookLint.Command.Check
import NotebookLint.Text.Control

/-!
# The program

Reads the files that the arguments lead to into a file tree, runs the command on it, and prints what
it leaves behind.
-/

set_option autoImplicit false

open NotebookLint

def platform : Command.Platform where
  memory := 1 <<< 37
  plain line := String.ofList (Text.withoutControls line.toList)
  tomlFault _ := "invalid TOML"

def readFile (written : String) : IO File.Node := do
  try
    pure (.file (← IO.FS.readBinFile ((← IO.currentDir) / written)).toList)
  catch _ => pure .unreadable

/-- The files and directories found at a path, which has the given location, and below it. -/
partial def collectBelow (written : String) (location : File.Location) :
    IO (List (File.Location × File.Node)) := do
  let place := (← IO.currentDir) / written
  if ← place.isDir then
    let mut found := [(location, File.Node.directory)]
    for entry in ← place.readDir do
      let name := entry.fileName
      found := found ++ (← collectBelow s!"{written}/{name}" (location ++ [name.toList]))
    pure found
  else if ← place.pathExists then
    pure [(location, ← readFile written)]
  else pure []

/-- The directories on the way to a path argument, and all that the argument leads to. -/
def collectArgument (here : File.Location) (argument : String) :
    IO (List (File.Location × File.Node)) := do
  let path := File.Path.ofText argument.toList
  let tree : File.Tree := ⟨[], here⟩
  let mut found := []
  for beginning in File.Tree.beginnings path.components.dropLast do
    let outer : File.Path := { path with components := beginning }
    if ← ((← IO.currentDir) / String.ofList outer.toText).isDir then
      found := (tree.resolve outer, File.Node.directory) :: found
  pure (found ++ (← collectBelow (String.ofList path.toText) (tree.resolve path)))

def collectSettings (here : File.Location) : IO (List (File.Location × File.Node)) := do
  let mut found := []
  for outer in [] :: File.Tree.beginnings here do
    let location := outer ++ [Config.fileName]
    let place := String.ofList (File.Path.toText ⟨['/'], location⟩)
    if ← ((← IO.currentDir) / place).pathExists then
      if !(← ((← IO.currentDir) / place).isDir) then
        found := (location, ← readFile place) :: found
  pure found

def main (arguments : List String) : IO UInt32 := do
  let here := (File.Path.ofText (← IO.currentDir).toString.toList).components
  let mut entries ← collectSettings here
  for argument in arguments do
    entries := entries ++ (← collectArgument here argument)
  match Command.run platform ⟨entries, here⟩ (arguments.map String.toList) with
  | .error fault =>
      IO.eprintln fault.message
      pure 1
  | .ok .usageError =>
      IO.eprint "usage: check [--min-severity LABEL] [--format text|json] "
      IO.eprintln "[--stats] [--verbose] PATH..."
      pure 2
  | .ok (.finished exitCode standardOutput errorOutput) =>
      IO.eprint errorOutput
      IO.print standardOutput
      pure (UInt32.ofNat exitCode)
