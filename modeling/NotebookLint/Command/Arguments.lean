import NotebookLint.Diagnostic
import NotebookLint.File.Path

/-!
# Command line

The arguments of the check command. Options and paths may be mixed; a double dash ends the options.
An option with a value takes the next argument, whatever it is, or what follows an equals sign.
-/

set_option autoImplicit false

namespace NotebookLint.Command

open File (Path)

inductive Format where
  | text
  | json
  deriving DecidableEq, Repr

structure Arguments where
  paths : List Path
  minSeverity : Option Text
  format : Format
  stats : Bool
  verbose : Bool

/-- The arguments as they stand while they are read; the format is not yet checked. -/
structure Draft where
  paths : List Path
  minSeverity : Option Text
  format : Option Text
  stats : Bool
  verbose : Bool

namespace Draft

def empty : Draft := ⟨[], none, none, false, false⟩

def addPaths (draft : Draft) (written : List Text) : Draft :=
  { draft with paths := draft.paths ++ written.map Path.ofText }

end Draft

/-- Sets an option that takes a value; the last value given holds. -/
def setValue? (name value : Text) (draft : Draft) : Option Draft :=
  if name == "--min-severity".toList then some { draft with minSeverity := some value }
  else if name == "--format".toList then some { draft with format := some value }
  else none

def setFlag? (name : Text) (draft : Draft) : Option Draft :=
  if name == "--stats".toList then some { draft with stats := true }
  else if name == "--verbose".toList then some { draft with verbose := true }
  else
    match name with
    | '-' :: letter :: letters =>
        if (letter :: letters).all fun letter => letter == 'v' then
          some { draft with verbose := true }
        else none
    | _ => none

def isOption (argument : Text) : Bool :=
  argument.head? == some '-' && argument.length > 1

def takesValue (name : Text) : Bool :=
  name == "--min-severity".toList || name == "--format".toList

def readFrom (draft : Draft) : List Text → Option Draft
  | [] => some draft
  | argument :: rest =>
      if argument == ['-', '-'] then some (draft.addPaths rest)
      else if !isOption argument then readFrom (draft.addPaths [argument]) rest
      else if argument.contains '=' then do
        let name := argument.takeWhile fun char => char != '='
        let draft ← setValue? name (argument.drop (name.length + 1)) draft
        readFrom draft rest
      else if takesValue argument then
        match rest with
        | [] => none
        | value :: rest => do
            let draft ← setValue? argument value draft
            readFrom draft rest
      else do
        let draft ← setFlag? argument draft
        readFrom draft rest

def format? : Option Text → Option Format
  | none => some .text
  | some word =>
      if word == "text".toList then some .text
      else if word == "json".toList then some .json
      else none

def Arguments.ofList? (arguments : List Text) : Option Arguments := do
  if arguments.isEmpty then none
  let draft ← readFrom .empty arguments
  let format ← format? draft.format
  pure ⟨draft.paths, draft.minSeverity, format, draft.stats, draft.verbose⟩

/-- The arguments of the check command in those of the program, which name the command first. -/
def checkArguments? : List Text → Option (List Text)
  | [] => none
  | first :: rest =>
      if first == "check".toList then some rest
      else if first == ['-', '-'] then
        match rest with
        | command :: rest => if command == "check".toList then some rest else none
        | [] => none
      else none

end NotebookLint.Command
