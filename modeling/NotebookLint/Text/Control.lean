import NotebookLint.Text.Basic

/-!
# Control sequences

A terminal takes some sequences of characters for commands, such as a change of colour: the escape
character, an opening square bracket, parameters, and a letter that names the command. A report is
plain text, so a sequence that a path brings along is left out of it.
-/

set_option autoImplicit false

namespace NotebookLint.Text

def escape : Char := '\x1b'

def isParameter (char : Char) : Bool :=
  char == ';' || char == '?' || char.isDigit

/-- The length of the control sequence with which a text begins, zero if there is none. Digits and
the letter at the end are those of ASCII. -/
def controlLength : Text → Nat
  | first :: '[' :: rest =>
      let parameters := rest.takeWhile isParameter
      if first == escape && (rest.dropWhile isParameter).head?.any Char.isAlpha then
        parameters.length + 3
      else 0
  | _ => 0

/-- Leaves out the first `skipped` characters, and the control sequences of what follows them. -/
def withoutControlsFrom : (skipped : Nat) → Text → Text
  | _, [] => []
  | skipped + 1, _ :: rest => withoutControlsFrom skipped rest
  | 0, char :: rest =>
      match controlLength (char :: rest) with
      | 0 => char :: withoutControlsFrom 0 rest
      | following + 1 => withoutControlsFrom following rest

/-- A text without its control sequences. What their removal brings together stays, even if it reads
as another one. -/
def withoutControls (text : Text) : Text :=
  withoutControlsFrom 0 text

end NotebookLint.Text
