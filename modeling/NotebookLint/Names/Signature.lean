import NotebookLint.Lexical.Glyph
import NotebookLint.Lexical.Words
import NotebookLint.Names.Reserved

/-!
# Function signatures

The functions that a blanked text defines, with the text of their parameter lists and the names
these declare. A parameter list may span lines, so signatures are read from the whole text.
-/

set_option autoImplicit false

namespace NotebookLint.Names

def isSpaceOrTab (char : Char) : Bool :=
  char == ' ' || char == '\t'

def skipSpaces (text : Text) : Text :=
  text.dropWhile isSpaceOrTab

def spaces? : Text → Option Text
  | [] => none
  | char :: rest => if isSpaceOrTab char then some (skipSpaces rest) else none

/-- Reads a function header at the beginning of a line up to its opening parenthesis: the name, and
what follows the parenthesis. -/
def functionHeader? (text : Text) : Option (Text × Text) := do
  let start := skipSpaces text
  let start := ((Text.after? "async".toList start).bind spaces?).getD start
  let rest ← (Text.after? "def".toList start).bind spaces?
  let (name, rest) ← Text.name? rest
  let rest ← Text.char? '(' (skipSpaces rest)
  pure (name, rest)

/-- What stands before the closer that ends `depth + 1` open brackets, if there is one. -/
def beforeCloser? : (depth : Nat) → Text → Option Text
  | _, [] => none
  | depth, char :: rest =>
      if isOpener char then (beforeCloser? (depth + 1) rest).map (char :: ·)
      else if isCloser char then
        match depth with
        | 0 => some []
        | outer + 1 => (beforeCloser? outer rest).map (char :: ·)
      else (beforeCloser? depth rest).map (char :: ·)

/-- The parameter text of a header, given what follows its parenthesis: all before the matching
closer, or without a closer all but the last character. -/
def parameterText (rest : Text) : Text :=
  (beforeCloser? 0 rest).getD rest.dropLast

/-- The functions defined from here on, with their parameter texts; `atLineStart` says that the
text is at the beginning of a line. -/
def signaturesFrom (atLineStart : Bool) : Text → List (Text × Text)
  | [] => []
  | char :: rest =>
      let here :=
        if atLineStart then
          (functionHeader? (char :: rest)).toList.map fun (name, after) =>
            (name, parameterText after)
        else []
      here ++ signaturesFrom (char == '\n') rest

def signatures (clean : Text) : List (Text × Text) :=
  signaturesFrom true clean

/-- Cuts a text at the commas that stand outside its brackets; `current` holds the piece so far,
last character first. -/
def splitParametersFrom (depth : Int) (current : Text) : Text → List Text
  | [] => [current.reverse]
  | char :: rest =>
      let depth := if isOpener char then depth + 1 else if isCloser char then depth - 1 else depth
      if char == ',' && depth == 0 then current.reverse :: splitParametersFrom depth [] rest
      else splitParametersFrom depth (char :: current) rest

def splitParameters (list : Text) : List Text :=
  splitParametersFrom 0 [] list

/-- The name of one parameter, without default, annotation and stars. The two names that methods
take implicitly are left out. -/
def parameterName? (parameter : Text) : Option Text :=
  let declared := (parameter.takeWhile fun char => char != '=').takeWhile fun char => char != ':'
  let name := Text.trim ((Text.trim declared).dropWhile fun char => char == '*')
  if Text.isName name && !implicitNames.contains name then some name else none

def parameterNames (list : Text) : List Text :=
  (splitParameters list).filterMap parameterName?

end NotebookLint.Names
