import NotebookLint.Text.Basic
import NotebookLint.Text.Word

/-!
# Glyphs: the lexical role of every character

The rules do not parse the language. They look at a cell in which the inside of every string
literal and comment is replaced by spaces, so that quoted text cannot be mistaken for code. This
file assigns to each character of a cell its role, and the blanked text is one view of that
assignment.

The assignment is the run of a machine that takes one character at a time, with the characters
ahead in sight. An unterminated one-line literal ends at its line break, and in a formatted
literal the expressions inside replacement fields keep their text, because they read names like
any other code.
-/

set_option autoImplicit false

namespace NotebookLint

inductive Role where
  | code
  /-- A letter such as `r` or `f` that stands directly before a literal and belongs to it. -/
  | marker
  | delimiter
  /-- The inside of a literal, a line break inside a literal included. -/
  | body
  /-- The kept part of a replacement field. -/
  | expression
  | comment
  deriving DecidableEq, Repr

structure Glyph where
  char : Char
  role : Role
  deriving DecidableEq, Repr

structure Literal where
  quote : Char
  /-- Opened by three quotes, so that it may span lines. -/
  triple : Bool
  /-- Opened with a marker that holds `f`, so that braces enclose replacement fields. -/
  formatted : Bool
  deriving DecidableEq, Repr

inductive Field where
  /-- In the expression, inside `depth` brackets of its own. -/
  | expression (depth : Nat)
  /-- In a string opened by `quote` inside the expression. -/
  | quoted (depth : Nat) (quote : Char)
  /-- In the conversion or format specification, inside `depth` braces of its own. -/
  | format (depth : Nat)
  deriving DecidableEq, Repr

inductive Mode where
  /-- In code; `afterWord` says that the last character was a word character. -/
  | code (afterWord : Bool)
  | comment
  /-- Before a literal, with `letters` more marker letters to come. -/
  | marker (letters : Nat) (formatted : Bool)
  /-- In an opening delimiter with `quotes + 1` quotes to come. -/
  | opening (quotes : Nat) (literal : Literal)
  | inside (literal : Literal)
  | escaped (literal : Literal)
  /-- After the first of two equal braces in a formatted literal. -/
  | doubled (literal : Literal)
  | field (literal : Literal) (place : Field)
  | closing (quotes : Nat)
  deriving DecidableEq, Repr

def isQuote (char : Char) : Bool :=
  char == '"' || char == '\x27'

def isOpener (char : Char) : Bool :=
  char == '(' || char == '[' || char == '\x7b'

def isCloser (char : Char) : Bool :=
  char == ')' || char == ']' || char == '\x7d'

def isMarkerLetter (char : Char) : Bool :=
  char == 'r' || char == 'R' || char == 'b' || char == 'B' ||
    char == 'f' || char == 'F' || char == 'u' || char == 'U'

def isFormatLetter (char : Char) : Bool :=
  char == 'f' || char == 'F'

def pairAhead (quote : Char) : Text → Bool
  | first :: second :: _ => first == quote && second == quote
  | _ => false

namespace Field

/-- One character of a replacement field that is not a line break: whether its text is kept, and
where the field goes on. The field ends at the closer that has no opener in it. -/
def step (char : Char) (ahead : Text) : Field → Bool × Option Field
  | .expression depth =>
      if isQuote char then (true, some (.quoted depth char))
      else if isOpener char then (true, some (.expression (depth + 1)))
      else if isCloser char then
        match depth with
        | 0 => (false, none)
        | outer + 1 => (true, some (.expression outer))
      else if (char == ':' || char == '!') && depth == 0 && ahead.head? != some '=' then
        (false, some (.format 0))
      else (true, some (.expression depth))
  | .quoted depth quote =>
      if char == quote then (true, some (.expression depth))
      else (false, some (.quoted depth quote))
  | .format depth =>
      if char == '\x7b' then (false, some (.format (depth + 1)))
      else if char == '\x7d' then
        match depth with
        | 0 => (false, none)
        | outer + 1 => (false, some (.format outer))
      else (false, some (.format depth))

end Field

namespace Mode

def openLiteral (quote : Char) (ahead : Text) (formatted : Bool) : Mode :=
  if pairAhead quote ahead then .opening 1 ⟨quote, true, formatted⟩
  else .inside ⟨quote, false, formatted⟩

/-- One character of code. One or two marker letters directly before a quote belong to the
literal, unless a word character stands before them. -/
def stepCode (char : Char) (ahead : Text) (afterWord : Bool) : Role × Mode :=
  if char == '#' then (.comment, .comment)
  else if isQuote char then (.delimiter, openLiteral char ahead false)
  else if isMarkerLetter char && !afterWord then
    match ahead with
    | next :: further =>
        if isQuote next then (.marker, .marker 0 (isFormatLetter char))
        else if isMarkerLetter next && further.head?.any isQuote then
          (.marker, .marker 1 (isFormatLetter char))
        else (.code, .code (isWordChar char))
    | [] => (.code, .code (isWordChar char))
  else (.code, .code (isWordChar char))

/-- One character inside a literal. A backslash that has a character after it hides that
character, and a line break ends a literal that may not span lines. -/
def stepInside (char : Char) (ahead : Text) (literal : Literal) : Role × Mode :=
  if char == '\\' && !ahead.isEmpty then (.body, .escaped literal)
  else if char == literal.quote && (!literal.triple || pairAhead literal.quote ahead) then
    (.delimiter, if literal.triple then .closing 1 else .code false)
  else if char == '\n' then
    if literal.triple then (.body, .inside literal) else (.code, .code false)
  else if literal.formatted && (char == '\x7b' || char == '\x7d') then
    if ahead.head? == some char then (.body, .doubled literal)
    else if char == '\x7b' then (.body, .field literal (.expression 0))
    else (.body, .inside literal)
  else (.body, .inside literal)

/-- One character of a replacement field. A line break cuts the field short where it ends the
literal too. -/
def stepField (char : Char) (ahead : Text) (literal : Literal) (place : Field) : Role × Mode :=
  if char == '\n' then
    if literal.triple then (.body, .field literal place) else (.code, .code false)
  else
    let (kept, next?) := place.step char ahead
    (if kept then .expression else .body,
      match next? with
      | some next => .field literal next
      | none => .inside literal)

def step (char : Char) (ahead : Text) : Mode → Role × Mode
  | .code afterWord => stepCode char ahead afterWord
  | .comment => if char == '\n' then (.code, .code false) else (.comment, .comment)
  | .marker 0 formatted => (.delimiter, openLiteral char ahead formatted)
  | .marker (letters + 1) formatted => (.marker, .marker letters (formatted || isFormatLetter char))
  | .opening 0 literal => (.delimiter, .inside literal)
  | .opening (quotes + 1) literal => (.delimiter, .opening quotes literal)
  | .inside literal => stepInside char ahead literal
  | .escaped literal => (.body, .inside literal)
  | .doubled literal => (.body, .inside literal)
  | .field literal place => stepField char ahead literal place
  | .closing 0 => (.delimiter, .code false)
  | .closing (quotes + 1) => (.delimiter, .closing quotes)

end Mode

namespace Glyph

def scanFrom : Mode → Text → List Glyph
  | _, [] => []
  | mode, char :: rest =>
      let (role, next) := mode.step char rest
      ⟨char, role⟩ :: scanFrom next rest

def scan (text : Text) : List Glyph :=
  scanFrom (.code false) text

/-- The character that the blanked text shows: code, delimiters and kept expressions show
themselves, line breaks stay, and all else is a space. -/
def shown (glyph : Glyph) : Char :=
  if glyph.char == '\n' then '\n'
  else
    match glyph.role with
    | .code | .delimiter | .expression => glyph.char
    | .marker | .body | .comment => ' '

def isBreak (glyph : Glyph) : Bool :=
  glyph.char == '\n'

end Glyph

namespace Text

/-- A text with the inside of its literals and its comments replaced by spaces. Length and line
breaks stay as they are. -/
def blanked (text : Text) : Text :=
  (Glyph.scan text).map Glyph.shown

end Text

end NotebookLint
