import NotebookLint.Json.Value
import NotebookLint.Limits

/-!
# Reading JSON

The reader accepts JSON and the three words `NaN`, `Infinity` and `-Infinity`. A failure names
its cause and the position at which it was found, given as a line, a column and a character
count. While reading, a position is known by the number of characters that are left. Beside
failures there are limits, and what comes first in the text decides.
-/

set_option autoImplicit false

namespace NotebookLint.Json

inductive Cause where
  | byteOrderMark
  | expectedValue
  | expectedKey
  | expectedColon
  | expectedComma
  | extraData
  | unterminatedString
  | controlCharacter
  | badEscape
  | badCodePoint
  deriving DecidableEq, Repr

namespace Cause

def message : Cause → String
  | .byteOrderMark => "Unexpected UTF-8 BOM (decode using utf-8-sig)"
  | .expectedValue => "Expecting value"
  | .expectedKey => "Expecting property name enclosed in double quotes"
  | .expectedColon => "Expecting ':' delimiter"
  | .expectedComma => "Expecting ',' delimiter"
  | .extraData => "Extra data"
  | .unterminatedString => "Unterminated string starting at"
  | .controlCharacter => "Invalid control character at"
  | .badEscape => "Invalid \\escape"
  | .badCodePoint => "Invalid \\uXXXX escape"

end Cause

/-- A failure with the number of characters left where it was found. -/
structure Failure where
  cause : Cause
  left : Nat
  deriving DecidableEq, Repr

namespace Failure

def message (failure : Failure) (text : Text) : String :=
  let position := text.length - failure.left
  let before := text.take position
  let column := (before.reverse.takeWhile fun char => char != '\n').length + 1
  s!"{failure.cause.message}: line {Text.lineCount before} column {column} (char {position})"

end Failure

inductive Fault where
  | invalid (failure : Failure)
  | limit (fault : LimitFault)
  deriving DecidableEq, Repr

def maxDepth : Nat := 990

def isSpace (char : Char) : Bool :=
  char == ' ' || char == '\t' || char == '\n' || char == '\r'

def skip (text : Text) : Text :=
  text.dropWhile isSpace

def hexValue? (char : Char) : Option Nat :=
  if '0' ≤ char && char ≤ '9' then some (char.toNat - '0'.toNat)
  else if 'a' ≤ char && char ≤ 'f' then some (char.toNat - 'a'.toNat + 10)
  else if 'A' ≤ char && char ≤ 'F' then some (char.toNat - 'A'.toNat + 10)
  else none

def hexNumber? (digits : Text) : Option Nat :=
  digits.foldlM (fun value char => (hexValue? char).map fun digit => value * 16 + digit) 0

def shortEscape? : Char → Option Char
  | '"' => some '"'
  | '\\' => some '\\'
  | '/' => some '/'
  | 'b' => some '\x08'
  | 'f' => some '\x0c'
  | 'n' => some '\n'
  | 'r' => some '\r'
  | 't' => some '\t'
  | _ => none

/-- Reads four hexadecimal digits that are not the end of the text. The failure is placed at the
letter before them. -/
def codeUnit? (text : Text) : Except Failure (Nat × Text) :=
  if text.length ≤ 4 then .error ⟨.badCodePoint, text.length + 1⟩
  else
    match hexNumber? (text.take 4) with
    | some value => .ok (value, text.drop 4)
    | none => .error ⟨.badCodePoint, text.length + 1⟩

/-- Reads the rest of an escape that names a code point, a pair of surrogates counting as one
character. -/
def codePoint? (text : Text) : Except Failure (Char × Text) := do
  let (high, rest) ← codeUnit? text
  if 0xD800 ≤ high && high ≤ 0xDBFF then
    match rest with
    | '\\' :: 'u' :: further =>
        if further.length ≤ 4 then .ok (Char.ofNat 0xFFFD, rest)
        else
          let (low, rest') ← codeUnit? further
          if 0xDC00 ≤ low && low ≤ 0xDFFF then
            .ok (Char.ofNat (0x10000 + (high - 0xD800) * 0x400 + (low - 0xDC00)), rest')
          else .ok (Char.ofNat 0xFFFD, rest)
    | _ => .ok (Char.ofNat 0xFFFD, rest)
  else if 0xDC00 ≤ high && high ≤ 0xDFFF then .ok (Char.ofNat 0xFFFD, rest)
  else .ok (Char.ofNat high, rest)

/-- Reads a string after its opening quote, which `start` characters were left before. `fuel`
bounds the number of characters and `done` holds those read so far, last one first. -/
def stringFrom (start : Nat) : (fuel : Nat) → (done text : Text) → Except Failure (Text × Text)
  | 0, _, _ => .error ⟨.unterminatedString, start⟩
  | _ + 1, _, [] => .error ⟨.unterminatedString, start⟩
  | fuel + 1, done, char :: rest =>
      if char == '"' then .ok (done.reverse, rest)
      else if char == '\\' then
        match rest with
        | [] => .error ⟨.unterminatedString, start⟩
        | 'u' :: digits => do
            let (decoded, rest) ← codePoint? digits
            stringFrom start fuel (decoded :: done) rest
        | letter :: further =>
            match shortEscape? letter with
            | some decoded => stringFrom start fuel (decoded :: done) further
            | none => .error ⟨.badEscape, further.length + 2⟩
      else if char.toNat ≤ 0x1F then .error ⟨.controlCharacter, rest.length + 1⟩
      else stringFrom start fuel (char :: done) rest

def string? (text : Text) : Except Failure (Text × Text) :=
  stringFrom (text.length + 1) (text.length + 1) [] text

def isDigit (char : Char) : Bool :=
  '0' ≤ char && char ≤ '9'

def afterFraction? : Text → Option Text
  | '.' :: char :: rest => if isDigit char then some (rest.dropWhile isDigit) else none
  | _ => none

def afterExponent? : Text → Option Text
  | letter :: rest =>
      if letter == 'e' || letter == 'E' then
        let unsigned :=
          match rest with
          | '+' :: digits => digits
          | '-' :: digits => digits
          | digits => digits
        if unsigned.head?.any isDigit then some (unsigned.dropWhile isDigit) else none
      else none
  | [] => none

/-- Reads the digits before a fraction. A zero stands alone. -/
def wholePart? (text : Text) : Option (List Nat × Text) :=
  match text with
  | '0' :: rest => some ([0], rest)
  | _ =>
      if text.head?.any isDigit then
        some ((text.takeWhile isDigit).map fun char => char.toNat - '0'.toNat,
          text.dropWhile isDigit)
      else none

def number? (text : Text) : Option (WrittenNumber × Text) :=
  let (negative, unsigned) :=
    match text with
    | '-' :: rest => (true, rest)
    | _ => (false, text)
  (wholePart? unsigned).map fun (digits, rest) =>
    let fraction := afterFraction? rest
    let exponent := afterExponent? (fraction.getD rest)
    (⟨negative, digits, fraction.isNone && exponent.isNone⟩,
      exponent.getD (fraction.getD rest))

def ofNumber (number : WrittenNumber) : Except LimitFault Json :=
  if number.isWhole then number.integer.map .integer else .ok .decimal

def constant? (text : Text) : Option (Json × Text) :=
  let read (word : String) (value : Json) :=
    (Text.after? word.toList text).map fun rest => (value, rest)
  read "null" .null <|> read "true" (.bool true) <|> read "false" (.bool false) <|>
    read "NaN" .decimal <|> read "Infinity" .decimal <|> read "-Infinity" .decimal

def scalar (text : Text) : Except Fault (Json × Text) :=
  match constant? text with
  | some result => .ok result
  | none =>
      match number? text with
      | some (number, rest) => ((ofNumber number).mapError .limit).map fun value => (value, rest)
      | none => .error (.invalid ⟨.expectedValue, text.length⟩)

mutual

/-- Reads a value at which the text starts; `fuel` bounds the number of values and members, and
`room` is the number of containers that may still be opened inside each other. -/
def valueFrom : (fuel room : Nat) → Text → Except Fault (Json × Text)
  | 0, _, text => .error (.invalid ⟨.expectedValue, text.length⟩)
  | fuel + 1, room, text =>
      match text with
      | '"' :: rest =>
          ((string? rest).mapError .invalid).map fun (value, rest) => (.string value, rest)
      | '\x7b' :: rest =>
          match room with
          | 0 => .error (.limit (.tooDeep .jsonObject))
          | room + 1 =>
              match skip rest with
              | '\x7d' :: rest => .ok (.object [], rest)
              | rest => membersFrom fuel room [] rest
      | '[' :: rest =>
          match room with
          | 0 => .error (.limit (.tooDeep .jsonArray))
          | room + 1 =>
              match skip rest with
              | ']' :: rest => .ok (.array [], rest)
              | rest => itemsFrom fuel room [] rest
      | _ => scalar text

def itemsFrom : (fuel room : Nat) → (done : List Json) → Text → Except Fault (Json × Text)
  | 0, _, _, text => .error (.invalid ⟨.expectedValue, text.length⟩)
  | fuel + 1, room, done, text => do
      let (item, rest) ← valueFrom fuel room text
      match skip rest with
      | ']' :: rest => .ok (.array (item :: done).reverse, rest)
      | ',' :: rest => itemsFrom fuel room (item :: done) (skip rest)
      | rest => .error (.invalid ⟨.expectedComma, rest.length⟩)

def membersFrom :
    (fuel room : Nat) → (done : List (Text × Json)) → Text → Except Fault (Json × Text)
  | 0, _, _, text => .error (.invalid ⟨.expectedKey, text.length⟩)
  | fuel + 1, room, done, text =>
      match text with
      | '"' :: rest => do
          let (key, rest) ← (string? rest).mapError Fault.invalid
          match skip rest with
          | ':' :: rest => do
              let (value, rest) ← valueFrom fuel room (skip rest)
              match skip rest with
              | '\x7d' :: rest => .ok (.object ((key, value) :: done).reverse, rest)
              | ',' :: rest => membersFrom fuel room ((key, value) :: done) (skip rest)
              | rest => .error (.invalid ⟨.expectedComma, rest.length⟩)
          | rest => .error (.invalid ⟨.expectedColon, rest.length⟩)
      | _ => .error (.invalid ⟨.expectedKey, text.length⟩)

end

/-- Reads a text that is one JSON value. Every value and member takes at least one character, so
the length of the text bounds their number. -/
def parse (text : Text) : Except Fault Json :=
  if text.head? == some (Char.ofNat 0xFEFF) then .error (.invalid ⟨.byteOrderMark, text.length⟩)
  else do
    let (value, rest) ← valueFrom (2 * text.length + 2) maxDepth (skip text)
    match skip rest with
    | [] => .ok value
    | rest => .error (.invalid ⟨.extraData, rest.length⟩)

end NotebookLint.Json
