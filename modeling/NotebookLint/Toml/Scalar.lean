import NotebookLint.Limits
import NotebookLint.Text.Quoted
import NotebookLint.Toml.Value

/-!
# Reading TOML scalars

Strings, numbers, dates and times. Every reader takes the text at which a scalar should start and
gives back the scalar and what follows it, or nothing if there is none. Only a decimal integer can
go beyond a limit.
-/

set_option autoImplicit false

namespace NotebookLint.Toml

inductive Fault where
  | invalid
  | limit (fault : LimitFault)
  deriving DecidableEq, Repr

def orInvalid {α : Type} : Option α → Except Fault α
  | some result => .ok result
  | none => .error .invalid

/-- Whether a character may not stand in strings and comments: a control character other than the
tab. -/
def isControl (char : Char) : Bool :=
  (char.toNat < 0x20 && char != '\t') || char.toNat == 0x7F

def isControlInLines (char : Char) : Bool :=
  isControl char && char != '\n'

def isSpace (char : Char) : Bool :=
  char == ' ' || char == '\t'

def skip (text : Text) : Text :=
  text.dropWhile isSpace

def skipLines (text : Text) : Text :=
  text.dropWhile fun char => isSpace char || char == '\n'

def isDigit (char : Char) : Bool :=
  '0' ≤ char && char ≤ '9'

def digitValue? (base : Nat) (char : Char) : Option Nat :=
  let value? :=
    if isDigit char then some (char.toNat - '0'.toNat)
    else if 'a' ≤ char && char ≤ 'f' then some (char.toNat - 'a'.toNat + 10)
    else if 'A' ≤ char && char ≤ 'F' then some (char.toNat - 'A'.toNat + 10)
    else none
  value?.filter fun value => value < base

def hexNumber? (digits : Text) : Option Nat :=
  digits.foldlM (fun value char => (digitValue? 16 char).map fun digit => value * 16 + digit) 0

def codePoint? (width : Nat) (text : Text) : Option (Char × Text) := do
  let digits := text.take width
  if digits.length < width then none
  let code ← hexNumber? digits
  if code < 0xD800 || (0xE000 ≤ code && code ≤ 0x10FFFF) then
    some (Char.ofNat code, text.drop width)
  else none

def shortEscape? : Char → Option Char
  | 'b' => some '\x08'
  | 't' => some '\t'
  | 'n' => some '\n'
  | 'f' => some '\x0c'
  | 'r' => some '\r'
  | '"' => some '"'
  | '\\' => some '\\'
  | _ => none

/-- Reads an escape after its backslash: the characters it stands for. In a string that spans lines
a backslash at the end of a line hides the line break and the white space after it. -/
def escape? (multiline : Bool) : Text → Option (Text × Text)
  | [] => none
  | char :: rest =>
      if multiline && char == '\n' then some ([], skipLines rest)
      else if multiline && isSpace char then
        match skip rest with
        | [] => some ([], [])
        | next :: further => if next == '\n' then some ([], skipLines further) else none
      else if char == 'u' then (codePoint? 4 rest).map fun (char, rest) => ([char], rest)
      else if char == 'U' then (codePoint? 8 rest).map fun (char, rest) => ([char], rest)
      else (shortEscape? char).map fun char => ([char], rest)

/-- Reads a string with escapes after its opening quotes. `fuel` bounds the number of characters and
`done` holds those read so far, last one first. -/
def basicFrom (multiline : Bool) : (fuel : Nat) → (done text : Text) → Option (Text × Text)
  | 0, _, _ => none
  | _ + 1, _, [] => none
  | fuel + 1, done, char :: rest =>
      if char == '"' then
        if !multiline then some (done.reverse, rest)
        else
          match Text.after? ['"', '"'] rest with
          | some rest => some (done.reverse, rest)
          | none => basicFrom multiline fuel (char :: done) rest
      else if char == '\\' then do
        let (chars, rest) ← escape? multiline rest
        basicFrom multiline fuel (chars.reverse ++ done) rest
      else if if multiline then isControlInLines char else isControl char then none
      else basicFrom multiline fuel (char :: done) rest

def literal? (text : Text) : Option (Text × Text) := do
  let value := text.takeWhile fun char => char != '\x27'
  let rest ← (text.dropWhile fun char => char != '\x27').tail?
  if value.any isControl then none else some (value, rest)

def literalLines? : Text → Option (Text × Text)
  | [] => none
  | char :: rest =>
      match Text.after? ['\x27', '\x27', '\x27'] (char :: rest) with
      | some rest => some ([], rest)
      | none =>
          if isControlInLines char then none
          else (literalLines? rest).map fun (value, rest) => (char :: value, rest)

/-- Up to two more quotes after a string that spans lines belong to it. -/
def withTrailingQuotes (quote : Char) (value rest : Text) : Text × Text :=
  match rest with
  | first :: second :: further =>
      if first != quote then (value, rest)
      else if second != quote then (value ++ [quote], second :: further)
      else (value ++ [quote, quote], further)
  | [first] => if first == quote then (value ++ [quote], []) else (value, rest)
  | [] => (value, [])

/-- Drops a line break directly after the opening quotes of a string that spans lines. -/
def afterOpening (text : Text) : Text :=
  match text with
  | '\n' :: rest => rest
  | _ => text

def string? (text : Text) : Option (Text × Text) :=
  match Text.after? ['"', '"', '"'] text with
  | some rest =>
      let start := afterOpening rest
      (basicFrom true (start.length + 1) [] start).map fun (value, rest) =>
        withTrailingQuotes '"' value rest
  | none =>
      match Text.after? ['\x27', '\x27', '\x27'] text with
      | some rest =>
          (literalLines? (afterOpening rest)).map fun (value, rest) =>
            withTrailingQuotes '\x27' value rest
      | none =>
          match text with
          | '"' :: rest => basicFrom false (rest.length + 1) [] rest
          | '\x27' :: rest => literal? rest
          | _ => none

/-- Reads digits of a base with single underscores between them: their values. -/
def digits (base : Nat) : Text → List Nat × Text
  | [] => ([], [])
  | '_' :: char :: rest =>
      match digitValue? base char with
      | some digit =>
          let (others, rest) := digits base rest
          (digit :: others, rest)
      | none => ([], '_' :: char :: rest)
  | char :: rest =>
      match digitValue? base char with
      | some digit =>
          let (others, rest) := digits base rest
          (digit :: others, rest)
      | none => ([], char :: rest)

def based? (base : Nat) : Text → Option (List Nat × Text)
  | [] => none
  | char :: rest =>
      (digitValue? base char).map fun digit =>
        let (others, rest) := digits base rest
        (digit :: others, rest)

def markedInteger? (text : Text) : Option (Toml × Text) :=
  let read (base : Nat) (rest : Text) : Option (Toml × Text) :=
    (based? base rest).map fun (digits, rest) =>
      (.integer (WrittenNumber.valueOf base digits), rest)
  match text with
  | '0' :: 'x' :: rest => read 16 rest
  | '0' :: 'b' :: rest => read 2 rest
  | '0' :: 'o' :: rest => read 8 rest
  | _ => none

def afterSign (text : Text) : Text :=
  match text with
  | '+' :: rest => rest
  | '-' :: rest => rest
  | _ => text

def afterFraction? (text : Text) : Option Text :=
  match text with
  | '.' :: rest => (based? 10 rest).map Prod.snd
  | _ => none

def afterExponent? (text : Text) : Option Text :=
  match text with
  | letter :: rest =>
      if letter == 'e' || letter == 'E' then (based? 10 (afterSign rest)).map Prod.snd else none
  | [] => none

def decimal? (text : Text) : Option (WrittenNumber × Text) := do
  let (digits, rest) ←
    match afterSign text with
    | '0' :: rest => some ([0], rest)
    | unsigned => based? 10 unsigned
  let fraction := afterFraction? rest
  let exponent := afterExponent? (fraction.getD rest)
  some (⟨text.head? == some '-', digits, fraction.isNone && exponent.isNone⟩,
    exponent.getD (fraction.getD rest))

def ofNumber (number : WrittenNumber) : Except LimitFault Toml :=
  if number.isWhole then number.integer.map .integer else .ok .float

def specialNumber? (text : Text) : Option (Toml × Text) :=
  (Text.after? "inf".toList (afterSign text) <|> Text.after? "nan".toList (afterSign text)).map
    fun rest => (.float, rest)

def fixedDigits? (count : Nat) (text : Text) : Option (Nat × Text) :=
  let digits := text.take count
  if digits.length == count && digits.all isDigit then
    some (digits.foldl (fun value char => value * 10 + (char.toNat - '0'.toNat)) 0, text.drop count)
  else none

def pair? (low high : Nat) (text : Text) : Option (Nat × Text) :=
  (fixedDigits? 2 text).filter fun result => low ≤ result.1 && result.1 ≤ high

def mark? (expected : Char) : Text → Option Text
  | [] => none
  | char :: rest => if char == expected then some rest else none

def time? (text : Text) : Option Text := do
  let (_, rest) ← pair? 0 23 text
  let (_, rest) ← (mark? ':' rest).bind (pair? 0 59)
  let (_, rest) ← (mark? ':' rest).bind (pair? 0 59)
  match rest with
  | '.' :: char :: further =>
      if isDigit char then some (further.dropWhile isDigit) else some rest
  | _ => some rest

def afterOffset (text : Text) : Text :=
  match text with
  | [] => []
  | char :: rest =>
      if char == 'Z' || char == 'z' then rest
      else if char == '+' || char == '-' then
        (do
          let (_, rest) ← pair? 0 23 rest
          let (_, rest) ← (mark? ':' rest).bind (pair? 0 59)
          some rest).getD text
      else text

def daysIn (year month : Nat) : Nat :=
  if month == 2 then
    if year % 4 == 0 && (year % 100 != 0 || year % 400 == 0) then 29 else 28
  else if month == 4 || month == 6 || month == 9 || month == 11 then 30
  else 31

structure WrittenDate where
  year : Nat
  month : Nat
  day : Nat

def WrittenDate.isValid (date : WrittenDate) : Bool :=
  1 ≤ date.year && date.day ≤ daysIn date.year date.month

def date? (text : Text) : Option (WrittenDate × Text) := do
  let (year, rest) ← fixedDigits? 4 text
  let (month, rest) ← (mark? '-' rest).bind (pair? 1 12)
  let (day, rest) ← (mark? '-' rest).bind (pair? 1 31)
  some (⟨year, month, day⟩, rest)

def timeAfterDate? : Text → Option Text
  | [] => none
  | char :: rest =>
      if char == 'T' || char == 't' || char == ' ' then (time? rest).map afterOffset else none

def boolean? (text : Text) : Option (Toml × Text) :=
  ((Text.after? "true".toList text).map fun rest => (.boolean true, rest)) <|>
    (Text.after? "false".toList text).map fun rest => (.boolean false, rest)

/-- Reads a scalar that is no string. A date that does not exist is no scalar at all. -/
def plainScalar (text : Text) : Except Fault (Toml × Text) :=
  match date? text with
  | some (written, rest) =>
      if written.isValid then
        match timeAfterDate? rest with
        | some rest => .ok (.dateTime, rest)
        | none => .ok (.date, rest)
      else .error .invalid
  | none =>
      match boolean? text <|> ((time? text).map fun rest => (.time, rest)) <|>
          markedInteger? text with
      | some result => .ok result
      | none =>
          match decimal? text with
          | some (number, rest) =>
              ((ofNumber number).mapError .limit).map fun value => (value, rest)
          | none => orInvalid (specialNumber? text)

end NotebookLint.Toml
