import NotebookLint.Text.Basic
import NotebookLint.Text.Printable

/-!
# Quoted texts

The form in which a message shows a text literally. Single quotes enclose it, or double quotes if
it holds a single quote and no double quote. The backslash and the enclosing quote are escaped,
line feed, carriage return and tab have their short escapes, and a character that is not
printable is written by its code point in hexadecimal.
-/

set_option autoImplicit false

namespace NotebookLint

def hexDigit (value : Nat) : Char :=
  if value < 10 then Char.ofNat ('0'.toNat + value) else Char.ofNat ('a'.toNat + (value - 10))

/-- The last `width` hexadecimal digits of a number. -/
def hexDigits : (width : Nat) → Nat → Text
  | 0, _ => []
  | width + 1, value => hexDigits width (value / 16) ++ [hexDigit (value % 16)]

namespace Text

def escapeChar (quote char : Char) : Text :=
  if char = quote || char = '\\' then ['\\', char]
  else if char = '\n' then ['\\', 'n']
  else if char = '\r' then ['\\', 'r']
  else if char = '\t' then ['\\', 't']
  else if isPrintable char then [char]
  else if char.toNat < 0x100 then '\\' :: 'x' :: hexDigits 2 char.toNat
  else if char.toNat < 0x10000 then '\\' :: 'u' :: hexDigits 4 char.toNat
  else '\\' :: 'U' :: hexDigits 8 char.toNat

def enclosingQuote (text : Text) : Char :=
  if text.contains '\x27' && !text.contains '"' then '"' else '\x27'

def quoted (text : Text) : Text :=
  let quote := enclosingQuote text
  quote :: text.flatMap (escapeChar quote) ++ [quote]

end Text

end NotebookLint
