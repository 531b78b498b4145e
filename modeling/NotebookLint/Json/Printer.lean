import NotebookLint.Json.Value
import NotebookLint.Text.Quoted

/-!
# Printing JSON

The report format: two spaces of indent per level, one item or member per line, empty containers
closed at once, and only ASCII characters, all others being written as escapes of their UTF-16
code units.
-/

set_option autoImplicit false

namespace NotebookLint.Json

def unitEscape (unit : Nat) : Text :=
  '\\' :: 'u' :: hexDigits 4 unit

def printedChar (char : Char) : Text :=
  let code := char.toNat
  if char = '"' || char = '\\' then ['\\', char]
  else if char = '\n' then ['\\', 'n']
  else if char = '\r' then ['\\', 'r']
  else if char = '\t' then ['\\', 't']
  else if code = 0x8 then ['\\', 'b']
  else if code = 0xC then ['\\', 'f']
  else if 0x20 ≤ code && code ≤ 0x7E then [char]
  else if code < 0x10000 then unitEscape code
  else
    unitEscape (0xD800 + (code - 0x10000) / 0x400) ++
      unitEscape (0xDC00 + (code - 0x10000) % 0x400)

def printedString (text : Text) : Text :=
  '"' :: text.flatMap printedChar ++ ['"']

def newline (level : Nat) : Text :=
  '\n' :: List.replicate (2 * level) ' '

mutual

/-- The printed form of a value that stands at the given nesting level. A number with a fraction is
never part of a report. -/
def printAt (level : Nat) : Json → Text
  | .null => "null".toList
  | .bool true => "true".toList
  | .bool false => "false".toList
  | .integer value => (toString value).toList
  | .decimal => "NaN".toList
  | .string value => printedString value
  | .array [] => ['[', ']']
  | .array (item :: items) =>
      '[' :: newline (level + 1) ++ printAt (level + 1) item ++ printItems (level + 1) items ++
        newline level ++ [']']
  | .object [] => ['\x7b', '\x7d']
  | .object ((key, value) :: members) =>
      '\x7b' :: newline (level + 1) ++ printedString key ++ [':', ' '] ++
        printAt (level + 1) value ++ printMembers (level + 1) members ++
        newline level ++ ['\x7d']

def printItems (level : Nat) : List Json → Text
  | [] => []
  | item :: items => ',' :: newline level ++ printAt level item ++ printItems level items

def printMembers (level : Nat) : List (Text × Json) → Text
  | [] => []
  | (key, value) :: members =>
      ',' :: newline level ++ printedString key ++ [':', ' '] ++ printAt level value ++
        printMembers level members

end

def print (value : Json) : Text :=
  printAt 0 value

end NotebookLint.Json
