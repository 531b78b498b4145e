import NotebookLint.Text.Basic

/-!
# Blank characters

Blank is the white space of the Unicode standard together with the four separators U+001C to
U+001F. The zero-width characters U+200B, U+2060 and U+FEFF are not blank.
-/

set_option autoImplicit false

namespace NotebookLint

def isBlank (char : Char) : Bool :=
  let code := char.toNat
  (0x9 ≤ code && code ≤ 0xD) || (0x1C ≤ code && code ≤ 0x20) || code == 0x85 || code == 0xA0 ||
    code == 0x1680 || (0x2000 ≤ code && code ≤ 0x200A) || code == 0x2028 || code == 0x2029 ||
    code == 0x202F || code == 0x205F || code == 0x3000

namespace Text

def trimLeft (text : Text) : Text :=
  text.dropWhile isBlank

def trimRight (text : Text) : Text :=
  (text.reverse.dropWhile isBlank).reverse

def trim (text : Text) : Text :=
  trimRight (trimLeft text)

def isBlankText (text : Text) : Bool :=
  text.all isBlank

def lastVisible? (text : Text) : Option Char :=
  (text.reverse.dropWhile isBlank).head?

end Text

end NotebookLint
