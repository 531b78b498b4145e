import NotebookLint.Text.Blank
import NotebookLint.Text.Word

/-!
# Words and names

A word is a maximal run of word characters, and a name is a word that starts with an ASCII letter
or an underscore. The recognisers below read the beginning of a text and give back what follows;
the patterns of the rules are written with them.
-/

set_option autoImplicit false

namespace NotebookLint

/-- A word with the position, counted from zero, of its first character. -/
structure Word where
  text : Text
  start : Nat
  deriving DecidableEq, Repr

namespace Word

/-- The words of a text whose first character stands at `position`; `current` holds the word that
the text goes on with, last character first. -/
def ofTextFrom (position : Nat) (current : Text) : Text → List Word
  | [] => if current.isEmpty then [] else [⟨current.reverse, position - current.length⟩]
  | char :: rest =>
      if isWordChar char then ofTextFrom (position + 1) (char :: current) rest
      else if current.isEmpty then ofTextFrom (position + 1) [] rest
      else ⟨current.reverse, position - current.length⟩ :: ofTextFrom (position + 1) [] rest

def isName (word : Word) : Bool :=
  word.text.head?.any isNameStart

end Word

namespace Text

def words (text : Text) : List Word :=
  Word.ofTextFrom 0 [] text

def names (text : Text) : List Word :=
  (words text).filter Word.isName

def isName : Text → Bool
  | [] => false
  | char :: rest => isNameStart char && rest.all isWordChar

/-- Whether a text starts at the end of a word, that is with no word character. -/
def atWordEnd (text : Text) : Bool :=
  !text.head?.any isWordChar

def char? (expected : Char) : Text → Option Text
  | [] => none
  | char :: rest => if char = expected then some rest else none

def gap? : Text → Option Text
  | [] => none
  | char :: rest => if isBlank char then some (trimLeft rest) else none

def word? (word : String) (text : Text) : Option Text :=
  (after? word.toList text).filter atWordEnd

def name? : Text → Option (Text × Text)
  | [] => none
  | char :: rest =>
      if isNameStart char then some (char :: rest.takeWhile isWordChar, rest.dropWhile isWordChar)
      else none

/-- Reads a word and the blanks after it, if the text starts with them; otherwise stays. -/
def skipWord (word : String) (text : Text) : Text :=
  ((after? word.toList text).bind gap?).getD text

/-- Reads blanks and an equals sign that is not doubled. -/
def assignSign? (text : Text) : Option Text :=
  ((char? '=') (trimLeft text)).filter fun rest => rest.head? != some '='

def firstWord (text : Text) : Text :=
  (trimLeft text).takeWhile isWordChar

end Text

end NotebookLint
