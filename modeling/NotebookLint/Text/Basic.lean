import NotebookLint.Sorting

/-!
# Texts

A text is the list of its characters, so that positions, columns and lengths count
characters. This file holds the operations on texts that know nothing of the language being
analysed: cutting at a separator, joining, and reading off a fixed beginning.
-/

set_option autoImplicit false

namespace NotebookLint

abbrev Text := List Char

namespace Text

/-- Cuts a list at every element that satisfies `isSeparator`. The separators are dropped, so
there is one piece more than there are separators. -/
def splitWhen {α : Type} (isSeparator : α → Bool) : List α → List (List α)
  | [] => [[]]
  | head :: rest =>
      if isSeparator head then [] :: splitWhen isSeparator rest
      else
        match splitWhen isSeparator rest with
        | [] => [[head]]
        | piece :: pieces => (head :: piece) :: pieces

def splitOn (separator : Char) (text : Text) : List Text :=
  splitWhen (fun char => char == separator) text

def join (separator : Text) : List Text → Text
  | [] => []
  | [piece] => piece
  | piece :: next :: pieces => piece ++ separator ++ join separator (next :: pieces)

/-- The lines of a text. Only the line feed ends a line, so a carriage return stays in its line
and a text without a line feed has one line. -/
def lines (text : Text) : List Text :=
  splitOn '\n' text

def ofLines (pieces : List Text) : Text :=
  join ['\n'] pieces

def lineCount (text : Text) : Nat :=
  text.count '\n' + 1

def after? : (beginning text : Text) → Option Text
  | [], text => some text
  | _ :: _, [] => none
  | expected :: beginning, char :: rest =>
      if char = expected then after? beginning rest else none

def startsWith (beginning text : Text) : Bool :=
  (after? beginning text).isSome

def endsWith (ending text : Text) : Bool :=
  startsWith ending.reverse text.reverse

def suffixes : Text → List Text
  | [] => [[]]
  | char :: rest => (char :: rest) :: suffixes rest

/-- Strict order of texts by code point, a proper beginning coming first. -/
def precedes : Text → Text → Bool
  | _, [] => false
  | [], _ :: _ => true
  | left :: lefts, right :: rights =>
      left.toNat < right.toNat || (left == right && precedes lefts rights)

def sortedDistinct (texts : List Text) : List Text :=
  stableSort (fun left right => !precedes right left) texts.eraseDups

end Text

end NotebookLint
