import NotebookLint.Lexical.Glyph
import NotebookLint.Text.Blank

/-!
# Source lines

A cell as its rules see it: a list of numbered lines, each with its raw text, its blanked text
and whether it begins inside a literal. Lines that are notebook directives rather than code are
set apart, and the remaining code lines carry the number of brackets open where they begin.
-/

set_option autoImplicit false

namespace NotebookLint

structure SourceLine where
  /-- Counted from one within the cell. -/
  number : Nat
  raw : Text
  clean : Text
  /-- The line begins inside a literal that spans lines. -/
  interior : Bool
  comment? : Option Text
  deriving DecidableEq, Repr

namespace SourceLine

def ofGlyphs (number : Nat) (interior : Bool) (glyphs : List Glyph) : SourceLine where
  number := number
  raw := glyphs.map Glyph.char
  clean := glyphs.map Glyph.shown
  interior := interior
  comment? :=
    match glyphs.filter (fun glyph => glyph.role == .comment) with
    | [] => none
    | comment => some (comment.map Glyph.char)

/-- Cuts glyphs into lines; `number` and `interior` describe the first of them, and `started`
holds its glyphs so far, last one first. -/
def ofScan (number : Nat) (interior : Bool) (started : List Glyph) : List Glyph → List SourceLine
  | [] => [ofGlyphs number interior started.reverse]
  | glyph :: rest =>
      if glyph.isBreak then
        ofGlyphs number interior started.reverse ::
          ofScan (number + 1) (glyph.role != .code) [] rest
      else ofScan number interior (glyph :: started) rest

def isShell (line : Text) : Bool :=
  (Text.trimLeft line).head? == some '!'

/-- Whether a line is a magic command: one or two percent signs and a letter directly after
them. -/
def isMagic (line : Text) : Bool :=
  match Text.trimLeft line with
  | '%' :: '%' :: char :: _ => isAsciiLetter char
  | '%' :: char :: _ => isAsciiLetter char
  | _ => false

def isDirective (line : Text) : Bool :=
  isShell line || isMagic line

end SourceLine

namespace Text

def sourceLines (source : Text) : List SourceLine :=
  SourceLine.ofScan 1 false [] (Glyph.scan source)

/-- The numbers, counted from zero, of the lines that begin inside a literal. -/
def interiorLines (source : Text) : List Nat :=
  (sourceLines source).filterMap fun line => if line.interior then some (line.number - 1) else none

def comments (source : Text) : List (Nat × Text) :=
  (sourceLines source).filterMap fun line => line.comment?.map fun text => (line.number - 1, text)

/-- Whether the first visible line of a cell starts with two percent signs, so that the whole cell
belongs to a magic command. -/
def isCellMagic (source : Text) : Bool :=
  match (lines source).find? fun line => !isBlankText line with
  | some line => startsWith ['%', '%'] (trimLeft line)
  | none => false

def bracketValue (char : Char) : Int :=
  if isOpener char then 1 else if isCloser char then -1 else 0

def bracketDelta (text : Text) : Int :=
  text.foldr (fun char delta => bracketValue char + delta) 0

/-- The bracket depth after a text that starts at the given depth; closers without an opener do not
count below zero. -/
def depthAfter (depth : Nat) (text : Text) : Nat :=
  (depth + bracketDelta text).toNat

def endsWithBackslash (clean : Text) : Bool :=
  lastVisible? clean == some '\\'

def indent (line : Text) : Text :=
  line.takeWhile fun char => char == ' ' || char == '\t'

def indentWidth (tabWidth : Nat) (line : Text) : Nat :=
  (indent line).foldr (fun char width => (if char == '\t' then tabWidth else 1) + width) 0

end Text

def standardTabWidth : Nat := 4

/-- A line of a cell that is no directive, with the number of brackets open where it begins. -/
structure CodeLine extends SourceLine where
  depth : Nat
  deriving DecidableEq, Repr

namespace CodeLine

/-- Keeps the lines that are no directives. Directives leave the bracket depth alone. -/
def ofLines (depth : Nat) : List SourceLine → List CodeLine
  | [] => []
  | line :: rest =>
      if SourceLine.isDirective line.raw then ofLines depth rest
      else { line with depth } :: ofLines (Text.depthAfter depth line.clean) rest

def endDepth (line : CodeLine) : Nat :=
  Text.depthAfter line.depth line.clean

def insideBrackets (line : CodeLine) : Bool :=
  line.depth > 0

end CodeLine

namespace Text

def codeLines (source : Text) : List CodeLine :=
  CodeLine.ofLines 0 (sourceLines source)

/-- The code lines that neither begin inside a literal nor are blank. -/
def logicalLines (source : Text) : List CodeLine :=
  (codeLines source).filter fun line => !line.interior && !isBlankText line.clean

end Text

end NotebookLint
