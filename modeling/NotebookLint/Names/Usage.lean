import NotebookLint.Lexical.Lines
import NotebookLint.Lexical.Words
import NotebookLint.Names.Reserved

/-!
# Names that a cell reads

Every name of a cell counts as read, except attributes, the names of keyword arguments, keywords,
and all names of import statements and directives.
-/

set_option autoImplicit false

namespace NotebookLint.Names

/-- A name read at a place of its cell; line and column are counted from one. -/
structure Usage where
  name : Text
  line : Nat
  column : Nat
  deriving DecidableEq, Repr

def isAttribute (line : Text) (start : Nat) : Bool :=
  Text.lastVisible? (line.take start) == some '.'

/-- Whether a word of a code line is the name of a keyword argument: an equals sign follows it
inside brackets. -/
def isKeywordArgument (line : CodeLine) (word : Word) : Bool :=
  (Text.assignSign? (line.clean.drop (word.start + word.text.length))).isSome &&
    line.depth + Text.bracketDelta (line.clean.take word.start) > 0

def lineUsages (line : CodeLine) : List Usage :=
  ((Text.names line.clean).filter fun word =>
    !isKeyword word.text && !isAttribute line.clean word.start && !isKeywordArgument line word).map
    fun word => ⟨word.text, line.number, word.start + 1⟩

def startsImport (line : Text) : Bool :=
  let start := Text.trimLeft line
  ((Text.after? "import".toList start).bind Text.gap?).isSome ||
    ((Text.after? "from".toList start).bind Text.gap?).isSome

/-- The names that code lines read; `inImport` says that an import statement goes on where they
begin. An import statement goes on as long as its brackets are open. -/
def usagesOf (inImport : Bool) : List CodeLine → List Usage
  | [] => []
  | line :: rest =>
      if (startsImport line.clean && line.depth == 0) || inImport then
        usagesOf (line.endDepth > 0) rest
      else lineUsages line ++ usagesOf false rest

def usedNames (source : Text) : List Usage :=
  usagesOf false (Text.codeLines source)

end NotebookLint.Names
