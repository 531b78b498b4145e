import NotebookLint.Diagnostic
import NotebookLint.Lexical.Lines
import NotebookLint.Lexical.Words
import NotebookLint.Text.Lowercase

/-!
# Suppressions

Comments can silence rules: `# cellint: noqa` on the line of the comment, `# cellint: disable-cell`
in the whole cell. A list of rule names after a colon restricts them to those rules. Markers are
read in any letter case and only in comments, not in literals.
-/

set_option autoImplicit false

namespace NotebookLint

inductive Coverage where
  | all
  | only (rules : List Text)
  deriving DecidableEq, Repr

namespace Coverage

def covers (rule : String) : Coverage → Bool
  | .all => true
  | .only rules => rules.contains rule.toList

/-- The coverage that a list of rule names stands for; a list without a name covers all rules. -/
def ofList (list : Text) : Coverage :=
  let names := ((Text.splitOn ',' list).map Text.trim).filter fun name => !name.isEmpty
  match names.map Text.lower with
  | [] => .all
  | names => .only names

end Coverage

namespace Suppression

/-- The small ASCII letter that a character matches when case is ignored. Beside the capitals these
are the dotless and the dotted i, the long s and the Kelvin sign. -/
def foldLetter (char : Char) : Char :=
  if 'A' ≤ char && char ≤ 'Z' then Char.ofNat (char.toNat + 32)
  else if char.toNat = 0x130 || char.toNat = 0x131 then 'i'
  else if char.toNat = 0x17F then 's'
  else if char.toNat = 0x212A then 'k'
  else char

def afterFolded? : (beginning text : Text) → Option Text
  | [], text => some text
  | _ :: _, [] => none
  | expected :: beginning, char :: rest =>
      if foldLetter char = expected then afterFolded? beginning rest else none

def isListStart (char : Char) : Bool :=
  isNameStart (foldLetter char)

def isListChar (char : Char) : Bool :=
  isListStart char || isAsciiDigit char || char == ',' || isBlank char

def coverage (rest : Text) : Coverage :=
  match rest with
  | ':' :: list =>
      let list := Text.trimLeft list
      if list.head?.any isListStart then .ofList (list.takeWhile isListChar) else .all
  | _ => .all

def markerAt? (keyword : String) (text : Text) : Option Coverage := do
  let rest ← Text.char? '#' text
  let rest ← afterFolded? "cellint:".toList (Text.trimLeft rest)
  let rest ← afterFolded? keyword.toList (Text.trimLeft rest)
  pure (coverage rest)

def marker? (keyword : String) (comment : Text) : Option Coverage :=
  (Text.suffixes comment).findSome? (markerAt? keyword)

structure Suppressions where
  /-- The coverage of the last comment with a marker for the whole cell. -/
  cell : Option Coverage
  /-- The lines with a marker of their own, counted from one. -/
  lines : List (Nat × Coverage)
  deriving DecidableEq, Repr

def ofSource (source : Text) : Suppressions where
  cell := ((Text.comments source).filterMap fun entry => marker? "disable-cell" entry.2).getLast?
  lines := (Text.comments source).filterMap fun entry =>
    (marker? "noqa" entry.2).map fun coverage => (entry.1 + 1, coverage)

def Suppressions.silences (suppressions : Suppressions) (offset : Int)
    (diagnostic : Diagnostic) : Bool :=
  suppressions.cell.any (Coverage.covers diagnostic.rule) ||
    suppressions.lines.any fun entry =>
      diagnostic.line == entry.1 + offset && entry.2.covers diagnostic.rule

def apply (source : Text) (offset : Int) (diagnostics : List Diagnostic) : List Diagnostic :=
  let suppressions := ofSource source
  diagnostics.filter fun diagnostic => !suppressions.silences offset diagnostic

end Suppression

end NotebookLint
