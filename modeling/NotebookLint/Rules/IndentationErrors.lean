import NotebookLint.Diagnostic
import NotebookLint.Lexical.Lines

/-!
# Indentation errors

Blocks are followed with the list of indents that enclose the current line. After a line that ends
in a colon the next line has to be indented deeper; otherwise a deeper line is unexpected, and a
shallower one has to return to an enclosing indent. Lines that go on with an open bracket, a
backslash or a literal are not compared.

Beside this the characters of an indent are checked: tabs and spaces on one line, a line that uses
the other character than most lines of the cell, and an odd number of spaces.
-/

set_option autoImplicit false

namespace NotebookLint.IndentationErrors

def isPassive (line : SourceLine) : Bool :=
  Text.isBlankText line.clean || SourceLine.isDirective line.raw

def style? (indent : Text) : Option IndentStyle :=
  match indent.contains '\t', indent.contains ' ' with
  | true, false => some .tabs
  | false, true => some .spaces
  | _, _ => none

/-- The style used by more of the checked lines if both styles occur; spaces if they are equally
frequent. -/
def dominantStyle? (lines : List SourceLine) : Option IndentStyle :=
  let styles :=
    (lines.filter fun line => !line.interior && !isPassive line).map fun line =>
      style? (Text.indent line.raw)
  let tabs := styles.count (some .tabs)
  let spaces := styles.count (some .spaces)
  if tabs = 0 || spaces = 0 then none
  else if tabs > spaces then some .tabs
  else some .spaces

structure State where
  /-- The indents of the open blocks, innermost first; the cell itself, with indent zero, is
  understood. -/
  levels : List Nat
  /-- The line before ended in a colon. -/
  expectsBlock : Bool
  depth : Nat
  /-- The line before ended in a backslash. -/
  continued : Bool
  deriving DecidableEq, Repr

namespace State

def initial : State := ⟨[], false, 0, false⟩

def currentIndent (state : State) : Nat :=
  state.levels.headD 0

/-- The state after a line that is not compared. -/
def pass (state : State) (clean : Text) : State :=
  { state with
    expectsBlock := Text.lastVisible? clean == some ':'
    depth := Text.depthAfter state.depth clean
    continued := Text.endsWithBackslash clean }

/-- Compares an indent with the open blocks: what is wrong with it, and the blocks open after it. -/
def compare (state : State) (indent : Nat) : Option Problem × List Nat :=
  if state.expectsBlock then
    if indent ≤ state.currentIndent then (some .missingBlock, state.levels)
    else (none, indent :: state.levels)
  else if indent > state.currentIndent then (some .unexpectedIndent, indent :: state.levels)
  else
    let levels := state.levels.dropWhile fun level => level > indent
    (if levels.headD 0 = indent then none else some .unmatchedUnindent, levels)

end State

def styleProblem? (dominant : Option IndentStyle) (indent : Text) : Option Problem :=
  if indent.contains '\t' && indent.contains ' ' then some .mixedIndent
  else
    match dominant with
    | some .spaces => if indent.contains '\t' then some (.foreignIndent .spaces) else none
    | some .tabs => if indent.contains ' ' then some (.foreignIndent .tabs) else none
    | none => none

def spaceProblem? (indent : Text) : Option Problem :=
  if indent.count ' ' % 2 = 1 then some (.oddIndent (indent.count ' ')) else none

/-- The problems of one line, and the state after it. A line inside a literal only moves the
state. -/
def step (tabWidth : Nat) (dominant : Option IndentStyle) (state : State) (line : SourceLine) :
    List Problem × State :=
  if line.interior then ([], state.pass line.clean)
  else if isPassive line then ([], state)
  else
    let indent := Text.indent line.raw
    let styled := (styleProblem? dominant indent).toList
    if state.depth > 0 || state.continued then (styled, state.pass line.clean)
    else
      let (problem?, levels) := state.compare (Text.indentWidth tabWidth line.raw)
      (styled ++ problem?.toList ++ (spaceProblem? indent).toList,
        { state.pass line.clean with levels })

def findingsFrom (tabWidth : Nat) (dominant : Option IndentStyle) (state : State) :
    List SourceLine → List Finding
  | [] => []
  | line :: rest =>
      let (problems, next) := step tabWidth dominant state line
      problems.map (fun problem => ⟨problem, line.number, none⟩) ++
        findingsFrom tabWidth dominant next rest

def findings (tabWidth : Nat) (source : Text) : List Finding :=
  let lines := Text.sourceLines source
  findingsFrom tabWidth (dominantStyle? lines) .initial lines

def measuresIndent (source : Text) : Bool :=
  (Text.sourceLines source).any fun line => !line.interior && !isPassive line

end NotebookLint.IndentationErrors
