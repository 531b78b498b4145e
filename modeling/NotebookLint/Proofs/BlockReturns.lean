import Mathlib.Algebra.Ring.Int.Defs
import NotebookLint.Proofs.FindingPlaces

/-! Functions with a return in their block. The body that is collected for a function goes on as long
as the lines of the cell are blank or indented deeper than the header, whatever they are. A return in
the block is therefore found if no other line before it stands out. A line that goes on with a
literal or a bracket, or a directive, may stand out although it ends no block, and then the function
is judged by the lines before it. -/

set_option autoImplicit false

namespace NotebookLint.MissingReturn

def indentOf (line : SourceLine) : Nat :=
  Text.indentWidth standardTabWidth line.clean

/-- Whether a line is one of those that make up the blocks of a cell: it begins outside literals and
brackets and is neither blank nor a directive. -/
def IsStatement (source : Text) (line : SourceLine) : Prop :=
  line ∈ (Text.statementLines source).map CodeLine.toSourceLine

/-- Whether a visible line is indented no deeper than a header. -/
def StandsOut (header line : SourceLine) : Prop :=
  Text.isBlankText line.clean = false ∧ indentOf line ≤ indentOf header

/-- Whether some lines after the first one are all that belong to a header: the brackets that are
opened on it stay open through all of them but the last. -/
structure GoesOnOver (first : SourceLine) (others : List SourceLine) : Prop where
  closed : ((first :: others).map fun line => Text.bracketDelta line.clean).sum ≤ 0
  isOpen : ∀ count < others.length,
    0 < ((first :: others.take count).map fun line => Text.bracketDelta line.clean).sum

/-- A function with a return in its block. The header begins with `first` and goes on over `others`,
and `between` are the lines from there to the return on `last`, which is a line of the block or of one
inside it. -/
structure Returns (source : Text) (first : SourceLine) (others between : List SourceLine)
    (last : SourceLine) : Prop where
  adjacent : first :: (others ++ (between ++ [last])) <:+: Text.sourceLines source
  header : (header? first.clean).isSome
  firstStatement : IsStatement source first
  goesOn : GoesOnOver first others
  lastStatement : IsStatement source last
  keyword : (Text.word? "return" (Text.trimLeft last.clean)).isSome
  deeper : ∀ line ∈ Text.statementLines source, first.number < line.number →
    line.number ≤ last.number → indentOf first < indentOf line.toSourceLine

instance (source : Text) (line : SourceLine) : Decidable (IsStatement source line) :=
  inferInstanceAs (Decidable (line ∈ (Text.statementLines source).map CodeLine.toSourceLine))

instance (header line : SourceLine) : Decidable (StandsOut header line) :=
  inferInstanceAs (Decidable (_ ∧ _))

/-! ## Headers -/

/-- A line with a decorator is no header. -/
theorem header?_of_decorator? {line decorator : Text} (found : decorator? line = some decorator) :
    header? line = none := by
  obtain ⟨rest, marked, -⟩ := Option.bind_eq_some_iff.mp found
  have start : Text.trimLeft line = '@' :: rest := Text.eq_cons_of_char? marked
  simp [header?, Text.skipWord, start, Text.after?]

/-- The margin of a header has the indent of its line. -/
theorem indentWidth_of_header? {line margin name : Text}
    (found : header? line = some (margin, name)) (tabWidth : Nat) :
    Text.indentWidth tabWidth margin = Text.indentWidth tabWidth line := by
  obtain ⟨_, -, found⟩ := Option.bind_eq_some_iff.mp found
  obtain ⟨_, -, found⟩ := Option.bind_eq_some_iff.mp found
  obtain ⟨_, -, found⟩ := Option.bind_eq_some_iff.mp found
  have margin : line.takeWhile isBlank = margin := (Prod.mk.inj (Option.some.inj found)).1
  have blank : ∀ char : Char, ((char == ' ' || char == '\t') && isBlank char) =
      (char == ' ' || char == '\t') := by
    intro char
    by_cases space : char = ' '
    · subst space
      rfl
    · by_cases tab : char = '\t'
      · subst tab
        rfl
      · simp [space, tab]
  rw [← margin, Text.indentWidth, Text.indentWidth, Text.indent, Text.indent,
    List.takeWhile_takeWhile]
  simp only [← Bool.and_eq_true, Bool.decide_eq_true, blank]

/-- Reading a header to its end takes the lines over which it goes on, and no more. -/
theorem afterHeader_append (depth : Int) (line : Text) (others following : List Text)
    (closed : depth + (others.map Text.bracketDelta).sum ≤ 0)
    (isOpen : ∀ count < others.length,
      0 < depth + ((others.take count).map Text.bracketDelta).sum) :
    afterHeader depth line (others ++ following) = (others.getLastD line, following) := by
  induction others generalizing depth line with
  | nil =>
      have ended : ¬ depth > 0 := by simpa using closed
      cases following with
      | nil => rfl
      | cons next rest => simp [afterHeader, ended]
  | cons next rest ih =>
      have goesOn : depth > 0 := by simpa using isOpen 0 (Nat.succ_pos _)
      rw [List.cons_append, afterHeader, if_pos goesOn, List.getLastD_cons]
      apply ih
      · simpa [Int.add_assoc] using closed
      · intro count bounded
        have later := isOpen (count + 1) (Nat.succ_lt_succ bounded)
        simpa [Int.add_assoc] using later

theorem GoesOnOver.afterHeader_eq {first : SourceLine} {others : List SourceLine}
    (goesOn : GoesOnOver first others) (following : List Text) :
    afterHeader (Text.bracketDelta first.clean) first.clean
        (others.map SourceLine.clean ++ following) =
      ((others.getLastD first).clean, following) := by
  rw [afterHeader_append, List.getLastD_map]
  · simpa [List.map_map, Function.comp_def] using goesOn.closed
  · intro count bounded
    have still := goesOn.isOpen count (by simpa using bounded)
    simpa [← List.map_take, List.map_map, Function.comp_def] using still

/-! ## Functions -/

/-- The functions of lines that come after others are found behind those of the others. -/
theorem exists_functionsFrom_append (number : Nat) (decorators before rest : List Text) :
    ∃ earlier waiting,
      functionsFrom number decorators (before ++ rest) =
          earlier ++ functionsFrom (number + before.length) waiting rest ∧
        ∀ function ∈ earlier, function.line < number + before.length := by
  induction before generalizing number decorators with
  | nil => exact ⟨[], decorators, rfl, by simp⟩
  | cons line others ih =>
      have shifted : number + (line :: others).length = number + 1 + others.length := by
        rw [List.length_cons]
        omega
      rw [List.cons_append, functionsFrom, shifted]
      split
      · exact ih _ _
      · split
        · obtain ⟨earlier, waiting, found, bounded⟩ := ih (number + 1) []
          dsimp only
          rw [found, ← List.cons_append]
          refine ⟨_, waiting, rfl, ?_⟩
          rw [List.forall_mem_cons]
          exact ⟨by simp only; omega, bounded⟩
        · exact ih _ _

/-- What the rule makes of a header: one function, which alone stands on this line. Its body is
collected from the lines after the header. -/
theorem exists_function_of_header {source : Text} {before after others : List SourceLine}
    {first : SourceLine}
    (split : Text.sourceLines source = before ++ first :: (others ++ after)) {margin name : Text}
    (header : header? first.clean = some (margin, name)) (goesOn : GoesOnOver first others) :
    ∃ function, (∀ other, other ∈ functions source ∧ other.line = first.number ↔
        other = function) ∧
      function.name = name ∧
      function.body = bodyLines (indentOf first) (others.getLastD first).clean
        (after.map SourceLine.clean) := by
  have numbered : first.number = 1 + before.length := by
    have found : (Text.sourceLines source)[before.length]? = some first := by simp [split]
    rw [Text.getElem?_number_sourceLines found, Nat.add_comm]
  have undecorated : decorator? first.clean = none := by
    cases found : decorator? first.clean with
    | none => rfl
    | some decorator =>
        rw [header?_of_decorator? found] at header
        cases header
  have lines : Text.lines (Text.blanked source) = before.map SourceLine.clean ++
      first.clean :: (others.map SourceLine.clean ++ after.map SourceLine.clean) := by
    rw [← Text.map_clean_sourceLines, split]
    simp
  obtain ⟨earlier, waiting, listed, bounded⟩ := exists_functionsFrom_append 1 []
    (before.map SourceLine.clean)
    (first.clean :: (others.map SourceLine.clean ++ after.map SourceLine.clean))
  rw [← lines, List.length_map, ← numbered, functionsFrom, undecorated, header] at listed
  simp only [goesOn.afterHeader_eq, indentWidth_of_header? header] at listed
  rw [List.length_map, ← numbered] at bounded
  refine ⟨⟨name, first.number, waiting, bodyLines (indentOf first) (others.getLastD first).clean
    (after.map SourceLine.clean)⟩, ?_, rfl, rfl⟩
  intro other
  rw [functions, listed, List.mem_append, List.mem_cons]
  constructor
  · rintro ⟨inEarlier | same | inLater, onLine⟩
    · exact absurd onLine (Nat.ne_of_lt (bounded other inEarlier))
    · exact same
    · have later := (line_of_mem_functionsFrom inLater).1
      exact absurd onLine (by omega)
  · rintro rfl
    exact ⟨.inr (.inl rfl), rfl⟩

theorem hasReturn_of_mem {function : Function} {line : Text} (member : line ∈ function.body)
    (keyword : (Text.word? "return" (Text.trimLeft line)).isSome) : function.hasReturn = true :=
  List.any_eq_true.mpr ⟨line, member, by simp [keyword]⟩

/-- A body goes on past lines that do not stand out. -/
theorem mem_bodyLines {first last : SourceLine} {between after : List SourceLine}
    (inside : ∀ line ∈ between ++ [last], ¬ StandsOut first line) (headerEnd : Text) :
    last.clean ∈ bodyLines (indentOf first) headerEnd
      ((between ++ last :: after).map SourceLine.clean) := by
  have kept : ∀ text ∈ (between ++ [last]).map SourceLine.clean,
      (Text.isBlankText text || decide (Text.indentWidth standardTabWidth text > indentOf first)) =
        true := by
    intro text member
    obtain ⟨line, inBlock, rfl⟩ := List.mem_map.mp member
    have hidden := inside line inBlock
    rw [StandsOut, not_and, Nat.not_le] at hidden
    cases blank : Text.isBlankText line.clean with
    | true => rfl
    | false => simpa [indentOf] using hidden blank
  rw [List.append_cons, List.map_append, bodyLines, List.takeWhile_append_of_pos kept]
  simp

/-- A body ends before a line that stands out. -/
theorem bodyLines_append_of_standsOut {first line : SourceLine} (standsOut : StandsOut first line)
    (headerEnd : Text) (earlier later : List Text) :
    bodyLines (indentOf first) headerEnd (earlier ++ line.clean :: later) =
      bodyLines (indentOf first) headerEnd earlier := by
  have ends : (Text.isBlankText line.clean ||
      decide (Text.indentWidth standardTabWidth line.clean > indentOf first)) = false := by
    have shallow := standsOut.2
    rw [standsOut.1, Bool.false_or, decide_eq_false_iff_not, Nat.not_lt]
    exact shallow
  rw [bodyLines, bodyLines, List.takeWhile_append]
  split
  · rename_i whole
    rw [List.takeWhile_cons_of_neg (by simp [ends]), List.append_nil]
    exact congrArg _ ((List.takeWhile_prefix _).eq_of_length whole).symm
  · rfl

/-! ## Reports -/

/-- The report about a function stands on its line. -/
theorem exists_mem_check_iff {source : Text} {number : Nat} {function : Function}
    (alone : ∀ other, other ∈ functions source ∧ other.line = number ↔ other = function)
    (offset : Int) :
    (∃ diagnostic ∈ (findings source).map (Finding.toDiagnostic "missing_return" offset),
        diagnostic.line = number + offset) ↔ function.lacksReturn = true := by
  obtain ⟨member, onLine⟩ := (alone function).mpr rfl
  constructor
  · rintro ⟨_, reported, placed⟩
    obtain ⟨finding, found, rfl⟩ := List.mem_map.mp reported
    obtain ⟨other, kept, rfl⟩ := List.mem_map.mp found
    obtain ⟨inCell, lacks⟩ := List.mem_filter.mp kept
    have sameLine : other.line = number := by
      simp only [Finding.toDiagnostic] at placed
      omega
    rw [← (alone other).mp ⟨inCell, sameLine⟩]
    exact lacks
  · intro lacks
    refine ⟨_, List.mem_map_of_mem (List.mem_map_of_mem (List.mem_filter.mpr ⟨member, lacks⟩)), ?_⟩
    simp [Finding.toDiagnostic, onLine]

/-- No line of the block up to the return stands out. -/
theorem Returns.isStray {source : Text} {first last : SourceLine} {others between : List SourceLine}
    (returns : Returns source first others between last) {line : SourceLine}
    (inBlock : line ∈ between ++ [last]) (standsOut : StandsOut first line) :
    ¬ IsStatement source line := by
  intro statement
  obtain ⟨code, member, rfl⟩ := List.mem_map.mp statement
  have ordered := (Text.pairwise_number_sourceLines source).sublist returns.adjacent.sublist
  rw [List.pairwise_cons, List.pairwise_append, List.pairwise_append] at ordered
  obtain ⟨behind, -, ⟨-, -, beforeLast⟩, -⟩ := ordered
  have after : first.number < code.number := behind _ (List.mem_append_right _ inBlock)
  have within : code.number ≤ last.number := by
    rcases List.mem_append.mp inBlock with inside | isLast
    · exact Nat.le_of_lt (beforeLast _ inside last (List.mem_singleton_self _))
    · exact Nat.le_of_eq (congrArg SourceLine.number (List.mem_singleton.mp isLast))
  have deep := returns.deeper code member after within
  have shallow := standsOut.2
  omega

/-- A function with a return in its block is not reported if none of the other lines before the
return stands out: those that go on with a literal or a bracket, and directives. If one does, the
function is reported exactly if it lacks a return as it would stand without that line and all lines
after it. -/
theorem Returns.unreported_unless_cut {source : Text} {first last : SourceLine}
    {others between : List SourceLine} (returns : Returns source first others between last)
    (memory : Nat) (offset : Int) (context : List Text) :
    ∃ diagnostics,
      (BuiltinRule.missingReturn.toRule memory).check source offset context = .ok diagnostics ∧
        ((∀ line ∈ between, ¬ IsStatement source line → ¬ StandsOut first line) →
          ∀ diagnostic ∈ diagnostics, diagnostic.line ≠ first.number + offset) ∧
        ∀ earlier stray later, between = earlier ++ stray :: later → StandsOut first stray →
          ¬ IsStatement source stray ∧
            ∃ function ∈ functions source, function.line = first.number ∧
              function.body = bodyLines (indentOf first) (others.getLastD first).clean
                (earlier.map SourceLine.clean) ∧
              ((∃ diagnostic ∈ diagnostics, diagnostic.line = first.number + offset) ↔
                function.lacksReturn = true) := by
  obtain ⟨before, after, split⟩ := returns.adjacent
  obtain ⟨⟨margin, name⟩, header⟩ := Option.isSome_iff_exists.mp returns.header
  have arranged : Text.sourceLines source =
      before ++ first :: (others ++ (between ++ last :: after)) := by
    simp [← split]
  obtain ⟨function, alone, -, body⟩ := exists_function_of_header arranged header returns.goesOn
  have reported := exists_mem_check_iff alone offset
  refine ⟨_, rfl, ?_, ?_⟩
  · intro quiet diagnostic member onLine
    have inside : ∀ line ∈ between ++ [last], ¬ StandsOut first line := by
      intro line inBlock standsOut
      have stray := returns.isStray inBlock standsOut
      rcases List.mem_append.mp inBlock with inBetween | isLast
      · exact quiet line inBetween stray standsOut
      · exact stray (List.mem_singleton.mp isLast ▸ returns.lastStatement)
    have returning : function.hasReturn = true :=
      hasReturn_of_mem (body ▸ mem_bodyLines inside _) returns.keyword
    have lacks := reported.mp ⟨diagnostic, member, onLine⟩
    simp [Function.lacksReturn, returning] at lacks
  · rintro earlier stray later rfl standsOut
    obtain ⟨member, onLine⟩ := (alone function).mpr rfl
    refine ⟨returns.isStray (by simp) standsOut, function, member, onLine, ?_, reported⟩
    rw [body]
    simpa using bodyLines_append_of_standsOut standsOut _ (earlier.map SourceLine.clean)
      ((later ++ last :: after).map SourceLine.clean)

theorem Returns.unreported_unless_cut_indented :
    let source : Text := "def f(\n):\n  n += (\n  1)\n  %t\n\n  return n".toList
    let line (number : Nat) (text : String) : SourceLine :=
      ⟨number, text.toList, text.toList, false, none⟩
    let first := line 1 "def f("
    let others := [line 2 "):"]
    let between := [line 3 "  n += (", line 4 "  1)", line 5 "  %t", line 6 ""]
    let memory := 1 <<< 37
    Returns source first others between (line 7 "  return n") ∧
      (∀ line ∈ between, ¬ IsStatement source line → ¬ StandsOut first line) ∧
      ∃ diagnostics,
        (BuiltinRule.missingReturn.toRule memory).check source 0 [] = .ok diagnostics ∧
          ∀ diagnostic ∈ diagnostics, diagnostic.line ≠ first.number + 0 := by
  intro source line first others between memory
  have returns : Returns source first others between (line 7 "  return n") := by
    refine ⟨by decide +kernel, by decide +kernel, by decide +kernel, ?_, by decide +kernel,
      by decide +kernel, by decide +kernel⟩
    constructor <;> decide +kernel
  have quiet : ∀ line ∈ between, ¬ IsStatement source line → ¬ StandsOut first line := by
    decide +kernel
  obtain ⟨diagnostics, checked, unreported, -⟩ := returns.unreported_unless_cut memory 0 []
  exact ⟨returns, quiet, diagnostics, checked, unreported quiet⟩

/-- A bracket that is closed at the margin ends the body that is collected, so that the return behind
it is not found. -/
theorem reported_despite_return :
    let source : Text := "def get_x():\n    s = (\n)\n    return s".toList
    let line (number : Nat) (text : String) : SourceLine :=
      ⟨number, text.toList, text.toList, false, none⟩
    let first := line 1 "def get_x():"
    let memory := 1 <<< 37
    Returns source first [] [line 2 "    s = (", line 3 ")"] (line 4 "    return s") ∧
      ∃ diagnostics,
        (BuiltinRule.missingReturn.toRule memory).check source 0 [] = .ok diagnostics ∧
          ∃ diagnostic ∈ diagnostics, diagnostic.line = first.number + 0 := by
  intro source line first memory
  refine ⟨⟨by decide +kernel, by decide +kernel, by decide +kernel, ?_, by decide +kernel,
    by decide +kernel, by decide +kernel⟩, _, rfl, by decide +kernel⟩
  constructor <;> decide +kernel

end NotebookLint.MissingReturn
