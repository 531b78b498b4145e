import NotebookLint.Names.Binding
import NotebookLint.Proofs.AssignmentTargets
import NotebookLint.Proofs.BracketDepth
import NotebookLint.Proofs.Lexemes
import NotebookLint.Proofs.ScannerAgreement
import NotebookLint.Proofs.SignatureSpacing

/-! Assignments are found where the bracket rule sees no open bracket. The names of a cell are
collected with a bracket depth that is counted line by line and passes over directives. As long as
directives close the brackets that they open, that depth is zero wherever the stack of the bracket
rule is empty, so an assignment on a line that begins there binds its name. -/

set_option autoImplicit false

namespace NotebookLint

/-! ## The stack of the bracket rule -/

namespace UnclosedBrackets

/-- The openers that are not yet closed after brackets, innermost first. -/
def unclosedAfter (unclosed : List Bracket) : List Bracket → List Bracket
  | [] => unclosed
  | bracket :: rest =>
      if isOpener bracket.char then unclosedAfter (bracket :: unclosed) rest
      else
        match unclosed with
        | [] => unclosedAfter [] rest
        | opener :: outer =>
            if closerOf opener.char == bracket.char then unclosedAfter outer rest
            else unclosedAfter (opener :: outer) rest

/-- Matching goes on after brackets with the openers that they leave unclosed. -/
theorem exists_matchFrom_append (unclosed first : List Bracket) :
    ∃ reports, ∀ second, matchFrom unclosed (first ++ second) =
      reports ++ matchFrom (unclosedAfter unclosed first) second := by
  induction first generalizing unclosed with
  | nil => exact ⟨[], fun _ => rfl⟩
  | cons bracket rest ih =>
      simp only [List.cons_append, matchFrom, unclosedAfter]
      split
      · exact ih (bracket :: unclosed)
      · cases unclosed with
        | nil =>
            obtain ⟨reports, later⟩ := ih []
            exact ⟨_ :: reports, fun second => by rw [later, List.cons_append]⟩
        | cons opener outer =>
            dsimp only
            split
            · exact ih outer
            · obtain ⟨reports, later⟩ := ih (opener :: outer)
              exact ⟨_ :: reports, fun second => by rw [later, List.cons_append]⟩

theorem exists_bracketsFrom_append (line column : Nat) (before after : Text) :
    ∃ further, bracketsFrom line column (before ++ after) =
      bracketsFrom line column before ++ further := by
  induction before generalizing line column with
  | nil => exact ⟨_, rfl⟩
  | cons char rest ih =>
      simp only [List.cons_append, bracketsFrom]
      split
      · exact ih _ _
      · split
        · obtain ⟨further, split⟩ := ih line (column + 1)
          exact ⟨further, by rw [split, List.cons_append]⟩
        · exact ih _ _

/-- The rule reports nothing exactly if every bracket is closed by one of its kind. -/
theorem matchFrom_eq_nil_iff (unclosed : List Bracket) (line column : Nat) (text : Text) :
    matchFrom unclosed (bracketsFrom line column text) = [] ↔
      Text.closes (unclosed.map Bracket.char) text = true := by
  induction text generalizing unclosed line column with
  | nil => simp [bracketsFrom, matchFrom, Text.closes]
  | cons char rest ih =>
      rw [Text.closes_cons, bracketsFrom]
      by_cases isBreak : char = '\n'
      · subst isBreak
        exact ih unclosed (line + 1) 1
      · have visible : (char == '\n') = false := by simpa using isBreak
        simp only [visible, Bool.false_eq_true, if_false]
        by_cases opens : isOpener char = true
        · simp only [opens, Bool.true_or, if_true, matchFrom]
          exact ih (⟨char, line, column⟩ :: unclosed) line (column + 1)
        · have noOpener : isOpener char = false := by simpa using opens
          by_cases closes : isCloser char = true
          · simp only [noOpener, closes, Bool.or_true, if_true, matchFrom, Bool.false_eq_true,
              if_false]
            cases unclosed with
            | nil => simp
            | cons opener outer =>
                by_cases kind : closerOf opener.char = char
                · simp [kind, ih]
                · simp [kind]
          · have noCloser : isCloser char = false := by simpa using closes
            simp only [noOpener, noCloser, Bool.or_false, Bool.false_eq_true, if_false]
            exact ih unclosed line (column + 1)

/-- Whether what follows `before` in a cell begins a line outside literals and with no bracket open,
as the rule sees it. -/
structure BeginsStatement (before rest : Text) : Prop where
  lineStart : before = [] ∨ before.getLast? = some '\n'
  outside : Region.after rest .code before = .code
  unopened : unclosedAfter []
    (bracketsFrom 1 1 ((hideLiterals (before ++ rest)).take before.length)) = []

theorem BeginsStatement.closes {before rest : Text} (begins : BeginsStatement before rest)
    (matched : findings (before ++ rest) = []) :
    Text.closes [] ((hideLiterals (before ++ rest)).take before.length) = true := by
  rw [findings, brackets, ← List.take_append_drop before.length (hideLiterals (before ++ rest))]
    at matched
  obtain ⟨further, split⟩ := exists_bracketsFrom_append 1 1
    ((hideLiterals (before ++ rest)).take before.length)
    ((hideLiterals (before ++ rest)).drop before.length)
  obtain ⟨reports, goesOn⟩ := exists_matchFrom_append []
    (bracketsFrom 1 1 ((hideLiterals (before ++ rest)).take before.length))
  rw [split, goesOn, List.append_eq_nil_iff] at matched
  have alone := goesOn []
  rw [begins.unopened, matched.1, List.append_nil] at alone
  exact (matchFrom_eq_nil_iff [] 1 1 _).mp alone

end UnclosedBrackets

/-! ## The depth where a statement begins -/

/-- The scan restarts on a line that begins outside literals as the bracket rule sees them. -/
theorem Text.scan_append_break_of_region {earlier rest : Text}
    (unformatted : (earlier ++ '\n' :: rest).Unformatted)
    (outside : UnclosedBrackets.Region.after rest .code (earlier ++ ['\n']) = .code) :
    Glyph.scan (earlier ++ '\n' :: rest) =
      Glyph.scan earlier ++ ⟨'\n', .code⟩ :: Glyph.scan rest := by
  obtain ⟨reads, region⟩ := (Mode.readsPlainly unformatted).after
  have fits : Mode.Fits (.code false) (earlier ++ '\n' :: rest) := trivial
  apply Glyph.scanFrom_append_break fits
  apply reads.role_break
  rw [region, ← outside, UnclosedBrackets.Region.after_append]
  rfl

theorem CodeLine.depthAfterLines_of_closes {earlier rest : Text}
    (unformatted : (earlier ++ '\n' :: rest).Unformatted)
    (restarts : Glyph.scan (earlier ++ '\n' :: rest) =
      Glyph.scan earlier ++ ⟨'\n', .code⟩ :: Glyph.scan rest)
    (closed : Text.closes [] ((UnclosedBrackets.hideLiterals (earlier ++ '\n' :: rest)).take
      (earlier.length + 1)) = true)
    (neutral : ∀ line ∈ Text.sourceLines earlier, SourceLine.isDirective line.raw = true →
      Text.bracketDelta line.clean = 0) :
    depthAfterLines 0 (Text.sourceLines earlier) = 0 := by
  have plain : earlier.Unformatted := by
    intro glyph member
    apply unformatted
    rw [restarts]
    exact List.mem_append_left _ member
  have length : earlier.length = ((Glyph.scan earlier).map Glyph.concealed).length := by
    rw [List.length_map, ← List.length_map Glyph.char, Glyph.map_char_scan]
  have hidden : (UnclosedBrackets.hideLiterals (earlier ++ '\n' :: rest)).take
      (earlier.length + 1) = (Glyph.scan earlier).map Glyph.concealed ++ ['\n'] := by
    rw [UnclosedBrackets.hideLiterals_eq unformatted, restarts, List.map_append, List.map_cons,
      length, List.take_length_add_append]
    rfl
  have same : ((Glyph.scan earlier).map Glyph.concealed).map Text.bracketValue =
      (Text.blanked earlier).map Text.bracketValue := by
    have glyphs := (Mode.readsPlainly plain).map_bracketValue
    rw [Text.blanked, List.map_map, List.map_map]
    exact glyphs
  rw [hidden] at closed
  have stays : Text.StaysOpen 0 ((Glyph.scan earlier).map Glyph.concealed) := by
    intro before isPrefix
    exact Text.staysOpen_of_closes closed before (isPrefix.trans (List.prefix_append _ _))
  have balanced := Text.bracketDelta_of_closes closed
  have lines : ((Text.sourceLines earlier).map SourceLine.clean).flatten =
      (Text.blanked earlier).filter (· != '\n') := by
    rw [Text.map_clean_sourceLines, Text.flatten_lines]
  have counted := depthAfterLines_eq neutral (by rw [lines]; exact (stays.congr same).filter_break)
  rw [lines, Text.bracketDelta_filter_break, ← Text.bracketDelta_congr same] at counted
  have noBracket : Text.bracketValue '\n' = 0 := rfl
  simp only [Text.bracketDelta_append, Text.bracketDelta_cons, Text.bracketDelta_nil, noBracket,
    List.length_nil] at balanced
  omega

/-! ## Reading an assignment -/

namespace Text

/-- Whether a text begins with a line that assigns to a name: blanks, the name, blanks and an equals
sign that is not doubled. -/
def Assigns (text name : Text) : Prop :=
  ∃ margin gap value, text = margin ++ (name ++ (gap ++ '=' :: value)) ∧
    (∀ char ∈ margin ++ gap, isBlank char = true ∧ char ≠ '\n') ∧ value.head? ≠ some '='

end Text

namespace Names

open Text

section Assignment

variable {margin name gap value : Text} (inset : ∀ char ∈ margin, isBlank char = true)
  (named : isName name = true) (spaced : ∀ char ∈ gap, isBlank char = true)

include named spaced in
private theorem name?_line :
    name? (name ++ (gap ++ '=' :: value)) = some (name, gap ++ '=' :: value) := by
  obtain ⟨first, others, rfl, starts, letters⟩ := exists_of_isName named
  apply name?_append (by simpa using starts) letters
  exact not_isWordChar_of_head? (List.all_eq_true.mpr spaced) (by rintro char ⟨⟩; decide)

include inset named spaced in
theorem mem_assignmentTargets (single : value.head? ≠ some '=') (free : isKeyword name = false) :
    name ∈ assignmentTargets (margin ++ (name ++ (gap ++ '=' :: value))) := by
  have written : Groups [name] (name ++ [] ++ []) :=
    .bare (.last (.bare named free) rfl) .bare
  have read := targetGroup?_append (List.all_eq_true.mpr inset) written
    (List.all_eq_true.mpr spaced) single
  simp only [List.append_nil] at read
  rw [assignmentTargets, List.mem_filter]
  refine ⟨List.mem_append_left _ ?_, by simp [free]⟩
  rw [chainedTargets, read]
  exact List.mem_append_left _ List.mem_cons_self

include inset named spaced in
theorem startsStatement_line (free : isKeyword name = false) :
    startsStatement (margin ++ (name ++ (gap ++ '=' :: value))) = false := by
  have word : firstWord (margin ++ (name ++ (gap ++ '=' :: value))) = name := by
    have read : name? (name ++ (gap ++ '=' :: value)) = some (name, gap ++ '=' :: value) :=
      name?_line named spaced
    rw [firstWord, trimLeft_append margin inset (visible_of_isName named _)]
    obtain ⟨first, others, rfl, starts, letters⟩ := exists_of_isName named
    simp only [List.cons_append, name?, starts, if_true, Option.some.injEq, Prod.mk.injEq,
      List.cons.injEq, true_and] at read
    rw [List.cons_append, List.takeWhile_cons_of_pos (letters first List.mem_cons_self), read.1]
  have reserved : ∀ statement ∈ ofStrings
      ["if", "elif", "while", "for", "with", "except", "assert", "return"],
      isKeyword statement = true := by
    decide +kernel
  rw [startsStatement, word, List.contains_eq_mem, decide_eq_false_iff_not]
  intro member
  rw [reserved name member] at free
  cases free

include inset named in
theorem isDirective_line (rest : Text) :
    SourceLine.isDirective (margin ++ (name ++ rest)) = false := by
  have start := trimLeft_append margin inset (visible_of_isName named rest)
  obtain ⟨first, others, rfl, starts, -⟩ := exists_of_isName named
  have noShell : first ≠ '!' := by
    rintro rfl
    exact absurd starts (by decide)
  have noMagic : first ≠ '%' := by
    rintro rfl
    exact absurd starts (by decide)
  simp only [SourceLine.isDirective, SourceLine.isShell, SourceLine.isMagic, start]
  simp [noShell, noMagic]

end Assignment

theorem head?_of_lines {text first : Text} {others : List Text}
    (split : lines text = first :: others) {char : Char} (begins : first.head? = some char) :
    text.head? = some char := by
  cases text with
  | nil =>
      cases split
      cases begins
  | cons next rest =>
      by_cases isBreak : next = '\n'
      · subst isBreak
        rw [lines_cons_break] at split
        cases split
        cases begins
      · rw [lines_cons_of_ne isBreak] at split
        obtain ⟨line, more, again⟩ := List.exists_cons_of_ne_nil (lines_ne_nil rest)
        rw [again] at split
        cases split
        exact begins

/-- Blanking shows no character but a space where there was another one. -/
theorem head?_of_map_shown {mode : Mode} {text : Text} {char : Char} (visible : char ≠ ' ')
    (begins : ((Glyph.scanFrom mode text).map Glyph.shown).head? = some char) :
    text.head? = some char := by
  cases text with
  | nil => cases begins
  | cons next rest =>
      rw [Glyph.scanFrom_cons, List.map_cons, List.head?_cons, Option.some.injEq] at begins
      rcases Glyph.shown_eq_char_or_space ⟨next, (mode.step next rest).1⟩ with same | space
      · rw [List.head?_cons, ← begins, same]
      · exact absurd (begins.symm.trans space) visible

section Beginning

variable {margin name gap : Text} (blanks : ∀ char ∈ margin ++ gap, isBlank char = true ∧ char ≠ '\n')
  (letters : ∀ char ∈ name, isWordChar char = true)
include blanks letters

private theorem isCode_beginning : Lexeme.IsCode (margin ++ (name ++ gap)) := by
  have kind : ∀ char ∈ margin ++ (name ++ gap), isBlank char = true ∨ isWordChar char = true := by
    intro char member
    simp only [List.mem_append] at member blanks
    rcases member with inside | inside | inside
    · exact .inl (blanks char (.inl inside)).1
    · exact .inr (letters char inside)
    · exact .inl (blanks char (.inr inside)).1
  apply Lexeme.isCode_of_not_mem
  · exact fun inside => absurd (kind _ inside) (by decide)
  · exact fun inside => absurd (kind _ inside) (by decide)
  · exact fun inside => absurd (kind _ inside) (by decide)

private theorem unbroken_beginning : '\n' ∉ margin ++ (name ++ (gap ++ ['='])) := by
  simp only [List.mem_append, List.mem_singleton, not_or]
  refine ⟨fun inside => (blanks '\n' (by simp [inside])).2 rfl, fun inside => ?_,
    fun inside => (blanks '\n' (by simp [inside])).2 rfl, by decide⟩
  exact absurd (letters '\n' inside) (by decide)

/-- The beginning of an assignment is code, so it is shown as it stands. -/
private theorem blanked_beginning (value : Text) :
    blanked (margin ++ (name ++ (gap ++ '=' :: value))) =
      margin ++ (name ++ (gap ++ ['='])) ++
        (Glyph.scanFrom (.code false) value).map Glyph.shown := by
  obtain ⟨endsInWord, scanned⟩ := Lexeme.scanFrom_code_append (isCode_beginning blanks letters)
    ('=' :: value) (by simp [isQuote, isMarkerLetter]) false
  have sign : Mode.step '=' value (.code endsInWord) = (.code, .code false) := rfl
  have whole : margin ++ (name ++ (gap ++ '=' :: value)) =
      margin ++ (name ++ gap) ++ '=' :: value := by simp
  have shown : (margin ++ (name ++ gap)).map (Glyph.shown ∘ fun char => ⟨char, .code⟩) =
      margin ++ (name ++ gap) := by
    apply List.map_id''
    exact fun char => Glyph.shown_of_isKept rfl
  rw [blanked, Glyph.scan, whole, scanned, Glyph.scanFrom_cons, sign, List.map_append,
    List.map_map, List.map_cons, shown]
  simp [Glyph.shown]

end Beginning

/-- The first source line of a text that begins with an assignment shows it. -/
theorem exists_line_of_assigns {name text : Text} (assigns : text.Assigns name)
    (named : isName name = true) :
    ∃ line others, sourceLines text = line :: others ∧
      ∃ margin gap value rest, line.clean = margin ++ (name ++ (gap ++ '=' :: value)) ∧
        line.raw = margin ++ (name ++ rest) ∧ (∀ char ∈ margin ++ gap, isBlank char = true) ∧
        value.head? ≠ some '=' := by
  obtain ⟨margin, gap, value, rfl, blanks, single⟩ := assigns
  obtain ⟨-, -, -, -, letters⟩ := exists_of_isName named
  have unbroken := unbroken_beginning blanks letters
  have raw : margin ++ (name ++ (gap ++ '=' :: value)) =
      margin ++ (name ++ (gap ++ ['='])) ++ value := by simp
  obtain ⟨cleanRest, cleanLines, cleanSplit⟩ := List.exists_cons_of_ne_nil
    (lines_ne_nil ((Glyph.scanFrom (.code false) value).map Glyph.shown))
  obtain ⟨rawRest, rawLines, rawSplit⟩ := List.exists_cons_of_ne_nil (lines_ne_nil value)
  have cleans := map_clean_sourceLines (margin ++ (name ++ (gap ++ '=' :: value)))
  have raws := map_raw_sourceLines (margin ++ (name ++ (gap ++ '=' :: value)))
  rw [blanked_beginning blanks letters, lines_append_of_not_mem unbroken, cleanSplit,
    List.modifyHead_cons] at cleans
  nth_rewrite 2 [raw] at raws
  rw [lines_append_of_not_mem unbroken, rawSplit, List.modifyHead_cons] at raws
  cases sources : sourceLines (margin ++ (name ++ (gap ++ '=' :: value))) with
  | nil =>
      rw [sources] at cleans
      cases cleans
  | cons line others =>
      rw [sources, List.map_cons] at cleans raws
      refine ⟨line, others, rfl, margin, gap, cleanRest, gap ++ '=' :: rawRest, ?_, ?_, ?_, ?_⟩
      · rw [(List.cons.inj cleans).1]
        simp
      · rw [(List.cons.inj raws).1]
        simp
      · exact fun char member => (blanks char member).1
      · intro doubled
        exact single (head?_of_map_shown (by decide) (head?_of_lines cleanSplit doubled))

/-- A text that begins with an assignment binds its name. -/
theorem mem_lineBindings_of_assigns {name text : Text} (assigns : text.Assigns name)
    (named : isName name = true) (free : isKeyword name = false) :
    name ∈ (codeLines text).flatMap lineBindings := by
  obtain ⟨line, others, split, margin, gap, value, rest, clean, raw, blanks, single⟩ :=
    exists_line_of_assigns assigns named
  have inset : ∀ char ∈ margin, isBlank char = true := fun char inside =>
    blanks char (List.mem_append_left _ inside)
  have spaced : ∀ char ∈ gap, isBlank char = true := fun char inside =>
    blanks char (List.mem_append_right _ inside)
  have code : SourceLine.isDirective line.raw = false := by
    rw [raw]
    exact isDirective_line inset named rest
  have target : name ∈ assignmentTargets line.clean := by
    rw [clean]
    exact mem_assignmentTargets inset named spaced single free
  have statement : startsStatement line.clean = false := by
    rw [clean]
    exact startsStatement_line inset named spaced free
  rw [codeLines, split, CodeLine.ofLines, if_neg (by simp [code]), List.flatMap_cons]
  apply List.mem_append_left
  simp [lineBindings, CodeLine.insideBrackets, statement, target]

/-- An assignment on a line that begins outside literals and brackets, as the bracket rule sees
them, binds its name in a cell whose brackets match, if the directives before it close the brackets
that they open. -/
theorem mem_definedNames_of_assigns (before line name : Text)
    (unformatted : (before ++ line).Unformatted)
    (matched : UnclosedBrackets.findings (before ++ line) = [])
    (begins : UnclosedBrackets.BeginsStatement before line) (assigns : line.Assigns name)
    (named : isName name = true) (free : isKeyword name = false)
    (neutral : ∀ earlier ∈ sourceLines (before ++ line), earlier.number ≤ before.count '\n' →
      SourceLine.isDirective earlier.raw = true → bracketDelta earlier.clean = 0) :
    name ∈ definedNames (before ++ line) := by
  suffices bound : name ∈ (codeLines (before ++ line)).flatMap lineBindings by
    rw [definedNames, List.mem_filter]
    exact ⟨List.mem_append_right _ bound, by simp [free]⟩
  have here := mem_lineBindings_of_assigns assigns named free
  rcases begins.lineStart with rfl | ended
  · exact here
  · obtain ⟨earlier, rfl⟩ := List.getLast?_eq_some_iff.mp ended
    have whole : earlier ++ ['\n'] ++ line = earlier ++ '\n' :: line := by simp
    have closed := begins.closes matched
    rw [whole] at unformatted closed neutral ⊢
    have restarts := Text.scan_append_break_of_region unformatted begins.outside
    have neutralEarlier : ∀ other ∈ sourceLines earlier,
        SourceLine.isDirective other.raw = true → bracketDelta other.clean = 0 := by
      intro other member
      apply neutral
      · rw [sourceLines_of_scan restarts]
        exact List.mem_append_left _ member
      · have bound := (getElem?_of_mem_sourceLines member).2.1
        simpa [lineCount] using bound
    have depth := CodeLine.depthAfterLines_of_closes unformatted restarts
      (by simpa using closed) neutralEarlier
    rw [codeLines_of_scan restarts depth, List.flatMap_append]
    apply List.mem_append_right
    rw [List.flatMap_map]
    exact here

/-- A bracket in a literal over two lines and a directive with brackets stand before the
assignment. -/
theorem mem_definedNames_of_assigns_directive :
    let before : Text := "x = (1,\n  '''(\n''')\n%time f(x)\n".toList
    let line : Text := "  y = x\n".toList
    (before ++ line).Unformatted ∧ UnclosedBrackets.findings (before ++ line) = [] ∧
      UnclosedBrackets.BeginsStatement before line ∧ line.Assigns ['y'] ∧
      (∀ earlier ∈ sourceLines (before ++ line), earlier.number ≤ before.count '\n' →
        SourceLine.isDirective earlier.raw = true → bracketDelta earlier.clean = 0) ∧
      ['y'] ∈ definedNames (before ++ line) := by
  intro before line
  have unformatted : (before ++ line).Unformatted := by decide +kernel
  have matched : UnclosedBrackets.findings (before ++ line) = [] := by decide +kernel
  have begins : UnclosedBrackets.BeginsStatement before line := by
    constructor <;> decide +kernel
  have space : isBlank ' ' = true := rfl
  have assigns : line.Assigns ['y'] :=
    ⟨[' ', ' '], [' '], " x\n".toList, by decide, by simp [space], by decide⟩
  have neutral : ∀ earlier ∈ sourceLines (before ++ line), earlier.number ≤ before.count '\n' →
      SourceLine.isDirective earlier.raw = true → bracketDelta earlier.clean = 0 := by
    decide +kernel
  exact ⟨unformatted, matched, begins, assigns, neutral,
    mem_definedNames_of_assigns before line ['y'] unformatted matched begins assigns
      (by decide) (by decide) neutral⟩

/-- A line that goes on with an expression and begins with an operator is taken for a directive, so
the bracket that it closes stays open for the lines after it. -/
theorem not_mem_definedNames_after_operator :
    let before : Text := "a = b = 1\nx = (a\n  %b)\n".toList
    let line : Text := "y = 2".toList
    (before ++ line).Unformatted ∧ UnclosedBrackets.findings (before ++ line) = [] ∧
      UnclosedBrackets.BeginsStatement before line ∧ line.Assigns ['y'] ∧
      isName ['y'] = true ∧ isKeyword ['y'] = false ∧ ['y'] ∉ definedNames (before ++ line) := by
  intro before line
  refine ⟨by decide +kernel, by decide +kernel, ?_, ?_, by decide, by decide, by decide +kernel⟩
  · constructor <;> decide +kernel
  · have space : isBlank ' ' = true := rfl
    exact ⟨[], [' '], [' ', '2'], by decide, by simp [space], by decide⟩

end Names

end NotebookLint
