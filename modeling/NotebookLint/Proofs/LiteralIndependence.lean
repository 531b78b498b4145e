import NotebookLint.Proofs.AlikeCells
import NotebookLint.Proofs.LiteralRewriting

/-! What is written inside literals does not influence analysis, up to directives. Cells that differ
inside literals only have the same code on every line. Rules that leave out directives take a line
for one even where it begins inside a literal, so for these the cells have to agree in such lines. -/

set_option autoImplicit false

namespace NotebookLint

open Text

/-! ## Magic cells -/

namespace Text

private theorem exists_lines_eq_cons (text : Text) :
    ∃ others, lines text = firstLine text :: others := by
  induction text with
  | nil => exact ⟨[], rfl⟩
  | cons char rest ih =>
      by_cases isBreak : char = '\n'
      · subst isBreak
        exact ⟨lines rest, lines_cons_break rest⟩
      · obtain ⟨others, split⟩ := ih
        refine ⟨others, ?_⟩
        rw [lines_cons_of_ne isBreak, split, List.modifyHead_cons, firstLine_cons isBreak]

private theorem startsWithPercents_firstLine (char : Char) (rest : Text) :
    startsWith ['%', '%'] (char :: firstLine rest) = startsWith ['%', '%'] (char :: rest) := by
  cases rest with
  | nil => rfl
  | cons next others =>
      by_cases isBreak : next = '\n'
      · subst isBreak
        simp [startsWith, after?]
      · simp [firstLine_cons isBreak, startsWith, after?, apply_ite]

/-- Whether a cell is magic shows in its first two visible characters. -/
private theorem isCellMagic_eq_startsWith (source : Text) :
    isCellMagic source = startsWith ['%', '%'] (trimLeft source) := by
  induction source with
  | nil => rfl
  | cons char rest ih =>
      obtain ⟨others, split⟩ := exists_lines_eq_cons rest
      by_cases isBreak : char = '\n'
      · subst isBreak
        have blank : isBlank '\n' = true := by decide
        rw [trimLeft, List.dropWhile_cons_of_pos blank, ← trimLeft, ← ih, isCellMagic,
          lines_cons_break]
        rfl
      · rw [isCellMagic, lines_cons_of_ne isBreak, split, List.modifyHead_cons, List.find?_cons]
        rw [isCellMagic, split, List.find?_cons] at ih
        cases blank : isBlank char with
        | true =>
            have same : isBlankText (char :: firstLine rest) = isBlankText (firstLine rest) := by
              simp [isBlankText, blank]
            have trimmed : ∀ text : Text, trimLeft (char :: text) = trimLeft text :=
              fun text => List.dropWhile_cons_of_pos blank
            rw [same, trimmed rest, ← ih]
            cases isBlankText (firstLine rest) with
            | true => rfl
            | false => exact congrArg (startsWith ['%', '%']) (trimmed (firstLine rest))
        | false =>
            have visible : isBlankText (char :: firstLine rest) = false := by
              simp [isBlankText, blank]
            have trimmed : ∀ text : Text, trimLeft (char :: text) = char :: text :=
              fun text => List.dropWhile_cons_of_neg (by simp [blank])
            simp only [visible, Bool.not_false, trimmed, startsWithPercents_firstLine]

theorem SameUpToMark.isCellMagic_eq {left right : Text} (same : SameUpToMark left right) :
    isCellMagic left = isCellMagic right := by
  rw [isCellMagic_eq_startsWith, isCellMagic_eq_startsWith, same.startsWithPercents_eq]

end Text

/-! ## Cells with literals -/

/-- Whether a quote stands on the first line of a text, with no hash sign before it. -/
def Text.Quotes (text : Text) : Prop :=
  ∃ start quote later, text = start ++ quote :: later ∧ isQuote quote = true ∧ '#' ∉ start ∧
    '\n' ∉ start

theorem Text.Quotes.cons {text : Text} (quotes : Quotes text) {char : Char} (noHash : char ≠ '#')
    (noBreak : char ≠ '\n') : Quotes (char :: text) := by
  obtain ⟨start, quote, later, rfl, isOpening, unhashed, unbroken⟩ := quotes
  exact ⟨char :: start, quote, later, rfl, isOpening, by simp [noHash.symm, unhashed],
    by simp [noBreak.symm, unbroken]⟩

/-- A step outside literals that does not lead into a comment is outside comments, unless it ends a
line. -/
private theorem Mode.Outside.ne_hash {mode : Mode} (outside : mode.Outside) {char : Char}
    {rest : Text} (fits : mode.Fits (char :: rest)) (noBreak : char ≠ '\n')
    (next : (mode.step char rest).2 ≠ .comment) : mode ≠ .comment ∧ char ≠ '#' := by
  match mode, fits, outside with
  | .code afterWord, _, _ =>
      refine ⟨by simp, ?_⟩
      rintro rfl
      exact next rfl
  | .comment, _, _ => simp [Mode.step, noBreak] at next
  | .marker 0 formatted, fits, _ =>
      refine ⟨by simp, ?_⟩
      rintro rfl
      exact absurd fits.isQuote_of_marker (by decide)
  | .marker (_ + 1) formatted, fits, _ =>
      refine ⟨by simp, ?_⟩
      rintro rfl
      exact absurd fits.isMarkerLetter_of_marker (by decide)

/-- Where a text that is entered outside literals has a literal, a line of it has a quote outside
comments. -/
private theorem Mode.Outside.exists_quotes {mode : Mode} (outside : mode.Outside) {text : Text}
    (fits : mode.Fits text) (inside : .body ∈ (Glyph.scanFrom mode text).map Glyph.role) :
    mode ≠ .comment ∧ text.Quotes ∨
      ∃ before later : Text, text = before ++ '\n' :: later ∧ later.Quotes := by
  induction text generalizing mode with
  | nil => simp at inside
  | cons char rest ih =>
      obtain ⟨notInside, opens | stays⟩ := outside.step fits
      · exact .inl ⟨opens.1, [], char, rest, rfl, opens.2, nofun, nofun⟩
      · rw [Glyph.scanFrom_cons, List.map_cons, List.mem_cons] at inside
        have later := inside.resolve_left (Ne.symm notInside)
        rcases ih stays fits.step later with ⟨notComment, quotes⟩ | ⟨before, line, rfl, quotes⟩
        · by_cases isBreak : char = '\n'
          · subst isBreak
            exact .inr ⟨[], rest, rfl, quotes⟩
          · obtain ⟨stillCode, noHash⟩ := outside.ne_hash fits isBreak notComment
            exact .inl ⟨stillCode, quotes.cons noHash isBreak⟩
        · exact .inr ⟨char :: before, line, rfl, quotes⟩

private theorem Text.exists_mem_lines_quotes {source : Text}
    (inside : .body ∈ (Glyph.scan source).map Glyph.role) :
    ∃ line ∈ lines source, Quotes line := by
  have first : ∀ text : Text, text.Quotes → ∃ line ∈ lines text, Quotes line := by
    rintro text ⟨start, quote, later, rfl, isOpening, unhashed, unbroken⟩
    have noBreak : quote ≠ '\n' := by
      rintro rfl
      exact absurd isOpening (by decide)
    obtain ⟨others, split⟩ := exists_lines_eq_cons later
    refine ⟨start ++ quote :: firstLine later, ?_, start, quote, firstLine later, rfl, isOpening,
      unhashed, unbroken⟩
    rw [lines_append_of_not_mem unbroken, lines_cons_of_ne noBreak, split]
    exact List.mem_cons_self
  have code : Mode.Outside (.code false) := trivial
  rcases code.exists_quotes trivial inside with ⟨-, quotes⟩ | ⟨before, later, rfl, quotes⟩
  · exact first source quotes
  · obtain ⟨line, member, found⟩ := first later quotes
    rw [lines_append_break]
    exact ⟨line, List.mem_append_right _ member, found⟩

namespace EmptyCells

private theorem mem_statements_of_quotes {source line : Text} (member : line ∈ lines source)
    (quotes : line.Quotes) :
    trim line ∈ statements source ∧ ∃ quote ∈ trim line, isQuote quote = true := by
  obtain ⟨start, quote, later, rfl, isOpening, unhashed, -⟩ := quotes
  have marks : isMark quote = true := by rw [isMark, isOpening, Bool.or_true]
  have inside : quote ∈ trim (start ++ quote :: later) :=
    mem_trim (not_isBlank_of_isMark marks) (by simp)
  have head : (trim (start ++ quote :: later)).head? ≠ some '#' := by
    rw [head?_trim, trimLeft_append_mark marks]
    cases trimmed : trimLeft start with
    | nil =>
        rintro ⟨⟩
        exact absurd isOpening (by decide)
    | cons char others =>
        rintro ⟨⟩
        have kept : '#' ∈ trimLeft start := by simp [trimmed]
        exact unhashed ((List.dropWhile_suffix _).subset kept)
  have nonempty : trim (start ++ quote :: later) ≠ [] := List.ne_nil_of_mem inside
  refine ⟨?_, quote, inside, isOpening⟩
  rw [statements, List.mem_filter]
  exact ⟨List.mem_map_of_mem member, by simp [nonempty, head]⟩

/-- A cell with a literal has something worth running. -/
theorem triviality?_eq_none {source : Text}
    (inside : .body ∈ (Glyph.scan source).map Glyph.role) : triviality? source = none := by
  obtain ⟨line, member, quotes⟩ := exists_mem_lines_quotes inside
  obtain ⟨statement, quote, quoted, isOpening⟩ := mem_statements_of_quotes member quotes
  have differs : ∀ word : Text, word.any isQuote = false →
      ((statements source).all fun other => other == word) = false := by
    intro word unquoted
    rw [List.all_eq_false]
    refine ⟨trim line, statement, ?_⟩
    rw [beq_iff_eq]
    rintro rfl
    exact List.any_eq_false.mp unquoted quote quoted isOpening
  have visible : isBlankText source = false := by
    rw [isBlankText_eq_all, List.all_eq_false]
    refine ⟨line, member, fun blank => ?_⟩
    have none : trim line = [] := trim_append_of_isBlankText blank []
    rw [none] at quoted
    cases quoted
  have nonempty : (statements source).isEmpty = false := by
    rw [List.isEmpty_eq_false_iff_exists_mem]
    exact ⟨trim line, statement⟩
  simp only [triviality?, visible, nonempty, differs "pass".toList (by decide),
    differs "...".toList (by decide), Bool.false_eq_true, if_false]

end EmptyCells

/-! ## All rules -/

namespace Text

/-- For each line of a cell whether it begins inside a literal and reads like a directive. -/
def quotedDirectives (source : Text) : List Bool :=
  (sourceLines source).map fun line => line.interior && SourceLine.isDirective line.raw

end Text

private theorem SourceLine.SameCode.directive {left right : SourceLine} (same : left.SameCode right)
    (quoted : (left.interior && isDirective left.raw) = (right.interior && isDirective right.raw)) :
    isDirective left.raw = isDirective right.raw := by
  cases outside : left.interior with
  | false => exact (same.raw outside).isDirective_eq
  | true =>
      rw [← same.interior, outside, Bool.true_and, Bool.true_and] at quoted
      exact quoted

private theorem SourceLine.forall₂_readsAlike {left right : List SourceLine}
    (same : List.Forall₂ SameCode left right)
    (quoted : left.map (fun line => line.interior && isDirective line.raw) =
      right.map fun line => line.interior && isDirective line.raw) :
    List.Forall₂ ReadsAlike left right := by
  induction same with
  | nil => exact .nil
  | cons line lines ih =>
      rw [List.map_cons, List.map_cons, List.cons.injEq] at quoted
      exact .cons ⟨line, line.directive quoted.1⟩ (ih quoted.2)

private theorem Glyph.eq_or_mem_body {glyphs : List Glyph} {text : Text}
    (same : List.Forall₂ GivesWay glyphs text) :
    glyphs.map char = text ∨ .body ∈ glyphs.map role := by
  induction same with
  | nil => exact .inl rfl
  | @cons glyph char glyphs text here later ih =>
      rcases here with equal | ⟨inside, -⟩
      · rcases ih with rest | inside
        · exact .inl (by rw [List.map_cons, equal, rest])
        · exact .inr (List.mem_cons_of_mem _ inside)
      · exact .inr (by simp [inside])

namespace Text.Requoted

variable {left right : Text}

private theorem triviality?_eq (same : left.Requoted right) (unformatted : left.Unformatted) :
    EmptyCells.triviality? left = EmptyCells.triviality? right := by
  rcases Glyph.eq_or_mem_body same with equal | inside
  · rw [Glyph.map_char_scan] at equal
    rw [equal]
  · have roles : (Glyph.scan left).map Glyph.role = (Glyph.scan right).map Glyph.role :=
      map_eq_of_forall₂ (same.glyphs unformatted) fun _ _ glyph => glyph.role
    rw [EmptyCells.triviality?_eq_none inside,
      EmptyCells.triviality?_eq_none (by rwa [← roles])]

private theorem readsAlike (same : left.Requoted right) (unformatted : left.Unformatted)
    {rule : BuiltinRule}
    (directives : rule.skipsDirectives = true → left.quotedDirectives = right.quotedDirectives) :
    rule.ReadsAlike left right where
  code := same.sameCode unformatted
  lines := fun skips => SourceLine.forall₂_readsAlike (same.sameCode unformatted) (directives skips)
  magic := same.sameUpToMark.isCellMagic_eq
  triviality := same.triviality?_eq unformatted
  brackets := fun _ => by
    rw [UnclosedBrackets.findings, UnclosedBrackets.findings, UnclosedBrackets.brackets,
      UnclosedBrackets.brackets, same.hideLiterals_eq unformatted]

end Text.Requoted

/-- What is written inside literals does not influence analysis, up to directives. Where no literal is
formatted, two cells that differ in plain characters inside literals only are checked to the same
reports and define the same names. Rules that leave out directives need the cells to agree in the
lines that begin inside a literal and read like a directive. -/
theorem BuiltinRule.check_definedNames_of_requoted {left right : Text}
    (unformatted : left.Unformatted) (requoted : left.Requoted right) (rule : BuiltinRule)
    (directives : rule.skipsDirectives = true → left.quotedDirectives = right.quotedDirectives)
    (memory : Nat) (offset : Int) (context : List Text) :
    (rule.toRule memory).check left offset context =
        (rule.toRule memory).check right offset context ∧
      (rule.toRule memory).definedNames left = (rule.toRule memory).definedNames right := by
  have same := requoted.readsAlike unformatted directives
  exact ⟨same.check_eq offset context, same.definedNames_eq⟩

/-- A literal that spans lines, one of which reads like a shell command before and after its words are
replaced by brackets and a hash sign: the import after it is reported as before. -/
theorem BuiltinRule.check_definedNames_of_requoted_shell :
    let left : Text := "x = \"\"\"to\n  !run it\"\"\" + 'b c'\nimport os".toList
    let right : Text := "x = \"\"\"(#\n  ![)# ((\"\"\" + 'def'\nimport os".toList
    let memory := 1 <<< 37
    left.Unformatted ∧ left.Requoted right ∧ left.quotedDirectives = [false, true, false] ∧
      ((BuiltinRule.importIssues true).findings left []).map Finding.line = [3, 3] ∧
      ((BuiltinRule.importIssues true).toRule memory).check left 7 [] =
        ((BuiltinRule.importIssues true).toRule memory).check right 7 [] ∧
      ((BuiltinRule.undefinedVariables true).toRule memory).definedNames left =
        ((BuiltinRule.undefinedVariables true).toRule memory).definedNames right := by
  intro left right memory
  have unformatted : left.Unformatted := by decide +kernel
  have requoted : left.Requoted right := by decide +kernel
  have directives : left.quotedDirectives = right.quotedDirectives := by decide +kernel
  have same := fun rule => BuiltinRule.check_definedNames_of_requoted unformatted requoted rule
    (fun _ => directives) memory 7 []
  exact ⟨unformatted, requoted, by decide +kernel, by decide +kernel, (same (.importIssues true)).1,
    (same (.undefinedVariables true)).2⟩

/-- A line inside a literal that reads like a shell command is left out with the bracket it closes,
and the assignment and the functions after it are lost. -/
theorem BuiltinRule.check_definedNames_ne_of_requoted :
    let left : Text := "x = (\"\"\"\n!\"\"\")\ny = 1\ndef f(): y\ndef f(): 0".toList
    let right : Text := "x = (\"\"\"\n.\"\"\")\ny = 1\ndef f(): y\ndef f(): 0".toList
    let memory := 1 <<< 37
    left.Unformatted ∧ right.Unformatted ∧ left.Requoted right ∧
      (BuiltinRule.duplicateFunctions.toRule memory).check left 0 [] ≠
        (BuiltinRule.duplicateFunctions.toRule memory).check right 0 [] ∧
      "y".toList ∉ (BuiltinRule.undefinedVariables true).definedNames left ∧
      "y".toList ∈ (BuiltinRule.undefinedVariables true).definedNames right := by
  decide +kernel

end NotebookLint
