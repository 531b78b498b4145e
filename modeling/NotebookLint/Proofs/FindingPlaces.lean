import NotebookLint.Proofs.ScanModes
import NotebookLint.Proofs.Words
import NotebookLint.Rules.Builtin

/-! Where the built-in rules place their findings. Every finding lies on a line of its cell, and a
finding with a column points at the identifier or the bracket that it names, as these stand in the
raw text. -/

set_option autoImplicit false

namespace NotebookLint

/-- A word that is shown goes no further in the raw text than in the text that is shown. -/
private theorem Glyph.ended_of_shown {word after : List Glyph}
    (seams : (word ++ after).IsChain Seamless) (nonempty : word ≠ [])
    (letters : ∀ glyph ∈ word, isWordChar glyph.char = true)
    (kept : ∀ glyph ∈ word, glyph.role.isKept = true)
    (ended : ∀ char ∈ (after.map shown).head?, isWordChar char = false) :
    ∀ next ∈ (after.map char).head?, isWordChar next = false := by
  intro first isNext
  cases after with
  | nil => simp at isNext
  | cons next further =>
      obtain rfl : next.char = first := by simpa using isNext
      cases nextWord : isWordChar next.char with
      | false => rfl
      | true =>
          -- The last glyph of the word is shown, so the next one would be shown too.
          obtain rfl | ⟨initial, last, rfl⟩ := List.eq_nil_or_concat word
          · exact absurd rfl nonempty
          have linked : Seamless last next := by
            rw [List.isChain_append] at seams
            exact seams.2.2 last (by simp) next (by simp)
          have nextKept := linked (letters last (by simp)) (kept last (by simp)) nextWord
          have isOther := ended next.shown (by simp)
          rw [shown_of_isKept nextKept, nextWord] at isOther
          cases isOther

namespace Text

/-- A word that is shown stands at the same place in the raw line, and ends there too. -/
theorem name?_raw_of_mem_names {source : Text} {line : SourceLine}
    (inCell : line ∈ sourceLines source) {word : Word} (member : word ∈ names line.clean) :
    (name? (line.raw.drop word.start)).map Prod.fst = some word.text := by
  obtain ⟨piece, inside, raw, clean⟩ := exists_glyphs_of_mem_sourceLines inCell
  obtain ⟨isWord, isName⟩ := List.mem_filter.mp member
  obtain ⟨nonempty, letters, before, after, split, start, ended⟩ := standsIn_of_mem_words isWord
  have seams : piece.IsChain Glyph.Seamless := by
    obtain ⟨above, below, whole⟩ := inside
    have chain := Glyph.isChain_scan source
    rw [← whole, List.append_assoc] at chain
    exact chain.right_of_append.left_of_append
  rw [clean] at split
  obtain ⟨front, shownAfter, glyphs, frontShown, afterShown⟩ := List.map_eq_append_iff.mp split
  obtain ⟨shownBefore, shownWord, rfl, beforeShown, wordShown⟩ :=
    List.map_eq_append_iff.mp frontShown
  have keptWord : ∀ glyph ∈ shownWord, glyph.role.isKept = true := by
    intro glyph inWord
    apply Glyph.isKept_of_shown_isWordChar
    exact letters _ (wordShown ▸ List.mem_map_of_mem inWord)
  have rawWord : shownWord.map Glyph.char = word.text := by
    rw [← wordShown]
    exact List.map_congr_left fun glyph inWord =>
      (Glyph.shown_of_isKept (keptWord glyph inWord)).symm
  have rawEnded : ∀ char ∈ (shownAfter.map Glyph.char).head?, isWordChar char = false := by
    rw [glyphs, List.append_assoc] at seams
    refine Glyph.ended_of_shown seams.right_of_append ?_ ?_ keptWord (afterShown ▸ ended)
    · rintro rfl
      exact nonempty wordShown.symm
    · intro glyph inWord
      exact letters _ (rawWord ▸ List.mem_map_of_mem inWord)
  have dropped : line.raw.drop word.start = word.text ++ shownAfter.map Glyph.char := by
    have length : (shownBefore.map Glyph.char).length = word.start := by
      simpa [← start] using congrArg List.length beforeShown
    rw [raw, glyphs, List.map_append, List.map_append, rawWord, List.append_assoc, ← length,
      List.drop_left]
  rw [dropped, name?_append isName letters rawEnded, Option.map_some]

theorem map_toSourceLine_ofLines_sublist (depth : Nat) (lines : List SourceLine) :
    ((CodeLine.ofLines depth lines).map CodeLine.toSourceLine).Sublist lines := by
  induction lines generalizing depth with
  | nil => exact .slnil
  | cons line rest ih =>
      simp only [CodeLine.ofLines]
      split
      · exact (ih _).cons _
      · exact (ih _).cons_cons _

/-- Code lines are source lines. -/
theorem toSourceLine_mem_of_mem_codeLines {source : Text} {line : CodeLine}
    (member : line ∈ codeLines source) : line.toSourceLine ∈ sourceLines source :=
  (map_toSourceLine_ofLines_sublist 0 _).subset (List.mem_map_of_mem member)

theorem mem_codeLines_of_mem_statementLines {source : Text} {line : CodeLine}
    (member : line ∈ statementLines source) : line ∈ codeLines source :=
  (List.mem_filter.mp (List.mem_filter.mp member).1).1

end Text

namespace Problem

/-- What a problem names as offending: an identifier or a bracket. -/
def offender? : Problem → Option Text
  | .undefinedName name | .misspelledName name _ => some name
  | .unmatchedCloser bracket | .mismatchedCloser _ bracket | .unclosedOpener bracket _ =>
      some [bracket]
  | _ => none

end Problem

namespace Finding

/-- Whether a finding lies on a line of a cell. -/
def LiesIn (source : Text) (finding : Finding) : Prop :=
  1 ≤ finding.line ∧ finding.line ≤ Text.lineCount source

/-- Whether a finding points at the identifier that it names. -/
def OnIdentifier (source : Text) (finding : Finding) : Prop :=
  ∃ name line start, finding.problem.offender? = some name ∧
    (Text.lines source)[finding.line - 1]? = some line ∧ finding.column = some (start + 1) ∧
    (Text.name? (line.drop start)).map Prod.fst = some name

/-- Whether a finding points at the bracket that it names. -/
def OnBracket (source : Text) (finding : Finding) : Prop :=
  ∃ bracket line start, finding.problem.offender? = some [bracket] ∧
    (Text.lines source)[finding.line - 1]? = some line ∧ finding.column = some (start + 1) ∧
    (line.drop start).head? = some bracket

theorem liesIn_of_mem_sourceLines {source : Text} {line : SourceLine}
    (inCell : line ∈ Text.sourceLines source) {finding : Finding}
    (placed : finding.line = line.number) : finding.LiesIn source := by
  obtain ⟨positive, bounded, _⟩ := Text.getElem?_of_mem_sourceLines inCell
  exact ⟨placed ▸ positive, placed ▸ bounded⟩

/-- A word of a source line as the column of a finding. -/
theorem onIdentifier_of_mem_names {source : Text} {line : SourceLine}
    (inCell : line ∈ Text.sourceLines source) {word : Word}
    (member : word ∈ Text.names line.clean) {finding : Finding}
    (named : finding.problem.offender? = some word.text) (placed : finding.line = line.number)
    (column : finding.column = some (word.start + 1)) : finding.OnIdentifier source := by
  obtain ⟨_, _, found⟩ := Text.getElem?_of_mem_sourceLines inCell
  exact ⟨word.text, line.raw, word.start, named, placed ▸ found, column,
    Text.name?_raw_of_mem_names inCell member⟩

end Finding

namespace UndefinedVariables

theorem mem_of_mem_firstPerLine {reported : List (Text × Nat)} {usages : List Names.Usage}
    {usage : Names.Usage} (member : usage ∈ firstPerLine reported usages) : usage ∈ usages := by
  induction usages generalizing reported with
  | nil => simp [firstPerLine] at member
  | cons head rest ih =>
      simp only [firstPerLine] at member
      split at member
      · exact List.mem_cons_of_mem _ (ih member)
      · rcases List.mem_cons.mp member with rfl | later
        · exact List.mem_cons_self
        · exact List.mem_cons_of_mem _ (ih later)

theorem exists_line_of_mem_usagesOf {inImport : Bool} {lines : List CodeLine}
    {usage : Names.Usage} (member : usage ∈ Names.usagesOf inImport lines) :
    ∃ line ∈ lines, usage ∈ Names.lineUsages line := by
  induction lines generalizing inImport with
  | nil => simp [Names.usagesOf] at member
  | cons head rest ih =>
      simp only [Names.usagesOf] at member
      split at member
      · obtain ⟨line, later, found⟩ := ih member
        exact ⟨line, List.mem_cons_of_mem _ later, found⟩
      · rcases List.mem_append.mp member with here | later
        · exact ⟨head, List.mem_cons_self, here⟩
        · obtain ⟨line, inRest, found⟩ := ih later
          exact ⟨line, List.mem_cons_of_mem _ inRest, found⟩

theorem places {allowCommonAliases : Bool} {source : Text} {context : List Text}
    {finding : Finding} (member : finding ∈ findings allowCommonAliases source context) :
    finding.LiesIn source ∧ finding.OnIdentifier source := by
  simp only [findings] at member
  split at member
  · simp at member
  · obtain ⟨usage, kept, rfl⟩ := List.mem_map.mp member
    have used := (List.mem_filter.mp (mem_of_mem_firstPerLine kept)).1
    obtain ⟨line, inCode, onLine⟩ := exists_line_of_mem_usagesOf used
    have inCell := Text.toSourceLine_mem_of_mem_codeLines inCode
    obtain ⟨word, isName, rfl⟩ := List.mem_map.mp onLine
    exact ⟨Finding.liesIn_of_mem_sourceLines inCell rfl,
      Finding.onIdentifier_of_mem_names inCell (List.mem_filter.mp isName).1 rfl rfl rfl⟩

end UndefinedVariables

namespace CapitalizationTypos

theorem places {source : Text} {context : List Text} {finding : Finding}
    (member : finding ∈ findings source context) :
    finding.LiesIn source ∧ finding.OnIdentifier source := by
  obtain ⟨line, inCell, onLine⟩ := List.mem_flatMap.mp member
  simp only [lineFindings] at onLine
  split at onLine
  · simp at onLine
  · obtain ⟨word, isName, made⟩ := List.mem_filterMap.mp onLine
    split at made
    · cases made
    · obtain ⟨correct, _, rfl⟩ := Option.map_eq_some_iff.mp made
      exact ⟨Finding.liesIn_of_mem_sourceLines inCell rfl,
        Finding.onIdentifier_of_mem_names inCell isName rfl rfl rfl⟩

end CapitalizationTypos

namespace Definition

theorem line_of_ofLine? {number : Nat} {line : Text} {definition : Definition}
    (defined : ofLine? number line = some definition) : definition.line = number := by
  unfold ofLine? at defined
  split at defined
  · cases defined
    rfl
  · obtain ⟨name, _, rfl⟩ := Option.map_eq_some_iff.mp defined
    rfl

theorem exists_line_of_mem_scopedFrom {frames : List Frame} {decorators : List Text}
    {lines : List CodeLine} {entry : ScopedDefinition}
    (member : entry ∈ scopedFrom frames decorators lines) :
    ∃ line ∈ lines, entry.definition.line = line.number := by
  induction lines generalizing frames decorators with
  | nil => simp [scopedFrom] at member
  | cons head rest ih =>
      have later : ∀ {frames decorators}, entry ∈ scopedFrom frames decorators rest →
          ∃ line ∈ head :: rest, entry.definition.line = line.number := by
        intro frames decorators inRest
        obtain ⟨line, found, placed⟩ := ih inRest
        exact ⟨line, List.mem_cons_of_mem _ found, placed⟩
      simp only [scopedFrom] at member
      split at member
      · exact later member
      · split at member
        · rename_i definition defined
          rcases List.mem_append.mp member with here | inRest
          · split at here
            · simp at here
            · rw [List.mem_singleton] at here
              subst here
              exact ⟨head, List.mem_cons_self, line_of_ofLine? defined⟩
          · exact later inRest
        · exact later member

end Definition

namespace DuplicateFunctions

theorem exists_definition_of_mem_repeated {earlier current : List ScopedDefinition}
    {finding : Finding} (member : finding ∈ repeated earlier current) :
    finding.column = none ∧ ∃ entry ∈ current, finding.line = entry.definition.line := by
  induction current generalizing earlier with
  | nil => simp [repeated] at member
  | cons head rest ih =>
      simp only [repeated] at member
      rcases List.mem_append.mp member with here | later
      · split at here
        · rw [List.mem_singleton] at here
          subst here
          exact ⟨rfl, head, List.mem_cons_self, rfl⟩
        · simp at here
      · obtain ⟨bare, entry, inRest, placed⟩ := ih later
        exact ⟨bare, entry, List.mem_cons_of_mem _ inRest, placed⟩

theorem places {source : Text} {finding : Finding} (member : finding ∈ findings source) :
    finding.LiesIn source ∧ finding.column = none := by
  obtain ⟨bare, entry, defined, placed⟩ := exists_definition_of_mem_repeated member
  obtain ⟨line, isStatement, numbered⟩ := Definition.exists_line_of_mem_scopedFrom defined
  have inCell := Text.toSourceLine_mem_of_mem_codeLines
    (Text.mem_codeLines_of_mem_statementLines isStatement)
  exact ⟨Finding.liesIn_of_mem_sourceLines inCell (placed.trans numbered), bare⟩

end DuplicateFunctions

namespace EmptyCells

theorem places {source : Text} {finding : Finding} (member : finding ∈ findings source) :
    finding.LiesIn source ∧ finding.column = none := by
  obtain ⟨reason, _, rfl⟩ := List.mem_map.mp member
  exact ⟨⟨Nat.le_refl 1, by simp [Text.lineCount]⟩, rfl⟩

end EmptyCells

namespace ImportIssues

theorem line_of_mem_lineBindings {line : SourceLine} {following : List Text}
    {binding : ImportBinding} (member : binding ∈ Import.lineBindings line following) :
    binding.line = line.number := by
  unfold Import.lineBindings at member
  split at member
  · obtain ⟨listed, _, made⟩ := List.mem_filterMap.mp member
    split at made
    · cases made
      rfl
    · obtain ⟨name, _, rfl⟩ := Option.map_eq_some_iff.mp made
      rfl
  · split at member
    · obtain ⟨listed, _, made⟩ := List.mem_filterMap.mp member
      obtain ⟨named, _, rfl⟩ := Option.map_eq_some_iff.mp made
      rfl
    · simp at member

theorem exists_line_of_mem_bindingsOf {lines : List SourceLine} {binding : ImportBinding}
    (member : binding ∈ Import.bindingsOf lines) : ∃ line ∈ lines, binding.line = line.number := by
  induction lines with
  | nil => simp [Import.bindingsOf] at member
  | cons head rest ih =>
      simp only [Import.bindingsOf] at member
      rcases List.mem_append.mp member with here | later
      · split at here
        · simp at here
        · exact ⟨head, List.mem_cons_self, line_of_mem_lineBindings here⟩
      · obtain ⟨line, inRest, placed⟩ := ih later
        exact ⟨line, List.mem_cons_of_mem _ inRest, placed⟩

theorem liesIn_of_mem_importBindings {source : Text} {binding : ImportBinding}
    (member : binding ∈ Text.importBindings source) {finding : Finding}
    (placed : finding.line = binding.line) : finding.LiesIn source := by
  obtain ⟨line, inCell, numbered⟩ := exists_line_of_mem_bindingsOf member
  exact Finding.liesIn_of_mem_sourceLines inCell (placed.trans numbered)

theorem exists_line_of_mem_topLevelFrom {continued : Bool} {lines : List CodeLine}
    {statement : TopLevelStatement} (member : statement ∈ topLevelFrom continued lines) :
    ∃ line ∈ lines, statement.line = line.number := by
  induction lines generalizing continued with
  | nil => simp [topLevelFrom] at member
  | cons head rest ih =>
      simp only [topLevelFrom] at member
      rcases List.mem_append.mp member with here | later
      · split at here
        · simp at here
        · rw [List.mem_singleton] at here
          subst here
          exact ⟨head, List.mem_cons_self, rfl⟩
      · obtain ⟨line, inRest, placed⟩ := ih later
        exact ⟨line, List.mem_cons_of_mem _ inRest, placed⟩

theorem places_of_mem_misplaced {source : Text} {finding : Finding}
    (member : finding ∈ misplaced source) : finding.LiesIn source ∧ finding.column = none := by
  obtain ⟨statement, late, rfl⟩ := List.mem_map.mp member
  have topLevel := (List.dropWhile_suffix _).subset (List.mem_filter.mp late).1
  obtain ⟨line, inCode, placed⟩ := exists_line_of_mem_topLevelFrom topLevel
  exact ⟨Finding.liesIn_of_mem_sourceLines (Text.toSourceLine_mem_of_mem_codeLines inCode) placed,
    rfl⟩

theorem exists_binding_of_mem_questionable {seen bindings : List ImportBinding}
    {finding : Finding} (member : finding ∈ questionable seen bindings) :
    finding.column = none ∧ ∃ binding ∈ bindings, finding.line = binding.line := by
  induction bindings generalizing seen with
  | nil => simp [questionable] at member
  | cons head rest ih =>
      have later : ∀ {seen}, finding ∈ questionable seen rest →
          finding.column = none ∧ ∃ binding ∈ head :: rest, finding.line = binding.line := by
        intro seen inRest
        obtain ⟨bare, binding, found, placed⟩ := ih inRest
        exact ⟨bare, binding, List.mem_cons_of_mem _ found, placed⟩
      simp only [questionable] at member
      split at member
      · rcases List.mem_cons.mp member with rfl | inRest
        · exact ⟨rfl, head, List.mem_cons_self, rfl⟩
        · exact later inRest
      · split at member
        · rcases List.mem_cons.mp member with rfl | inRest
          · exact ⟨rfl, head, List.mem_cons_self, rfl⟩
          · exact later inRest
        · exact later member

theorem mem_of_mem_firstBindings {seen bindings : List ImportBinding} {binding : ImportBinding}
    (member : binding ∈ firstBindings seen bindings) : binding ∈ seen ∨ binding ∈ bindings := by
  induction bindings generalizing seen with
  | nil => exact .inl (by simpa [firstBindings] using member)
  | cons head rest ih =>
      simp only [firstBindings] at member
      split at member
      · exact (ih member).imp_right (List.mem_cons_of_mem _)
      · rcases ih member with inSeen | inRest
        · rcases List.mem_cons.mp inSeen with rfl | earlier
          · exact .inr List.mem_cons_self
          · exact .inl earlier
        · exact .inr (List.mem_cons_of_mem _ inRest)

theorem places {reportUnused : Bool} {source : Text} {finding : Finding}
    (member : finding ∈ findings reportUnused source) :
    finding.LiesIn source ∧ finding.column = none := by
  simp only [findings, List.mem_append] at member
  rcases member with (late | doubtful) | unneeded
  · exact places_of_mem_misplaced late
  · obtain ⟨bare, binding, bound, placed⟩ := exists_binding_of_mem_questionable doubtful
    exact ⟨liesIn_of_mem_importBindings bound placed, bare⟩
  · split at unneeded
    · obtain ⟨binding, kept, rfl⟩ := List.mem_map.mp unneeded
      have bound := mem_of_mem_firstBindings (List.mem_filter.mp kept).1
      simp only [List.not_mem_nil, false_or] at bound
      exact ⟨liesIn_of_mem_importBindings bound rfl, rfl⟩
    · simp at unneeded

end ImportIssues

namespace IndentationErrors

theorem exists_line_of_mem_findingsFrom {tabWidth : Nat} {dominant : Option IndentStyle}
    {state : State} {lines : List SourceLine} {finding : Finding}
    (member : finding ∈ findingsFrom tabWidth dominant state lines) :
    finding.column = none ∧ ∃ line ∈ lines, finding.line = line.number := by
  induction lines generalizing state with
  | nil => simp [findingsFrom] at member
  | cons head rest ih =>
      simp only [findingsFrom] at member
      rcases List.mem_append.mp member with here | later
      · obtain ⟨problem, _, rfl⟩ := List.mem_map.mp here
        exact ⟨rfl, head, List.mem_cons_self, rfl⟩
      · obtain ⟨bare, line, inRest, placed⟩ := ih later
        exact ⟨bare, line, List.mem_cons_of_mem _ inRest, placed⟩

theorem places {tabWidth : Nat} {source : Text} {finding : Finding}
    (member : finding ∈ findings tabWidth source) :
    finding.LiesIn source ∧ finding.column = none := by
  obtain ⟨bare, line, inCell, placed⟩ := exists_line_of_mem_findingsFrom member
  exact ⟨Finding.liesIn_of_mem_sourceLines inCell placed, bare⟩

end IndentationErrors

namespace MissingReturn

theorem line_of_mem_functionsFrom {number : Nat} {decorators lines : List Text}
    {function : Function} (member : function ∈ functionsFrom number decorators lines) :
    number ≤ function.line ∧ function.line < number + lines.length := by
  induction lines generalizing number decorators with
  | nil => simp [functionsFrom] at member
  | cons head rest ih =>
      have later : ∀ {decorators}, function ∈ functionsFrom (number + 1) decorators rest →
          number ≤ function.line ∧ function.line < number + (head :: rest).length := by
        intro decorators inRest
        obtain ⟨lower, upper⟩ := ih inRest
        simp only [List.length_cons]
        omega
      simp only [functionsFrom] at member
      split at member
      · exact later member
      · split at member
        · rcases List.mem_cons.mp member with rfl | inRest
          · simp
          · exact later inRest
        · exact later member

theorem places {source : Text} {finding : Finding} (member : finding ∈ findings source) :
    finding.LiesIn source ∧ finding.column = none := by
  obtain ⟨function, kept, rfl⟩ := List.mem_map.mp member
  obtain ⟨lower, upper⟩ := line_of_mem_functionsFrom (List.mem_filter.mp kept).1
  have length : (Text.lines (Text.blanked source)).length = Text.lineCount source := by
    rw [← Text.map_clean_sourceLines, List.length_map, Text.length_sourceLines]
  exact ⟨⟨lower, by simp only; omega⟩, rfl⟩

end MissingReturn

namespace RedefinedVariables

theorem exists_line_of_mem_findingsFrom {assignments : List Assigned} {lines : List CodeLine}
    {finding : Finding} (member : finding ∈ findingsFrom assignments lines) :
    finding.column = none ∧ ∃ line ∈ lines, finding.line = line.number := by
  induction lines generalizing assignments with
  | nil => simp [findingsFrom] at member
  | cons head rest ih =>
      simp only [findingsFrom] at member
      rcases List.mem_append.mp member with here | later
      · obtain ⟨problem, _, rfl⟩ := List.mem_map.mp here
        exact ⟨rfl, head, List.mem_cons_self, rfl⟩
      · obtain ⟨bare, line, inRest, placed⟩ := ih later
        exact ⟨bare, line, List.mem_cons_of_mem _ inRest, placed⟩

theorem places {source : Text} {finding : Finding} (member : finding ∈ findings source) :
    finding.LiesIn source ∧ finding.column = none := by
  obtain ⟨bare, line, isStatement, placed⟩ := exists_line_of_mem_findingsFrom member
  have inCell := Text.toSourceLine_mem_of_mem_codeLines
    (Text.mem_codeLines_of_mem_statementLines isStatement)
  exact ⟨Finding.liesIn_of_mem_sourceLines inCell placed, bare⟩

end RedefinedVariables

namespace UnclosedBrackets

/-- How hiding may change a character: not at all, or into a space if it is no line break. -/
def Hides (raw shown : Char) : Prop :=
  shown = raw ∨ (shown = ' ' ∧ raw ≠ '\n')

theorem hides_hidden (char : Char) : Hides char (hidden char) := by
  unfold hidden
  split
  · rename_i isBreak
    exact .inl (eq_of_beq isBreak).symm
  · rename_i noBreak
    exact .inr ⟨rfl, by simpa using noBreak⟩

theorem break_iff_of_hides (raw shown : Char) (hides : Hides raw shown) :
    raw = '\n' ↔ shown = '\n' := by
  rcases hides with rfl | ⟨rfl, noBreak⟩
  · exact Iff.rfl
  · exact iff_of_false noBreak (by decide)

/-- Hiding literals and comments leaves the other characters and all line breaks in place. -/
theorem forall₂_hideFrom (region : Region) (text : Text) :
    List.Forall₂ Hides text (hideFrom region text) := by
  induction text generalizing region with
  | nil => cases region <;> exact .nil
  | cons char rest ih =>
      match region with
      | .code =>
          refine .cons ?_ (ih _)
          split
          · rename_i quoted
            refine .inr ⟨rfl, ?_⟩
            rintro rfl
            exact absurd quoted (by decide)
          · exact .inl rfl
      | .comment => exact .cons (hides_hidden char) (ih _)
      | .literal quote long => exact .cons (hides_hidden char) (ih _)
      | .skip 0 next => exact .cons (hides_hidden char) (ih _)
      | .skip (more + 1) next => exact .cons (hides_hidden char) (ih _)

/-- A bracket of a text stands on the line and in the column that it is listed with; `started` is
the beginning of the first line. -/
theorem place_of_mem_bracketsFrom {number : Nat} {started text : Text}
    (unbroken : '\n' ∉ started) {bracket : Bracket}
    (member : bracket ∈ bracketsFrom number (started.length + 1) text) :
    (isOpener bracket.char || isCloser bracket.char) = true ∧ number ≤ bracket.line ∧
      ∃ line start, (Text.lines (started ++ text))[bracket.line - number]? = some line ∧
        bracket.column = start + 1 ∧ (line.drop start).head? = some bracket.char := by
  induction text generalizing number started with
  | nil => simp [bracketsFrom] at member
  | cons char rest ih =>
      by_cases isBreak : char = '\n'
      · subst isBreak
        have later : bracket ∈ bracketsFrom (number + 1) (([] : Text).length + 1) rest := by
          simpa [bracketsFrom] using member
        obtain ⟨isBracket, lower, line, start, found, column, here⟩ := ih (by simp) later
        refine ⟨isBracket, by omega, line, start, ?_, column, here⟩
        obtain ⟨row, position⟩ : ∃ row, bracket.line - number = row + 1 :=
          ⟨bracket.line - (number + 1), by omega⟩
        have shorter : bracket.line - (number + 1) = row := by omega
        rw [shorter] at found
        rw [Text.lines_append_break, Text.lines_of_not_mem unbroken, position]
        simpa using found
      · have grown : '\n' ∉ started ++ [char] := by simp [unbroken, Ne.symm isBreak]
        have inRest : bracket ∈ bracketsFrom number (started.length + 1 + 1) rest →
            (isOpener bracket.char || isCloser bracket.char) = true ∧ number ≤ bracket.line ∧
              ∃ line start,
                (Text.lines (started ++ char :: rest))[bracket.line - number]? = some line ∧
                bracket.column = start + 1 ∧ (line.drop start).head? = some bracket.char := by
          intro later
          have listed : bracket ∈ bracketsFrom number ((started ++ [char]).length + 1) rest := by
            simpa using later
          simpa using ih grown listed
        simp only [bracketsFrom, beq_iff_eq, isBreak, if_false] at member
        split at member
        · rename_i isBracket
          rcases List.mem_cons.mp member with rfl | later
          · obtain ⟨line, others, split⟩ := List.exists_cons_of_ne_nil (Text.lines_ne_nil rest)
            refine ⟨isBracket, Nat.le_refl _, started ++ char :: line, started.length, ?_, rfl, ?_⟩
            · rw [Text.lines_append_of_not_mem unbroken, Text.lines_cons_of_ne isBreak, split]
              simp
            · simp
          · exact inRest later
        · exact inRest member

/-- Every finding is about one bracket, at its place. -/
theorem exists_bracket_of_mem_matchFrom {unclosed brackets : List Bracket} {finding : Finding}
    (member : finding ∈ matchFrom unclosed brackets) :
    ∃ bracket ∈ unclosed ++ brackets, finding.line = bracket.line ∧
      finding.column = some bracket.column ∧
      finding.problem.offender? = some [bracket.char] := by
  induction brackets generalizing unclosed with
  | nil =>
      obtain ⟨opener, inside, rfl⟩ := List.mem_map.mp member
      exact ⟨opener, by simpa using inside, rfl, rfl, rfl⟩
  | cons bracket rest ih =>
      have later : ∀ {open'}, open' ⊆ unclosed ++ [bracket] → finding ∈ matchFrom open' rest →
          ∃ bracket' ∈ unclosed ++ bracket :: rest, finding.line = bracket'.line ∧
            finding.column = some bracket'.column ∧
            finding.problem.offender? = some [bracket'.char] := by
        intro open' known inRest
        obtain ⟨found, inside, placed⟩ := ih inRest
        refine ⟨found, ?_, placed⟩
        rcases List.mem_append.mp inside with isOpen | further
        · have earlier := known isOpen
          simp only [List.mem_append, List.mem_singleton] at earlier
          rcases earlier with old | rfl
          · exact List.mem_append_left _ old
          · simp
        · simp [further]
      simp only [matchFrom] at member
      split at member
      · exact later (by simp) member
      · split at member
        · rcases List.mem_cons.mp member with rfl | inRest
          · exact ⟨bracket, by simp, rfl, rfl, rfl⟩
          · exact later (by simp) inRest
        · rename_i opener outer _
          split at member
          · exact later (by simp) member
          · rcases List.mem_cons.mp member with rfl | inRest
            · exact ⟨bracket, by simp, rfl, rfl, rfl⟩
            · exact later (by simp) inRest

theorem places {source : Text} {finding : Finding} (member : finding ∈ findings source) :
    finding.LiesIn source ∧ finding.OnBracket source := by
  obtain ⟨bracket, listed, placed, column, named⟩ := exists_bracket_of_mem_matchFrom member
  have inHidden : bracket ∈ bracketsFrom 1 (([] : Text).length + 1) (hideLiterals source) := by
    simpa [brackets] using listed
  obtain ⟨isBracket, positive, shownLine, start, found, atColumn, shown⟩ :=
    place_of_mem_bracketsFrom (by simp) inHidden
  have related : List.Forall₂ (List.Forall₂ Hides) (Text.lines source)
      (Text.lines (hideLiterals source)) :=
    Text.forall₂_lines break_iff_of_hides (forall₂_hideFrom .code source)
  rw [List.nil_append] at found
  obtain ⟨inside, shownEq⟩ := List.getElem?_eq_some_iff.mp found
  have rawInside : bracket.line - 1 < (Text.lines source).length := by
    rw [related.length_eq]
    exact inside
  obtain ⟨line, rawFound⟩ : ∃ line, (Text.lines source)[bracket.line - 1]? = some line :=
    ⟨_, List.getElem?_eq_getElem rawInside⟩
  have sameLine : List.Forall₂ Hides line shownLine := by
    have pairs := (List.forall₂_iff_get.mp related).2 (bracket.line - 1) rawInside inside
    have rawEq := (List.getElem?_eq_some_iff.mp rawFound).2
    simpa [List.get_eq_getElem, rawEq, shownEq] using pairs
  refine ⟨⟨placed ▸ positive, ?_⟩, bracket.char, line, start, named, placed ▸ rawFound,
    column.trans (congrArg some atColumn), ?_⟩
  · rw [placed, ← Text.length_lines]
    omega
  · have dropped := List.forall₂_drop start sameLine
    generalize line.drop start = rawRest at dropped ⊢
    generalize shownLine.drop start = shownRest at dropped shown
    cases dropped with
    | nil => simp at shown
    | cons head _ =>
        obtain rfl : _ = bracket.char := by simpa using shown
        rcases head with same | ⟨space, _⟩
        · simp [same]
        · rw [space] at isBracket
          exact absurd isBracket (by decide)

end UnclosedBrackets

namespace BuiltinRule

/-- Every finding of a built-in rule lies in its cell. Findings about identifiers and about brackets
point at these, and no other finding has a column. -/
theorem places {rule : BuiltinRule} {source : Text} {context : List Text} {finding : Finding}
    (member : finding ∈ rule.findings source context) :
    finding.LiesIn source ∧
      ((rule.name = "undefined_variables" ∨ rule.name = "capitalization_typos") ∧
          finding.OnIdentifier source ∨
        rule.name = "unclosed_brackets" ∧ finding.OnBracket source ∨ finding.column = none) := by
  cases rule with
  | undefinedVariables _ =>
      exact (UndefinedVariables.places member).imp_right fun placed => .inl ⟨.inl rfl, placed⟩
  | capitalizationTypos =>
      exact (CapitalizationTypos.places member).imp_right fun placed => .inl ⟨.inr rfl, placed⟩
  | duplicateFunctions =>
      exact (DuplicateFunctions.places member).imp_right fun bare => .inr (.inr bare)
  | emptyCells => exact (EmptyCells.places member).imp_right fun bare => .inr (.inr bare)
  | importIssues _ => exact (ImportIssues.places member).imp_right fun bare => .inr (.inr bare)
  | indentationErrors _ =>
      exact (IndentationErrors.places member).imp_right fun bare => .inr (.inr bare)
  | missingReturn => exact (MissingReturn.places member).imp_right fun bare => .inr (.inr bare)
  | redefinedVariables =>
      exact (RedefinedVariables.places member).imp_right fun bare => .inr (.inr bare)
  | unclosedBrackets =>
      exact (UnclosedBrackets.places member).imp_right fun placed => .inr (.inl ⟨rfl, placed⟩)

end BuiltinRule

end NotebookLint
