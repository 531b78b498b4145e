import NotebookLint.Names.Usage
import NotebookLint.Proofs.Scan
import NotebookLint.Proofs.Spacing
import NotebookLint.Proofs.Words

/-! What lines with the same code have in common. Their raw texts agree in all that is read before a
comment or a literal, and their blanked texts have the same normal form, the same words at the same
places and, unless they are blank, the same indent. -/

set_option autoImplicit false

namespace NotebookLint

open Text

/-! ## Raw lines -/

/-- Whether a character begins a comment or delimits a literal. -/
def isMark (char : Char) : Bool :=
  char == '#' || isQuote char

/-- Two lines that are equal up to what follows a mark. -/
inductive Text.SameUpToMark : Text → Text → Prop
  | same (line : Text) : SameUpToMark line line
  | mark (before : Text) {mark : Char} (known : isMark mark = true) (left right : Text) :
      SameUpToMark (before ++ mark :: left) (before ++ mark :: right)

theorem not_isBlank_of_isMark {mark : Char} (known : isMark mark = true) :
    isBlank mark = false := by
  simp only [isMark, isQuote, Bool.or_eq_true, beq_iff_eq] at known
  rcases known with rfl | rfl | rfl <;> decide

private theorem ne_percent_of_isMark {mark : Char} (known : isMark mark = true) : mark ≠ '%' := by
  rintro rfl
  exact absurd known (by decide)

namespace Text

theorem trimLeft_append_mark {mark : Char} (known : isMark mark = true) (before rest : Text) :
    trimLeft (before ++ mark :: rest) = trimLeft before ++ mark :: rest := by
  have visible := not_isBlank_of_isMark known
  rw [trimLeft, trimLeft, List.dropWhile_append]
  split
  · rename_i blank
    rw [List.isEmpty_iff] at blank
    simp [visible, blank]
  · rfl

private theorem trimRight_cons {char : Char} (visible : isBlank char = false) (rest : Text) :
    trimRight (char :: rest) = char :: trimRight rest := by
  rw [trimRight, trimRight, List.reverse_cons, List.dropWhile_append]
  split
  · rename_i blank
    rw [List.isEmpty_iff] at blank
    simp [visible, blank]
  · simp

theorem head?_trim (text : Text) : (trim text).head? = (trimLeft text).head? := by
  have stops := List.head?_dropWhile_not isBlank text
  rw [trim]
  cases trimmed : trimLeft text with
  | nil => rfl
  | cons char rest =>
      rw [show text.dropWhile isBlank = char :: rest from trimmed] at stops
      rw [trimRight_cons (by simpa using stops)]
      rfl

private theorem mem_dropWhile_isBlank {char : Char} (visible : isBlank char = false) {text : Text}
    (member : char ∈ text) : char ∈ text.dropWhile isBlank := by
  rw [← List.takeWhile_append_dropWhile (p := isBlank) (l := text), List.mem_append] at member
  rcases member with blank | kept
  · rw [List.mem_takeWhile_imp blank] at visible
    cases visible
  · exact kept

theorem mem_trim {char : Char} (visible : isBlank char = false) {text : Text}
    (member : char ∈ text) : char ∈ trim text := by
  have left := mem_dropWhile_isBlank visible member
  rw [trim, trimRight, List.mem_reverse]
  exact mem_dropWhile_isBlank visible (List.mem_reverse.mpr left)

end Text

namespace Text.SameUpToMark

/-- Trimming blanks at the beginning keeps lines the same up to a mark. -/
private theorem trimLeft {left right : Text} (same : SameUpToMark left right) :
    SameUpToMark (trimLeft left) (trimLeft right) := by
  cases same with
  | same => exact .same _
  | mark before known old new =>
      rw [trimLeft_append_mark known, trimLeft_append_mark known]
      exact .mark _ known _ _

private theorem head?_eq {left right : Text} (same : SameUpToMark left right) :
    left.head? = right.head? := by
  cases same with
  | same => rfl
  | mark before known old new => cases before <;> rfl

theorem isDirective_eq {left right : Text} (same : SameUpToMark left right) :
    SourceLine.isDirective left = SourceLine.isDirective right := by
  have trimmed := same.trimLeft
  have shell : SourceLine.isShell left = SourceLine.isShell right := by
    rw [SourceLine.isShell, SourceLine.isShell, trimmed.head?_eq]
  have magic : SourceLine.isMagic left = SourceLine.isMagic right := by
    unfold SourceLine.isMagic
    generalize Text.trimLeft left = first at trimmed
    generalize Text.trimLeft right = second at trimmed
    cases trimmed with
    | same => rfl
    | mark before known old new =>
        -- What follows the mark would be looked at only if the mark were a percent sign.
        have noPercent := ne_percent_of_isMark known
        match before with
        | [] => simp [noPercent]
        | [char] =>
            by_cases percent : char = '%'
            · simp [percent, noPercent]
            · simp [percent]
        | [char, next] =>
            by_cases percent : char = '%'
            · by_cases second : next = '%' <;> simp [percent, second]
            · simp [percent]
        | char :: next :: third :: others =>
            by_cases percent : char = '%'
            · by_cases second : next = '%' <;> simp [percent, second]
            · simp [percent]
  rw [SourceLine.isDirective, SourceLine.isDirective, shell, magic]

theorem isBlankText_eq {left right : Text} (same : SameUpToMark left right) :
    isBlankText left = isBlankText right := by
  cases same with
  | same => rfl
  | mark before known old new => simp [isBlankText, not_isBlank_of_isMark known]

theorem indent_eq {left right : Text} (same : SameUpToMark left right) :
    indent left = indent right := by
  cases same with
  | same => rfl
  | @mark before mark known old new =>
      have visible := not_isBlank_of_isMark known
      have noPadding : (mark == ' ' || mark == '\t') = false := by
        rw [Bool.eq_false_iff]
        intro padding
        simp only [Bool.or_eq_true, beq_iff_eq] at padding
        rcases padding with rfl | rfl <;> exact absurd visible (by decide)
      rw [indent, indent, List.takeWhile_append, List.takeWhile_append]
      simp only [List.takeWhile_cons, noPadding, Bool.false_eq_true, if_false]

theorem startsWithPercents_eq {left right : Text} (same : SameUpToMark left right) :
    startsWith ['%', '%'] (Text.trimLeft left) = startsWith ['%', '%'] (Text.trimLeft right) := by
  have trimmed := same.trimLeft
  generalize Text.trimLeft left = first at trimmed
  generalize Text.trimLeft right = second at trimmed
  cases trimmed with
  | same => rfl
  | mark before known old new =>
      have noPercent := ne_percent_of_isMark known
      match before with
      | [] => simp [startsWith, after?, noPercent]
      | [char] => simp [startsWith, after?, noPercent]
      | char :: next :: others => simp [startsWith, after?, apply_ite]

/-- A trimmed line begins with the same character as another one up to a mark. -/
theorem head?_trim_eq {left right : Text} (same : SameUpToMark left right) :
    (trim left).head? = (trim right).head? := by
  rw [head?_trim, head?_trim, same.trimLeft.head?_eq]

/-- A text without marks is both lines, trimmed, or neither. -/
theorem trim_beq_eq {left right : Text} (same : SameUpToMark left right) {word : Text}
    (unmarked : word.any isMark = false) :
    (trim left == word) = (trim right == word) := by
  cases same with
  | same => rfl
  | @mark before mark known old new =>
      have differs : ∀ rest : Text, (trim (before ++ mark :: rest) == word) = false := by
        intro rest
        rw [beq_eq_false_iff_ne]
        rintro rfl
        have inside : mark ∈ trim (before ++ mark :: rest) :=
          mem_trim (not_isBlank_of_isMark known) (by simp)
        exact List.any_eq_false.mp unmarked mark inside known
      rw [differs, differs]

end Text.SameUpToMark

/-! ## Blanked lines -/

/-- Two lines that are equal up to the number of spaces, one or more, in which they end. -/
inductive Text.Repadded : Text → Text → Prop
  | same (line : Text) : Repadded line line
  | ending (kept : Text) (left right : Nat) :
      Repadded (kept ++ List.replicate (left + 1) ' ') (kept ++ List.replicate (right + 1) ' ')

namespace Text.Repadded

private theorem squeeze_replicate (count : Nat) :
    squeeze (List.replicate (count + 1) ' ') = [' '] := by
  induction count with
  | zero => rfl
  | succ count ih => rw [List.replicate_succ, List.replicate_succ, squeeze_double]; exact ih

theorem squeeze_eq {left right : Text} (same : Repadded left right) :
    squeeze left = squeeze right := by
  cases same with
  | same => rfl
  | ending kept more other =>
      exact squeeze_append_congr rfl (by rw [squeeze_replicate, squeeze_replicate])

/-- What is blind to spacing is the same for both lines. -/
theorem eq_of_blind {left right : Text} (same : Repadded left right) {α : Type} (read : Text → α)
    (blind : ∀ text, read (squeeze text) = read text) : read left = read right := by
  rw [← blind left, same.squeeze_eq, blind right]

theorem trim_eq {left right : Text} (same : Repadded left right) : trim left = trim right := by
  cases same with
  | same => rfl
  | ending kept more other =>
      rw [trim_append_of_isBlankText (isBlankText_spaces _),
        trim_append_of_isBlankText (isBlankText_spaces _)]

private theorem ofTextFrom_spaces (position count : Nat) :
    Word.ofTextFrom position [] (List.replicate count ' ') = [] := by
  induction count generalizing position with
  | zero => rfl
  | succ count ih => exact ih (position + 1)

private theorem ofTextFrom_append_spaces (position count : Nat) (current text : Text) :
    Word.ofTextFrom position current (text ++ List.replicate count ' ') =
      Word.ofTextFrom position current text := by
  induction text generalizing position current with
  | nil =>
      cases count with
      | zero => rfl
      | succ count =>
          have none := ofTextFrom_spaces (position + 1) count
          have space : isWordChar ' ' = false := rfl
          cases current <;> simp [List.replicate_succ, Word.ofTextFrom, space, none]
  | cons char rest ih => simp only [List.cons_append, Word.ofTextFrom, ih]

private theorem words_append_spaces (kept : Text) (count : Nat) :
    words (kept ++ List.replicate count ' ') = words kept :=
  ofTextFrom_append_spaces 0 count [] kept

theorem words_eq {left right : Text} (same : Repadded left right) : words left = words right := by
  cases same with
  | same => rfl
  | ending kept more other => rw [words_append_spaces, words_append_spaces]

theorem names_eq {left right : Text} (same : Repadded left right) : names left = names right := by
  rw [names, names, same.words_eq]

/-- Up to the end of a word both lines are the same. -/
theorem take_eq {left right : Text} (same : Repadded left right) {word : Word}
    (member : word ∈ words left) : left.take word.start = right.take word.start := by
  cases same with
  | same => rfl
  | ending kept more other =>
      rw [words_append_spaces] at member
      obtain ⟨-, -, before, after, rfl, length, -⟩ := standsIn_of_mem_words member
      rw [← length]
      simp [List.append_assoc]

/-- After a word both lines are the same up to the number of spaces at their end. -/
theorem drop_repadded {left right : Text} (same : Repadded left right) {word : Word}
    (member : word ∈ words left) :
    Repadded (left.drop (word.start + word.text.length))
      (right.drop (word.start + word.text.length)) := by
  cases same with
  | same => exact .same _
  | ending kept more other =>
      rw [words_append_spaces] at member
      obtain ⟨-, -, before, after, rfl, length, -⟩ := standsIn_of_mem_words member
      have cut : ∀ rest : Text, (before ++ word.text ++ after ++ rest).drop
          (word.start + word.text.length) = after ++ rest := by
        intro rest
        rw [← length, ← List.length_append, List.append_assoc _ after, List.drop_left]
      rw [cut, cut]
      exact .ending _ _ _

theorem isAttribute_eq {left right : Text} (same : Repadded left right) {word : Word}
    (member : word ∈ words left) :
    Names.isAttribute left word.start = Names.isAttribute right word.start := by
  rw [Names.isAttribute, Names.isAttribute, same.take_eq member]

/-- The blanks at the beginning of a line that is not blank stay as they are. -/
theorem takeWhile_eq {left right : Text} (same : Repadded left right)
    (visible : isBlankText left = false) {taken : Char → Bool}
    (blanks : ∀ char, taken char = true → isBlank char = true) :
    left.takeWhile taken = right.takeWhile taken := by
  cases same with
  | same => rfl
  | ending kept more other =>
      have shorter : (kept.takeWhile taken).length ≠ kept.length := by
        intro whole
        have all := (List.takeWhile_prefix _).eq_of_length whole
        rw [List.takeWhile_eq_self_iff] at all
        have keptBlank : isBlankText kept = true := by
          rw [isBlankText, List.all_eq_true]
          exact fun char member => blanks char (all char member)
        rw [isBlankText_append, keptBlank, isBlankText_spaces] at visible
        cases visible
      rw [List.takeWhile_append, List.takeWhile_append, if_neg shorter, if_neg shorter]

theorem indent_eq {left right : Text} (same : Repadded left right)
    (visible : isBlankText left = false) : indent left = indent right := by
  apply same.takeWhile_eq visible
  intro char padding
  simp only [Bool.or_eq_true, beq_iff_eq] at padding
  rcases padding with rfl | rfl <;> decide

theorem indentWidth_eq {left right : Text} (same : Repadded left right)
    (visible : isBlankText left = false) (tabWidth : Nat) :
    indentWidth tabWidth left = indentWidth tabWidth right := by
  rw [indentWidth, indentWidth, same.indent_eq visible]

end Text.Repadded

/-! ## Source lines and code lines -/

/-- Two lines with the same code: their blanked texts agree up to spaces at the end and, unless they
begin inside a literal, their raw texts agree up to a mark. -/
structure SourceLine.SameCode (left right : SourceLine) : Prop where
  number : left.number = right.number
  interior : left.interior = right.interior
  raw : left.interior = false → Text.SameUpToMark left.raw right.raw
  clean : Text.Repadded left.clean right.clean

/-- Two lines with the same code that are both directives or both none. -/
structure SourceLine.ReadsAlike (left right : SourceLine) : Prop extends
    SourceLine.SameCode left right where
  directive : SourceLine.isDirective left.raw = SourceLine.isDirective right.raw

structure CodeLine.ReadsAlike (left right : CodeLine) : Prop where
  line : SourceLine.ReadsAlike left.toSourceLine right.toSourceLine
  depth : left.depth = right.depth

namespace CodeLine.ReadsAlike

variable {left right : CodeLine}

theorem endDepth_eq (same : ReadsAlike left right) : left.endDepth = right.endDepth := by
  rw [endDepth, endDepth, depthAfter, depthAfter, same.depth,
    same.line.clean.eq_of_blind _ bracketDelta_squeeze]

theorem insideBrackets_eq (same : ReadsAlike left right) :
    left.insideBrackets = right.insideBrackets := by
  rw [insideBrackets, insideBrackets, same.depth]

end CodeLine.ReadsAlike

theorem CodeLine.forall₂_ofLines {left right : List SourceLine}
    (same : List.Forall₂ SourceLine.ReadsAlike left right) (depth : Nat) :
    List.Forall₂ ReadsAlike (ofLines depth left) (ofLines depth right) := by
  induction same generalizing depth with
  | nil => exact .nil
  | @cons first second firsts seconds line lines ih =>
      rw [ofLines, ofLines, line.directive]
      split
      · exact ih depth
      · refine .cons ⟨⟨⟨line.number, line.interior, line.raw, line.clean⟩, line.directive⟩, rfl⟩ ?_
        rw [depthAfter, depthAfter, line.clean.eq_of_blind _ bracketDelta_squeeze]
        exact ih _

namespace Text

def SameCode (left right : Text) : Prop :=
  List.Forall₂ SourceLine.SameCode (sourceLines left) (sourceLines right)

def ReadsAlike (left right : Text) : Prop :=
  List.Forall₂ SourceLine.ReadsAlike (sourceLines left) (sourceLines right)

variable {left right : Text}

theorem ReadsAlike.sameCode (same : ReadsAlike left right) : SameCode left right :=
  same.imp fun _ _ line => line.toSameCode

theorem ReadsAlike.codeLines (same : ReadsAlike left right) :
    List.Forall₂ CodeLine.ReadsAlike (codeLines left) (codeLines right) :=
  CodeLine.forall₂_ofLines same 0

theorem SameCode.cleanLines (same : SameCode left right) :
    List.Forall₂ Repadded (lines (blanked left)) (lines (blanked right)) := by
  rw [← map_clean_sourceLines, ← map_clean_sourceLines]
  exact List.rel_map (fun _ _ line => line.clean) same

end Text

theorem map_eq_of_forall₂ {α β γ : Type} {related : α → β → Prop} {left : List α}
    {right : List β} (same : List.Forall₂ related left right) {first : α → γ} {second : β → γ}
    (equal : ∀ one other, related one other → first one = second other) :
    left.map first = right.map second := by
  induction same with
  | nil => rfl
  | cons head _ ih => rw [List.map_cons, List.map_cons, equal _ _ head, ih]

theorem map_squeeze_of_forall₂ {left right : List Text}
    (same : List.Forall₂ Repadded left right) : left.map squeeze = right.map squeeze :=
  map_eq_of_forall₂ same fun _ _ line => line.squeeze_eq

theorem Text.SameCode.squeeze_blanked {left right : Text} (same : SameCode left right) :
    squeeze (blanked left) = squeeze (blanked right) := by
  rw [← ofLines_lines (blanked left), ← ofLines_lines (blanked right)]
  exact squeeze_join_congr ['\n'] (map_squeeze_of_forall₂ same.cleanLines)

end NotebookLint
