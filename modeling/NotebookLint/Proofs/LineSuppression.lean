import NotebookLint.Proofs.CellSuppression
import NotebookLint.Proofs.Scan

/-! Which reports the comments for single lines suppress. A report is dropped if the first marker of a
comment on its line covers its rule. A further marker in the same comment counts for nothing, so a
report can stay although its rule is named on its line. Text inside literals is never a marker. -/

set_option autoImplicit false

namespace NotebookLint

/-! ## Where comments come from -/

/-- A character of a comment, or a line break. -/
def Glyph.commented? (glyph : Glyph) : Option Char :=
  if glyph.isBreak then some '\n'
  else if glyph.role == .comment then some glyph.char
  else none

/-- The comments of a text between its line breaks, without everything else. -/
def Text.commentText (source : Text) : Text :=
  (Glyph.scan source).filterMap Glyph.commented?

theorem Glyph.not_mem_commented {glyphs : List Glyph}
    (unbroken : ∀ glyph ∈ glyphs, glyph.isBreak = false) : '\n' ∉ glyphs.filterMap commented? := by
  intro inside
  obtain ⟨glyph, member, shown⟩ := List.mem_filterMap.mp inside
  have visible := unbroken glyph member
  simp only [commented?, visible, Bool.false_eq_true, if_false] at shown
  split at shown
  · rw [isBreak, Option.some.inj shown] at visible
    exact absurd visible (by decide)
  · cases shown

theorem SourceLine.comment?_ofGlyphs (number : Nat) (interior : Bool) {glyphs : List Glyph}
    (unbroken : ∀ glyph ∈ glyphs, glyph.isBreak = false) :
    (ofGlyphs number interior glyphs).comment? =
      (some (glyphs.filterMap Glyph.commented?)).filter fun comment => !comment.isEmpty := by
  have inComment : (glyphs.filter fun glyph => glyph.role == .comment).map Glyph.char =
      glyphs.filterMap Glyph.commented? := by
    induction glyphs with
    | nil => rfl
    | cons glyph others ih =>
        have here := unbroken glyph List.mem_cons_self
        have rest := ih fun other member => unbroken other (List.mem_cons_of_mem _ member)
        cases inside : glyph.role == .comment with
        | true => simp [Glyph.commented?, here, inside, rest]
        | false => simp [Glyph.commented?, here, inside, rest]
  rw [← inComment, ofGlyphs]
  cases glyphs.filter fun glyph => glyph.role == .comment with
  | nil => rfl
  | cons glyph others => rfl

/-- The lines of a text that are not empty, with their numbers. -/
private def numbered (number : Nat) (texts : List Text) : List (Nat × Text) :=
  ((texts.zipIdx number).filter fun entry => !entry.1.isEmpty).map Prod.swap

/-- The comment of a line with the number of this, counted from zero. -/
private def SourceLine.noted? (line : SourceLine) : Option (Nat × Text) :=
  line.comment?.map fun text => (line.number - 1, text)

private theorem filterMap_noted?_cons (number : Nat) (interior : Bool) {glyphs : List Glyph}
    (unbroken : ∀ glyph ∈ glyphs, glyph.isBreak = false) {lines : List SourceLine}
    {texts : List Text} (others : lines.filterMap SourceLine.noted? = numbered (number + 1) texts) :
    (SourceLine.ofGlyphs (number + 1) interior glyphs :: lines).filterMap SourceLine.noted? =
      numbered number (glyphs.filterMap Glyph.commented? :: texts) := by
  have comment := SourceLine.comment?_ofGlyphs (number + 1) interior unbroken
  cases text : glyphs.filterMap Glyph.commented? with
  | nil =>
      have none : (SourceLine.ofGlyphs (number + 1) interior glyphs).noted? = none := by
        rw [SourceLine.noted?, comment, text]
        rfl
      rw [List.filterMap_cons_none none, others]
      rfl
  | cons char rest =>
      have some : (SourceLine.ofGlyphs (number + 1) interior glyphs).noted? =
          some (number, char :: rest) := by
        rw [SourceLine.noted?, comment, text]
        rfl
      rw [List.filterMap_cons_some some, others]
      rfl

private theorem filterMap_noted?_ofScan (number : Nat) (interior : Bool) {started : List Glyph}
    (unbroken : ∀ glyph ∈ started, glyph.isBreak = false) (glyphs : List Glyph) :
    (SourceLine.ofScan (number + 1) interior started glyphs).filterMap SourceLine.noted? =
      numbered number (Text.lines (started.reverse.filterMap Glyph.commented? ++
        glyphs.filterMap Glyph.commented?)) := by
  have before : ∀ glyph ∈ started.reverse, glyph.isBreak = false := fun glyph member =>
    unbroken glyph (List.mem_reverse.mp member)
  induction glyphs generalizing number interior started with
  | nil =>
      rw [List.filterMap_nil, List.append_nil,
        Text.lines_of_not_mem (Glyph.not_mem_commented before)]
      exact filterMap_noted?_cons number interior before rfl
  | cons glyph rest ih =>
      cases ends : glyph.isBreak with
      | true =>
          have shown : glyph.commented? = some '\n' := by rw [Glyph.commented?, if_pos ends]
          rw [SourceLine.ofScan, if_pos ends, List.filterMap_cons_some shown,
            Text.lines_append_break, Text.lines_of_not_mem (Glyph.not_mem_commented before)]
          have unstarted : ∀ other ∈ ([] : List Glyph), other.isBreak = false := by simp
          exact filterMap_noted?_cons number interior before
            (ih (number + 1) (glyph.role != .code) unstarted (by simp))
      | false =>
          have grown : ∀ other ∈ glyph :: started, other.isBreak = false :=
            List.forall_mem_cons.mpr ⟨ends, unbroken⟩
          rw [SourceLine.ofScan, if_neg (by simp [ends]), ih number interior grown fun other member =>
              grown other (List.mem_reverse.mp member),
            List.reverse_cons, List.filterMap_append, List.append_assoc, ← List.filterMap_append,
            List.singleton_append]

/-- The comments of a cell are the lines that its comments and line breaks make up. -/
theorem Text.comments_eq (source : Text) :
    comments source = ((lines (commentText source)).zipIdx.filter fun entry =>
      !entry.1.isEmpty).map Prod.swap :=
  filterMap_noted?_ofScan 0 false (by simp) (Glyph.scan source)

namespace Suppression

/-! ## Markers of a comment -/

def markers (keyword : String) (comment : Text) : List Coverage :=
  (Text.suffixes comment).filterMap (markerAt? keyword)

/-- Whether some marker in a comment on the given line of a cell, counted from one, covers a rule. -/
def markedOnLine (source : Text) (line : Int) (rule : String) : Bool :=
  (Text.comments source).any fun entry =>
    line == entry.1 + 1 && (markers "noqa" entry.2).any (Coverage.covers rule)

theorem marker?_eq_head? (keyword : String) (comment : Text) :
    marker? keyword comment = (markers keyword comment).head? :=
  List.head?_filterMap.symm

theorem markers_of_not_mem {keyword : String} {text : Text} (unmarked : '#' ∉ text) :
    markers keyword text = [] := by
  induction text with
  | nil => rfl
  | cons char rest ih =>
      rw [List.mem_cons, not_or] at unmarked
      obtain ⟨noHash, others⟩ := unmarked
      have none : markerAt? keyword (char :: rest) = none := by
        simp [markerAt?, Text.char?, Ne.symm noHash]
      rw [markers, Text.suffixes, List.filterMap_cons_none none]
      exact ih others

/-- A comment has no second marker where its only hash sign is the first character. -/
theorem markers_of_marker? {keyword : String} {rest : Text} {coverage : Coverage}
    (single : '#' ∉ rest) (marked : marker? keyword ('#' :: rest) = some coverage) :
    markers keyword ('#' :: rest) = [coverage] := by
  have others : (Text.suffixes rest).filterMap (markerAt? keyword) = [] :=
    markers_of_not_mem single
  rw [marker?_eq_head?] at marked
  rw [markers, Text.suffixes] at marked ⊢
  cases first : markerAt? keyword ('#' :: rest) with
  | none =>
      rw [List.filterMap_cons_none first, others] at marked
      cases marked
  | some known =>
      rw [List.filterMap_cons_some first, others] at marked ⊢
      rw [List.head?_cons, Option.some_inj] at marked
      rw [marked]

theorem not_mem_of_spelled {written expected : Text} (spelled : written.map foldLetter = expected)
    (absent : '#' ∉ expected) : '#' ∉ written := by
  intro inside
  apply absent
  rw [← spelled]
  exact List.mem_map_of_mem (f := foldLetter) inside

/-- A comment that begins with a marker has no second one if nothing behind its word could begin
one. -/
theorem markers_of_opens {keyword : String} {rest comment : Text} {coverage : Coverage}
    (unmarked : '#' ∉ keyword.toList) (single : '#' ∉ rest) (opens : Opens keyword rest comment)
    (marked : marker? keyword comment = some coverage) : markers keyword comment = [coverage] := by
  obtain ⟨blankGap, spelled, blankSpace, named⟩ := opens
  refine markers_of_marker? ?_ marked
  simp only [List.mem_append, not_or]
  exact ⟨Text.not_mem_of_isBlankText (by decide) blankGap, not_mem_of_spelled spelled (by decide),
    Text.not_mem_of_isBlankText (by decide) blankSpace, not_mem_of_spelled named unmarked, single⟩

theorem Lists.not_mem {names : List Text} {list : Text} (lists : Lists names list) :
    '#' ∉ list := by
  obtain ⟨valid, pieces, padded, rfl⟩ := lists
  intro inside
  cases mem_join inside with
  | inl separator => exact absurd separator (by decide)
  | inr found =>
      obtain ⟨piece, isPiece, member⟩ := found
      exact absurd (listed_of_mem_pieces valid padded isPiece member).1 (by decide)

/-! ## Reports on a marked line -/

theorem markedOnLine_of_disabledOnLine {source : Text} {line : Int} {rule : String}
    (disabled : disabledOnLine source line rule = true) : markedOnLine source line rule = true := by
  rw [disabledOnLine, List.any_eq_true] at disabled
  obtain ⟨entry, member, here⟩ := disabled
  rw [Bool.and_eq_true, marker?_eq_head?, Option.any_eq_true] at here
  obtain ⟨sameLine, coverage, first, covers⟩ := here
  rw [markedOnLine, List.any_eq_true]
  refine ⟨entry, member, ?_⟩
  rw [Bool.and_eq_true, List.any_eq_true]
  exact ⟨sameLine, coverage, List.mem_of_mem_head? first, covers⟩

theorem disabledByLast_of_unmarked {source : Text}
    (unmarked : ∀ entry ∈ Text.comments source, marker? "disable-cell" entry.2 = none)
    (rule : String) : disabledByLast source rule = false := by
  have none : lastForCell? (Text.comments source) = none := by
    rw [lastForCell?, List.findSome?_eq_none_iff]
    intro entry member
    exact unmarked entry (List.mem_reverse.mp member)
  rw [disabledByLast, none, Option.any_none]

/-- What the comments of a cell without one for the whole cell do to a list of diagnostics. -/
structure SuppressesLines (source : Text) (offset : Int) (diagnostics : List Diagnostic) :
    Prop where
  /-- Exactly what the first marker of a comment on its line covers is dropped. -/
  kept : apply source offset diagnostics = diagnostics.filter fun diagnostic =>
    !disabledOnLine source (diagnostic.line - offset) diagnostic.rule
  /-- All markers hold exactly if whatever one of them covers is also covered by a first one. -/
  all_iff : (apply source offset diagnostics = diagnostics.filter fun diagnostic =>
      !markedOnLine source (diagnostic.line - offset) diagnostic.rule) ↔
    ∀ diagnostic ∈ diagnostics,
      markedOnLine source (diagnostic.line - offset) diagnostic.rule = true →
        disabledOnLine source (diagnostic.line - offset) diagnostic.rule = true
  /-- Text that is in no comment, such as that of a literal, counts for nothing. -/
  outside : ∀ other, Text.commentText other = Text.commentText source →
    apply other offset diagnostics = apply source offset diagnostics
  bare : ∀ comment, Opens "noqa" [] comment → markers "noqa" comment = [.all]
  named : ∀ names list comment, Opens "noqa" (':' :: list) comment → Lists names list →
    names ≠ [] → markers "noqa" comment = [.only (names.map Text.lower)]

/-- Comments for single lines hold as they are written up to their first marker each. -/
theorem suppressesLines (source : Text) (offset : Int) (diagnostics : List Diagnostic)
    (unmarked : ∀ entry ∈ Text.comments source, marker? "disable-cell" entry.2 = none) :
    SuppressesLines source offset diagnostics := by
  have kept : apply source offset diagnostics = diagnostics.filter fun diagnostic =>
      !disabledOnLine source (diagnostic.line - offset) diagnostic.rule := by
    simp only [apply_eq_filter_last, disabledByLast_of_unmarked unmarked, Bool.false_or]
  constructor
  case kept => exact kept
  case all_iff =>
    rw [kept, filter_eq_filter_iff]
    apply forall₂_congr
    intro diagnostic member
    rw [Bool.not_inj_iff, Bool.eq_iff_iff]
    constructor
    · intro equal
      exact equal.mpr
    · intro covered
      exact ⟨markedOnLine_of_disabledOnLine, covered⟩
  case outside =>
    intro other same
    simp only [apply, ofSource, Text.comments_eq, same]
  case bare =>
    intro comment opens
    exact markers_of_opens (by decide) (by decide) opens (marker?_of_bare (by decide) opens)
  case named =>
    intro names list comment opens lists nonempty
    have single : '#' ∉ ':' :: list := by
      rw [List.mem_cons, not_or]
      exact ⟨by decide, lists.not_mem⟩
    exact markers_of_opens (by decide) single opens
      (marker?_of_lists (by decide) opens lists nonempty)

/-- A literal that quotes a marker, and a comment with two names in other letter case. -/
theorem suppressesLines_quoted :
    let list : Text := " Empty_Cells ,undefined_variables".toList
    let names : List Text := ["Empty_Cells".toList, "undefined_variables".toList]
    let comment : Text :=
      '#' :: ([' '] ++ ("Cellint:".toList ++ ([' ', ' '] ++ ("NoQA".toList ++ ':' :: list))))
    let source : Text := "print(x, '# cellint: noqa')\ny  ".toList ++ comment
    let other : Text := "print(x, '')\ny  ".toList ++ comment
    let first : Diagnostic := ⟨"undefined_variables", .undefinedName ['x'], 5, some 7, none, some 1⟩
    let second : Diagnostic := ⟨"undefined_variables", .undefinedName ['y'], 6, some 1, none, some 2⟩
    ((∀ entry ∈ Text.comments source, marker? "disable-cell" entry.2 = none) ∧
        Opens "noqa" (':' :: list) comment ∧ Lists names list ∧ names ≠ [] ∧
        Text.commentText other = Text.commentText source ∧
        apply source 4 [first, second] = [first]) ∧
      (apply source 4 [first, second] = [first, second].filter fun diagnostic =>
        !markedOnLine source (diagnostic.line - 4) diagnostic.rule) ∧
      apply other 4 [first, second] = apply source 4 [first, second] ∧
      markers "noqa" comment = [.only (names.map Text.lower)] := by
  intro list names comment source other first second
  have unmarked : ∀ entry ∈ Text.comments source, marker? "disable-cell" entry.2 = none := by
    decide +kernel
  have suppresses := suppressesLines source 4 [first, second] unmarked
  have opens : Opens "noqa" (':' :: list) comment :=
    .intro (by decide) (by decide) (by decide) (by decide)
  have lists : Lists names list := by
    refine ⟨by decide, [" Empty_Cells ".toList, "undefined_variables".toList], ?_, by decide⟩
    exact .cons ⟨[' '], [' '], by decide, by decide, by decide⟩
      (.cons ⟨[], [], by decide, by decide, by decide⟩ .nil)
  have nonempty : names ≠ [] := by decide
  have same : Text.commentText other = Text.commentText source := by decide +kernel
  have covered : ∀ diagnostic ∈ [first, second],
      markedOnLine source (diagnostic.line - 4) diagnostic.rule = true →
        disabledOnLine source (diagnostic.line - 4) diagnostic.rule = true := by
    decide +kernel
  exact ⟨⟨unmarked, opens, lists, nonempty, same, by decide +kernel⟩,
    suppresses.all_iff.mpr covered, suppresses.outside other same,
    suppresses.named names list comment opens lists nonempty⟩

/-- The second marker of a comment names the rule, but the report stays. -/
theorem apply_ne_filter_of_second_marker :
    let source : Text :=
      "x  # cellint: noqa: empty_cells  # cellint: noqa: undefined_variables".toList
    let undefined : Diagnostic :=
      ⟨"undefined_variables", .undefinedName ['x'], 1, some 1, none, some 1⟩
    (∀ entry ∈ Text.comments source, marker? "disable-cell" entry.2 = none) ∧
      markedOnLine source (undefined.line - 0) undefined.rule = true ∧
      apply source 0 [undefined] = [undefined] ∧
      apply source 0 [undefined] ≠ [undefined].filter fun diagnostic =>
        !markedOnLine source (diagnostic.line - 0) diagnostic.rule := by
  decide +kernel

end Suppression

end NotebookLint
