import NotebookLint.Proofs.CommentRewriting
import NotebookLint.Proofs.ScanRestart

/-! What the scan of any text keeps. Blanking changes neither the length of a text nor its line
breaks, and every other character stays or becomes a space. The lines inside literals are lines of
the text, and a comment is the end of its line, from the hash sign on. -/

set_option autoImplicit false

namespace NotebookLint

theorem Mode.code_ne_comment (afterWord : Bool) : Mode.code afterWord ≠ .comment := by
  intro same
  cases same

namespace SourceLine

/-- Whether a comment is what its line ends in, hidden from the rules. -/
structure EndsIn (line : SourceLine) (comment : Text) : Prop where
  hash : comment.head? = some '#'
  ending : ∃ code shown, line.raw = code ++ comment ∧
    line.clean = shown ++ List.replicate comment.length ' ' ∧ shown.length = code.length

theorem comment?_ofGlyphs_eq_none (number : Nat) (interior : Bool) {glyphs : List Glyph}
    (outside : ∀ glyph ∈ glyphs, glyph.role ≠ .comment) :
    (ofGlyphs number interior glyphs).comment? = none := by
  have none : glyphs.filter (fun glyph => glyph.role == .comment) = [] := by
    simpa using outside
  simp [ofGlyphs, none]

/-- A comment that follows other glyphs is the comment of its line. -/
theorem endsIn_ofGlyphs (number : Nat) (interior : Bool) {before : List Glyph}
    (outside : ∀ glyph ∈ before, glyph.role ≠ .comment) {text : Text} (unbroken : '\n' ∉ text)
    {comment : Text}
    (found : (ofGlyphs number interior (before ++ Glyph.ofComment ('#' :: text))).comment? =
      some comment) :
    (ofGlyphs number interior (before ++ Glyph.ofComment ('#' :: text))).EndsIn comment := by
  have none : before.filter (fun glyph => glyph.role == .comment) = [] := by
    simpa using outside
  have all : (Glyph.ofComment ('#' :: text)).filter (fun glyph => glyph.role == .comment) =
      Glyph.ofComment ('#' :: text) := by
    simp [Glyph.ofComment]
  have chars := Glyph.map_char_ofComment ('#' :: text)
  obtain rfl : '#' :: text = comment := by
    simp only [ofGlyphs, List.filter_append, none, all, List.nil_append] at found
    rw [← chars]
    exact Option.some.inj found
  have inLine : '\n' ∉ '#' :: text := by simpa using unbroken
  have shown := Glyph.map_shown_ofComment inLine
  refine ⟨rfl, before.map Glyph.char, before.map Glyph.shown, ?_, ?_, by simp⟩
  · simp only [ofGlyphs, List.map_append, chars]
  · simp only [ofGlyphs, List.map_append, shown]

/-- Every comment on a line of a scan is what the line ends in. The induction is on the text; a hash
sign outside literals takes the rest of its line at once. -/
theorem endsIn_of_mem_ofScan {mode : Mode} (outside : mode ≠ .comment) (text : Text) (number : Nat)
    (interior : Bool) {started : List Glyph} (plain : ∀ glyph ∈ started, glyph.role ≠ .comment)
    {line : SourceLine} (member : line ∈ ofScan number interior started (Glyph.scanFrom mode text))
    {comment : Text} (found : line.comment? = some comment) : line.EndsIn comment := by
  induction size : text.length using Nat.strong_induction_on
    generalizing text mode number interior started
  rename_i length ih
  have bare : ∀ glyph ∈ started.reverse, glyph.role ≠ .comment := by simpa using plain
  cases text with
  | nil =>
      obtain rfl : line = ofGlyphs number interior started.reverse := by
        simpa [ofScan] using member
      rw [comment?_ofGlyphs_eq_none number interior bare] at found
      cases found
  | cons char rest =>
      rcases Mode.step_outside_comment outside char rest with ⟨rfl, afterWord, rfl⟩ | stays
      · obtain ⟨written, later, rfl, unbroken, ends⟩ := Text.exists_first_line rest
        rw [Glyph.scanFrom_hash unbroken ends, ofScan_append_of_unbroken _ _ _
          (unbroken_ofComment unbroken)] at member
        have whole : (ofGlyphs number interior
              (started.reverse ++ Glyph.ofComment ('#' :: written))).comment? = some comment →
            (ofGlyphs number interior
              (started.reverse ++ Glyph.ofComment ('#' :: written))).EndsIn comment :=
          endsIn_ofGlyphs number interior bare unbroken
        cases later with
        | nil =>
            obtain rfl : line = ofGlyphs number interior
                (started.reverse ++ Glyph.ofComment ('#' :: written)) := by
              simpa [ofScan] using member
            exact whole found
        | cons next further =>
            obtain rfl : next = '\n' := ends next (by simp)
            have isBreak : (⟨'\n', .code⟩ : Glyph).isBreak = true := rfl
            have step : Mode.step '\n' further (.code false) = (.code, .code false) := rfl
            rw [Glyph.scanFrom_cons, step, ofScan, if_pos isBreak] at member
            rcases List.mem_cons.mp member with rfl | below
            · simp only [List.reverse_append, List.reverse_reverse] at found ⊢
              exact whole found
            · have shorter : further.length < length := by
                rw [← size]
                simp only [List.length_cons, List.length_append]
                omega
              exact ih further.length shorter (Mode.code_ne_comment false) further
                (number + 1) _ (by simp) below rfl
      · have shorter : rest.length < length := by
          rw [← size]
          simp
        rw [Glyph.scanFrom_cons, ofScan] at member
        split at member
        · rcases List.mem_cons.mp member with rfl | below
          · rw [comment?_ofGlyphs_eq_none number interior bare] at found
            cases found
          · exact ih rest.length shorter stays.2 rest (number + 1) _ (by simp) below rfl
        · have grown : ∀ glyph ∈ (⟨char, (mode.step char rest).1⟩ : Glyph) :: started,
              glyph.role ≠ .comment := by
            simpa [stays.1] using plain
          exact ih rest.length shorter stays.2 rest number interior grown member rfl

end SourceLine

namespace Text

structure KeepsShape (source : Text) : Prop where
  /-- The scan reads every character once, in the order of the text. -/
  scanned : (Glyph.scan source).map Glyph.char = source
  length : (blanked source).length = source.length
  breaks : ∀ position : Nat, (blanked source)[position]? = some '\n' ↔ source[position]? = some '\n'
  others : ∀ (position : Nat) (char : Char), (blanked source)[position]? = some char →
    source[position]? = some char ∨ char = ' '
  interiorRows : ∀ row ∈ interiorLines source, 1 ≤ row ∧ row ≤ source.count '\n'
  commentRows : ∀ row comment, (row, comment) ∈ comments source →
    comment.head? = some '#' ∧
      ∃ code shown, (lines source)[row]? = some (code ++ comment) ∧
        (lines (blanked source))[row]? = some (shown ++ List.replicate comment.length ' ') ∧
        shown.length = code.length

theorem getElem?_blanked (source : Text) (position : Nat) :
    (blanked source)[position]? = (Glyph.scan source)[position]?.map Glyph.shown := by
  rw [blanked, List.getElem?_map]

theorem getElem?_eq_map_scan (source : Text) (position : Nat) :
    source[position]? = (Glyph.scan source)[position]?.map Glyph.char := by
  rw [← List.getElem?_map, Glyph.map_char_scan]

/-- A source line is shown where its number says. -/
theorem getElem?_blanked_of_mem_sourceLines {source : Text} {line : SourceLine}
    (member : line ∈ sourceLines source) :
    (lines source)[line.number - 1]? = some line.raw ∧
      (lines (blanked source))[line.number - 1]? = some line.clean := by
  obtain ⟨index, found⟩ := List.getElem?_of_mem member
  have numbered := getElem?_number_sourceLines found
  refine ⟨(getElem?_of_mem_sourceLines member).2.2, ?_⟩
  rw [numbered, Nat.add_sub_cancel, ← map_clean_sourceLines, List.getElem?_map, found,
    Option.map_some]

/-- The scan preserves the shape of every text. -/
theorem keepsShape (source : Text) : KeepsShape source where
  scanned := Glyph.map_char_scan source
  length := by
    rw [blanked, List.length_map]
    exact Glyph.length_scanFrom _ source
  breaks position := by
    rw [getElem?_blanked, getElem?_eq_map_scan source]
    cases (Glyph.scan source)[position]? with
    | none => rfl
    | some glyph => simp [Glyph.shown_eq_break_iff]
  others position char shown := by
    rw [getElem?_blanked] at shown
    rw [getElem?_eq_map_scan source]
    obtain ⟨glyph, found, rfl⟩ := Option.map_eq_some_iff.mp shown
    rw [found, Option.map_some]
    exact (Glyph.shown_eq_char_or_space glyph).imp (congrArg some ·.symm) id
  interiorRows row member := by
    obtain ⟨positive, bounded⟩ := pos_of_mem_interiorLines member
    exact ⟨positive, Nat.le_of_lt_succ bounded⟩
  commentRows row comment member := by
    obtain ⟨line, isLine, listed⟩ := List.mem_filterMap.mp member
    obtain ⟨text, found, entry⟩ := Option.map_eq_some_iff.mp listed
    obtain ⟨rfl, rfl⟩ := Prod.mk.inj entry
    obtain ⟨hash, code, shown, raw, clean, width⟩ := SourceLine.endsIn_of_mem_ofScan
      (Mode.code_ne_comment false) source 1 false (by simp) isLine found
    obtain ⟨rawLine, shownLine⟩ := getElem?_blanked_of_mem_sourceLines isLine
    exact ⟨hash, code, shown, raw ▸ rawLine, clean ▸ shownLine, width⟩

end Text

end NotebookLint
