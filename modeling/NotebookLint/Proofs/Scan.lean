import NotebookLint.Lexical.Lines
import NotebookLint.Proofs.TextLines

/-! The shape of a scan. Scanning gives every character of a text one role and changes none of them,
blanking keeps line breaks and shows every other character as itself or as a space, and the source
lines of a cell are the lines of its text, numbered from one. -/

set_option autoImplicit false

namespace NotebookLint

namespace Glyph

@[simp] theorem scanFrom_nil (mode : Mode) : scanFrom mode [] = [] := rfl

theorem scanFrom_cons (mode : Mode) (char : Char) (rest : Text) :
    scanFrom mode (char :: rest) =
      ⟨char, (mode.step char rest).1⟩ :: scanFrom (mode.step char rest).2 rest := rfl

@[simp] theorem map_char_scanFrom (mode : Mode) (text : Text) :
    (scanFrom mode text).map char = text := by
  induction text generalizing mode with
  | nil => rfl
  | cons head rest ih => simp [scanFrom_cons, ih]

theorem length_scanFrom (mode : Mode) (text : Text) : (scanFrom mode text).length = text.length := by
  rw [← List.length_map (f := char), map_char_scanFrom]

@[simp] theorem map_char_scan (text : Text) : (scan text).map char = text :=
  map_char_scanFrom _ text

/-- Where a text is at its end or at a line break, so is its scan. -/
theorem ends_scanFrom (mode : Mode) {text : Text} (ends : ∀ next ∈ text.head?, next = '\n') :
    ∀ glyph ∈ (scanFrom mode text).head?, glyph.char = '\n' := by
  intro glyph member
  apply ends
  rw [← map_char_scanFrom mode text, List.head?_map]
  exact Option.mem_map_of_mem _ member

/-- A glyph is shown as its own character or as a space. -/
theorem shown_eq_char_or_space (glyph : Glyph) : glyph.shown = glyph.char ∨ glyph.shown = ' ' := by
  unfold shown
  split
  · rename_i isBreak
    exact .inl (eq_of_beq isBreak).symm
  · split
    all_goals first | exact .inl rfl | exact .inr rfl

/-- Blanking neither removes nor adds a line break. -/
theorem shown_eq_break_iff (glyph : Glyph) : glyph.shown = '\n' ↔ glyph.char = '\n' := by
  constructor
  · intro shownBreak
    rcases shown_eq_char_or_space glyph with same | space
    · rw [← same, shownBreak]
    · rw [space] at shownBreak
      exact absurd shownBreak (by decide)
  · intro isBreak
    simp [shown, isBreak]

@[simp] theorem isBreak_iff (glyph : Glyph) : glyph.isBreak = true ↔ glyph.char = '\n' := by
  simp [isBreak]

end Glyph

namespace SourceLine

/-- The views of a scan's lines: whatever shows line breaks, and only these, as line breaks, gives
the lines of its text. -/
theorem map_ofScan (field : SourceLine → Text) (view : Glyph → Char)
    (viewed : ∀ number interior glyphs, field (ofGlyphs number interior glyphs) = glyphs.map view)
    (breaks : ∀ glyph : Glyph, view glyph = '\n' ↔ glyph.char = '\n')
    (number : Nat) (interior : Bool) (started glyphs : List Glyph)
    (unbroken : ∀ glyph ∈ started, glyph.char ≠ '\n') :
    (ofScan number interior started glyphs).map field =
      Text.lines (started.reverse.map view ++ glyphs.map view) := by
  have noBreak : '\n' ∉ started.reverse.map view := by
    intro member
    obtain ⟨glyph, inside, equal⟩ := List.mem_map.mp member
    exact unbroken glyph (List.mem_reverse.mp inside) ((breaks glyph).mp equal)
  induction glyphs generalizing number interior started with
  | nil =>
      rw [List.map_nil, List.append_nil, Text.lines_of_not_mem noBreak]
      simp [ofScan, viewed]
  | cons glyph rest ih =>
      by_cases isBreak : glyph.char = '\n'
      · have next := ih (number + 1) (glyph.role != .code) [] (by simp) (by simp)
        simp only [List.reverse_nil, List.map_nil, List.nil_append] at next
        simp only [ofScan, (Glyph.isBreak_iff glyph).mpr isBreak, if_true, List.map_cons, viewed,
          next, (breaks glyph).mpr isBreak, Text.lines_append_break,
          Text.lines_of_not_mem noBreak, List.singleton_append]
      · have visible : glyph.isBreak = false := by simpa [Glyph.isBreak] using isBreak
        have grown : ∀ other ∈ glyph :: started, other.char ≠ '\n' := by
          simpa [isBreak] using unbroken
        have kept : '\n' ∉ (glyph :: started).reverse.map view := by
          intro member
          obtain ⟨other, inside, equal⟩ := List.mem_map.mp member
          exact grown other (List.mem_reverse.mp inside) ((breaks other).mp equal)
        simp [ofScan, visible, ih number interior (glyph :: started) grown kept]

theorem length_ofScan (number : Nat) (interior : Bool) (started glyphs : List Glyph) :
    (ofScan number interior started glyphs).length =
      Text.lineCount (glyphs.map Glyph.char) := by
  induction glyphs generalizing number interior started with
  | nil => rfl
  | cons glyph rest ih =>
      by_cases isBreak : glyph.char = '\n'
      · simp [ofScan, Glyph.isBreak, isBreak, ih, Text.lineCount]
      · simp [ofScan, Glyph.isBreak, isBreak, ih, Text.lineCount]

theorem map_number_ofScan (number : Nat) (interior : Bool) (started glyphs : List Glyph) :
    (ofScan number interior started glyphs).map SourceLine.number =
      List.range' number (Text.lineCount (glyphs.map Glyph.char)) := by
  induction glyphs generalizing number interior started with
  | nil => rfl
  | cons glyph rest ih =>
      by_cases isBreak : glyph.char = '\n'
      · simp [ofScan, Glyph.isBreak, isBreak, ih, Text.lineCount, ofGlyphs, List.range'_succ]
      · simp [ofScan, Glyph.isBreak, isBreak, ih, Text.lineCount]

/-- Every line of a scan is made of glyphs that stand side by side in it. -/
theorem exists_glyphs_of_mem_ofScan {number : Nat} {interior : Bool}
    {started glyphs : List Glyph} {line : SourceLine}
    (member : line ∈ ofScan number interior started glyphs) :
    ∃ piece, piece <:+: started.reverse ++ glyphs ∧
      line = ofGlyphs line.number line.interior piece := by
  induction glyphs generalizing number interior started with
  | nil =>
      simp only [ofScan, List.mem_singleton] at member
      subst member
      exact ⟨started.reverse, by simp, rfl⟩
  | cons glyph rest ih =>
      simp only [ofScan] at member
      split at member
      · rcases List.mem_cons.mp member with rfl | later
        · exact ⟨started.reverse, (List.prefix_append _ _).isInfix, rfl⟩
        · obtain ⟨piece, adjacent, made⟩ := ih later
          have inRest : piece <:+: rest := by simpa using adjacent
          exact ⟨piece, inRest.trans ((List.suffix_cons glyph rest).isInfix.trans
            (List.suffix_append _ _).isInfix), made⟩
      · obtain ⟨piece, adjacent, made⟩ := ih member
        exact ⟨piece, by simpa using adjacent, made⟩

end SourceLine

namespace Text

@[simp] theorem map_raw_sourceLines (source : Text) :
    (sourceLines source).map SourceLine.raw = lines source := by
  have views := SourceLine.map_ofScan SourceLine.raw Glyph.char
    (fun _ _ _ => rfl) (fun _ => Iff.rfl) 1 false [] (Glyph.scan source) (by simp)
  simpa [sourceLines] using views

@[simp] theorem map_clean_sourceLines (source : Text) :
    (sourceLines source).map SourceLine.clean = lines (blanked source) := by
  have views := SourceLine.map_ofScan SourceLine.clean Glyph.shown
    (fun _ _ _ => rfl) Glyph.shown_eq_break_iff 1 false [] (Glyph.scan source) (by simp)
  simpa [sourceLines, blanked] using views

@[simp] theorem map_number_sourceLines (source : Text) :
    (sourceLines source).map SourceLine.number = List.range' 1 (lineCount source) := by
  simp [sourceLines, SourceLine.map_number_ofScan]

@[simp] theorem length_sourceLines (source : Text) :
    (sourceLines source).length = lineCount source := by
  simp [sourceLines, SourceLine.length_ofScan]

theorem getElem?_number_sourceLines {source : Text} {index : Nat} {line : SourceLine}
    (found : (sourceLines source)[index]? = some line) : line.number = index + 1 := by
  have numbered : ((sourceLines source).map SourceLine.number)[index]? = some line.number := by
    rw [List.getElem?_map, found, Option.map_some]
  obtain ⟨bound, -⟩ := List.getElem?_eq_some_iff.mp numbered
  rw [map_number_sourceLines, List.getElem?_range' (by simpa using bound)] at numbered
  simpa [Nat.add_comm] using (Option.some.inj numbered).symm

theorem pairwise_number_sourceLines (source : Text) :
    (sourceLines source).Pairwise fun earlier later => earlier.number < later.number := by
  rw [← List.pairwise_map, map_number_sourceLines]
  exact List.pairwise_lt_range'

/-- A source line stands in its cell where its number says. -/
theorem getElem?_of_mem_sourceLines {source : Text} {line : SourceLine}
    (member : line ∈ sourceLines source) :
    1 ≤ line.number ∧ line.number ≤ lineCount source ∧
      (lines source)[line.number - 1]? = some line.raw := by
  obtain ⟨position, found⟩ := List.getElem?_of_mem member
  have number := getElem?_number_sourceLines found
  have bound := (List.getElem?_eq_some_iff.mp found).1
  rw [length_sourceLines] at bound
  refine ⟨by omega, by omega, ?_⟩
  rw [number, Nat.add_sub_cancel, ← map_raw_sourceLines, List.getElem?_map, found, Option.map_some]

theorem exists_glyphs_of_mem_sourceLines {source : Text} {line : SourceLine}
    (member : line ∈ sourceLines source) :
    ∃ piece, piece <:+: Glyph.scan source ∧
      line.raw = piece.map Glyph.char ∧ line.clean = piece.map Glyph.shown := by
  obtain ⟨piece, inside, made⟩ := SourceLine.exists_glyphs_of_mem_ofScan member
  refine ⟨piece, by simpa using inside, ?_, ?_⟩
  · rw [made]; rfl
  · rw [made]; rfl

end Text

/-! ## Members of a list with those before them -/

theorem exists_split_cons {α : Type} (holds : List α → α → Prop) (before : List α) (first : α)
    (rest : List α) :
    (∃ middle member after, first :: rest = middle ++ member :: after ∧
        holds (before ++ middle) member) ↔
      holds before first ∨ ∃ middle member after, rest = middle ++ member :: after ∧
        holds (before ++ [first] ++ middle) member := by
  constructor
  · rintro ⟨middle, member, after, split, found⟩
    cases middle with
    | nil =>
        obtain ⟨rfl, rfl⟩ := List.cons.inj split
        exact .inl (by simpa using found)
    | cons head middle =>
        obtain ⟨rfl, rfl⟩ := List.cons.inj split
        exact .inr ⟨middle, member, after, rfl, by simpa using found⟩
  · rintro (found | ⟨middle, member, after, rfl, found⟩)
    · exact ⟨[], first, rest, rfl, by simpa using found⟩
    · exact ⟨first :: middle, member, after, rfl, by simpa using found⟩

/-- What holds behind every beginning of a list holds for its first member and behind every
beginning of the rest. -/
theorem forall_split_cons {α : Type} (holds : List α → α → Prop) (before : List α) (first : α)
    (rest : List α) :
    (∀ middle member after, first :: rest = middle ++ member :: after →
        holds (before ++ middle) member) ↔
      holds before first ∧ ∀ middle member after, rest = middle ++ member :: after →
        holds (before ++ [first] ++ middle) member := by
  have dual := exists_split_cons (fun before member => ¬ holds before member) before first rest
  simpa only [not_exists, not_and, not_not, not_or] using not_congr dual

end NotebookLint
