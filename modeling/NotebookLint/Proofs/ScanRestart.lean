import NotebookLint.Proofs.ScanModes

/-! Scanning restarts at line breaks outside literals. Of what precedes such a line break nothing is
left to the scan, so the glyphs and source lines of a text that is cut there are those of its two
parts, one after the other, and so are its blanked text, its interior lines and its comments. -/

set_option autoImplicit false

namespace NotebookLint

/-! ## The scan of the two parts -/

namespace Mode

/-- The mode after a text that `ahead` follows. -/
def after (ahead : Text) : Mode → Text → Mode
  | mode, [] => mode
  | mode, char :: rest => after ahead (mode.step char (rest ++ ahead)).2 rest

theorem Fits.after {mode : Mode} {ahead text : Text} (fits : mode.Fits (text ++ ahead)) :
    (mode.after ahead text).Fits ahead := by
  induction text generalizing mode with
  | nil => exact fits
  | cons char rest ih => exact ih fits.step

/-- A line break outside literals leaves nothing of the mode before it. -/
theorem step_break_of_code {mode : Mode} {rest : Text}
    (outside : (mode.step '\n' rest).1 = .code) : mode.step '\n' rest = (.code, .code false) := by
  match mode with
  | .code _ | .comment => rfl
  | .marker 0 _ | .marker (_ + 1) _ | .opening 0 _ | .opening (_ + 1) _ | .escaped _
  | .doubled _ | .closing 0 | .closing (_ + 1) => cases outside
  | .inside literal =>
      have noBackslash : ('\n' == '\\') = false := rfl
      have isBreak : ('\n' == '\n') = true := rfl
      simp only [Mode.step, stepInside, noBackslash, Bool.false_and, Bool.false_eq_true, if_false,
        isBreak, if_true] at outside ⊢
      split at outside
      · cases outside
      · rename_i noQuote
        rw [if_neg noQuote]
        cases triple : literal.triple with
        | false => simp
        | true => simp [triple] at outside
  | .field literal place =>
      have isBreak : ('\n' == '\n') = true := rfl
      simp only [Mode.step, stepField, isBreak, if_true] at outside ⊢
      cases triple : literal.triple with
      | false => simp
      | true => simp [triple] at outside

private theorem pairAhead_append_break {quote : Char} (quoted : isQuote quote = true)
    (rest after : Text) : pairAhead quote (rest ++ '\n' :: after) = pairAhead quote rest := by
  have noBreak : ('\n' == quote) = false := by
    rw [beq_eq_false_iff_ne]
    rintro rfl
    exact absurd quoted (by decide)
  match rest with
  | [] =>
      cases after with
      | nil => rfl
      | cons next further => simp [pairAhead, noBreak]
  | [first] => simp [pairAhead, noBreak]
  | first :: second :: further => rfl

private theorem openLiteral_append_break {quote : Char} (quoted : isQuote quote = true)
    (rest after : Text) (formatted : Bool) :
    openLiteral quote (rest ++ '\n' :: after) formatted = openLiteral quote rest formatted := by
  rw [openLiteral, openLiteral, pairAhead_append_break quoted]

private theorem stepCode_append_break (char : Char) (rest after : Text) (afterWord : Bool) :
    stepCode char (rest ++ '\n' :: after) afterWord = stepCode char rest afterWord := by
  unfold stepCode
  by_cases quoted : isQuote char = true
  · rw [openLiteral_append_break quoted, if_pos quoted, if_pos quoted]
  · rw [if_neg quoted, if_neg quoted]
    have noQuote : isQuote '\n' = false := rfl
    have noLetter : isMarkerLetter '\n' = false := rfl
    match rest with
    | [] => simp [noQuote, noLetter]
    | [next] => simp [noQuote]
    | next :: second :: further => rfl

private theorem stepInside_append_break {literal : Literal} (quoted : isQuote literal.quote = true)
    {char : Char} {rest : Text} (unescaped : rest = [] → char ≠ '\\') (after : Text) :
    stepInside char (rest ++ '\n' :: after) literal = stepInside char rest literal := by
  unfold stepInside
  rw [pairAhead_append_break quoted]
  cases rest with
  | nil =>
      have plain : (char == '\\') = false := by simpa using unescaped rfl
      have noBrace : char = '\x7b' ∨ char = '\x7d' → ('\n' == char) = false := by
        rintro (rfl | rfl) <;> rfl
      simp only [plain, Bool.false_and, Bool.false_eq_true, if_false, List.nil_append,
        List.head?_cons, List.head?_nil]
      by_cases brace : char = '\x7b' ∨ char = '\x7d'
      · simp [noBrace brace]
      · have noBraces : (char == '\x7b' || char == '\x7d') = false := by simpa using brace
        simp [noBraces]
  | cons next further => rfl

private theorem stepField_append_break (char : Char) (rest after : Text) (literal : Literal)
    (place : Field) :
    stepField char (rest ++ '\n' :: after) literal place = stepField char rest literal place := by
  have step : place.step char (rest ++ '\n' :: after) = place.step char rest := by
    cases place with
    | expression depth =>
        cases rest with
        | nil => simp [Field.step]
        | cons next further => rfl
    | quoted depth quote => rfl
    | format depth => rfl
  rw [stepField, stepField, step]

/-- A step looks ahead no further than a line break, which it takes for the end of the text, unless
a backslash hides that line break. -/
theorem step_append_break {mode : Mode} {char : Char} {rest after : Text}
    (fits : mode.Fits (char :: (rest ++ '\n' :: after))) :
    mode.step char (rest ++ '\n' :: after) = mode.step char rest ∨
      rest = [] ∧ char = '\\' ∧ ∃ literal, mode = .inside literal := by
  match mode, fits with
  | .code afterWord, _ => exact .inl (stepCode_append_break char rest after afterWord)
  | .marker 0 formatted, fits =>
      left
      simp only [Mode.step, openLiteral_append_break fits.isQuote_of_marker]
  | .inside literal, quoted =>
      by_cases hides : rest = [] ∧ char = '\\'
      · obtain ⟨rfl, rfl⟩ := hides
        exact .inr ⟨rfl, rfl, literal, rfl⟩
      · left
        exact stepInside_append_break quoted (fun atEnd same => hides ⟨atEnd, same⟩) after
  | .field literal place, _ => exact .inl (stepField_append_break char rest after literal place)
  | .comment, _ | .marker (_ + 1) _, _ | .opening 0 _, _ | .opening (_ + 1) _, _ | .escaped _, _
  | .doubled _, _ | .closing 0, _ | .closing (_ + 1), _ => exact .inl rfl

/-- Behind a line break a text has no influence on the mode in which the line break is met. -/
theorem after_break {mode : Mode} {text after : Text} (fits : mode.Fits (text ++ '\n' :: after))
    (fitsAlone : mode.Fits (text ++ ['\n'])) :
    mode.after ('\n' :: after) text = mode.after ['\n'] text := by
  induction text generalizing mode with
  | nil => rfl
  | cons char rest ih =>
      rcases step_append_break fits with same | ⟨rfl, rfl, literal, rfl⟩
      · rcases step_append_break fitsAlone with sameAlone | ⟨rfl, rfl, literal, rfl⟩
        · have next : (mode.step char rest).2.Fits (rest ++ '\n' :: after) := same ▸ fits.step
          have nextAlone : (mode.step char rest).2.Fits (rest ++ ['\n']) :=
            sameAlone ▸ fitsAlone.step
          simp only [Mode.after, same, sameAlone]
          exact ih next nextAlone
        · rfl
      · rfl

/-- A line break ends a literal that may not span lines. -/
theorem step_break_inside {literal : Literal} (quoted : isQuote literal.quote = true)
    (single : literal.triple = false) (rest : Text) :
    Mode.step '\n' rest (.inside literal) = (.code, .code false) := by
  have noQuote : ('\n' == literal.quote) = false := by
    rw [beq_eq_false_iff_ne]
    intro same
    rw [← same] at quoted
    cases quoted
  simp [Mode.step, stepInside, noQuote, single]

end Mode

namespace Glyph

/-- The glyphs of a text are those of its beginning, which may look ahead, and those of the rest. -/
theorem scanFrom_append (mode : Mode) (before ahead : Text) :
    ∃ glyphs, glyphs.map char = before ∧
      scanFrom mode (before ++ ahead) = glyphs ++ scanFrom (mode.after ahead before) ahead := by
  induction before generalizing mode with
  | nil => exact ⟨[], rfl, rfl⟩
  | cons char rest ih =>
      obtain ⟨glyphs, chars, split⟩ := ih (mode.step char (rest ++ ahead)).2
      refine ⟨⟨char, (mode.step char (rest ++ ahead)).1⟩ :: glyphs, ?_, ?_⟩
      · rw [List.map_cons, chars]
      · rw [List.cons_append, scanFrom_cons, split]
        rfl

theorem scanFrom_append_break {mode : Mode} {before after : Text}
    (fits : mode.Fits (before ++ '\n' :: after))
    (outside : ((mode.after ('\n' :: after) before).step '\n' after).1 = .code) :
    scanFrom mode (before ++ '\n' :: after) =
      scanFrom mode before ++ ⟨'\n', .code⟩ :: scanFrom (.code false) after := by
  induction before generalizing mode with
  | nil =>
      have restart := Mode.step_break_of_code outside
      rw [List.nil_append, scanFrom_cons]
      simp only [Mode.after] at restart
      rw [restart]
      rfl
  | cons char rest ih =>
      have fitsNext : (mode.step char (rest ++ '\n' :: after)).2.Fits (rest ++ '\n' :: after) :=
        fits.step
      rw [List.cons_append, scanFrom_cons, ih fitsNext outside, scanFrom_cons]
      rcases Mode.step_append_break fits with same | ⟨rfl, rfl, literal, rfl⟩
      · rw [same]
        rfl
      · -- The hidden line break would be part of the literal.
        cases outside

end Glyph

/-- What is shown behind the beginning of a text. -/
theorem Text.drop_blanked (before ahead : Text) :
    (blanked (before ++ ahead)).drop before.length =
      (Glyph.scanFrom (Mode.after ahead (.code false) before) ahead).map Glyph.shown := by
  obtain ⟨glyphs, chars, split⟩ := Glyph.scanFrom_append (.code false) before ahead
  have width : before.length = (glyphs.map Glyph.shown).length := by
    rw [← chars, List.length_map, List.length_map]
  rw [blanked, Glyph.scan, split, List.map_append, width, List.drop_left]

/-! ## Source lines of the two parts -/

namespace SourceLine

def moveDown (lines : Nat) (line : SourceLine) : SourceLine :=
  { line with number := line.number + lines }

theorem ofScan_add (lines number : Nat) (interior : Bool) (started glyphs : List Glyph) :
    ofScan (number + lines) interior started glyphs =
      (ofScan number interior started glyphs).map (moveDown lines) := by
  induction glyphs generalizing number interior started with
  | nil => rfl
  | cons glyph rest ih =>
      simp only [ofScan]
      split
      · rw [List.map_cons, ← ih, Nat.add_right_comm]
        rfl
      · exact ih number interior (glyph :: started)

/-- A line break ends the source lines before it and begins those after it. -/
theorem ofScan_append_break (number : Nat) (interior : Bool) (started glyphs : List Glyph)
    (role : Role) (rest : List Glyph) :
    ofScan number interior started (glyphs ++ ⟨'\n', role⟩ :: rest) =
      ofScan number interior started glyphs ++
        ofScan (number + Text.lineCount (glyphs.map Glyph.char)) (role != .code) [] rest := by
  induction glyphs generalizing number interior started with
  | nil => rfl
  | cons glyph others ih =>
      by_cases isBreak : glyph.char = '\n'
      · have next := ih (number + 1) (glyph.role != .code) []
        simp only [List.cons_append, ofScan, (Glyph.isBreak_iff glyph).mpr isBreak, if_true, next,
          List.map_cons, Text.lineCount, isBreak, List.count_cons_self]
        rw [Nat.add_assoc, Nat.add_comm 1]
      · have visible : glyph.isBreak = false := by simpa [Glyph.isBreak] using isBreak
        have next := ih number interior (glyph :: started)
        simp [ofScan, visible, next, Text.lineCount, isBreak]

theorem exists_head_ofScan (number : Nat) (interior : Bool) (started glyphs : List Glyph) :
    ∃ line others, ofScan number interior started glyphs = line :: others ∧
      line.number = number ∧ line.interior = interior := by
  induction glyphs generalizing started with
  | nil => exact ⟨_, [], rfl, rfl, rfl⟩
  | cons glyph rest ih =>
      simp only [ofScan]
      split
      · exact ⟨_, _, rfl, rfl, rfl⟩
      · exact ih (glyph :: started)

end SourceLine

namespace Text

private theorem role_of_not_interior {before after : Text}
    (outside : lineCount before ∉ interiorLines (before ++ '\n' :: after)) :
    ((Mode.after ('\n' :: after) (.code false) before).step '\n' after).1 = .code := by
  obtain ⟨glyphs, chars, split⟩ := Glyph.scanFrom_append (.code false) before ('\n' :: after)
  by_contra inside
  apply outside
  obtain ⟨line, others, first, number, interior⟩ := SourceLine.exists_head_ofScan
    (1 + lineCount before)
    (((Mode.after ('\n' :: after) (.code false) before).step '\n' after).1 != .code) []
    (Glyph.scanFrom ((Mode.after ('\n' :: after) (.code false) before).step '\n' after).2 after)
  have member : line ∈ sourceLines (before ++ '\n' :: after) := by
    rw [sourceLines, Glyph.scan, split, Glyph.scanFrom_cons, SourceLine.ofScan_append_break, chars,
      first]
    simp
  have begins : line.interior = true := by
    rw [interior]
    simpa using inside
  rw [interiorLines, List.mem_filterMap]
  refine ⟨line, member, ?_⟩
  rw [if_pos begins, number, Nat.add_sub_cancel_left]

/-- The scan restarts on a line that begins outside literals. -/
theorem scan_append_break {before after : Text}
    (outside : lineCount before ∉ interiorLines (before ++ '\n' :: after)) :
    Glyph.scan (before ++ '\n' :: after) =
      Glyph.scan before ++ ⟨'\n', .code⟩ :: Glyph.scan after :=
  Glyph.scanFrom_append_break trivial (role_of_not_interior outside)

theorem blanked_of_scan {before after : Text}
    (restarts : Glyph.scan (before ++ '\n' :: after) =
      Glyph.scan before ++ ⟨'\n', .code⟩ :: Glyph.scan after) :
    blanked (before ++ '\n' :: after) = blanked before ++ '\n' :: blanked after := by
  rw [blanked, restarts, List.map_append, List.map_cons]
  rfl

theorem sourceLines_of_scan {before after : Text}
    (restarts : Glyph.scan (before ++ '\n' :: after) =
      Glyph.scan before ++ ⟨'\n', .code⟩ :: Glyph.scan after) :
    sourceLines (before ++ '\n' :: after) =
      sourceLines before ++ (sourceLines after).map (SourceLine.moveDown (lineCount before)) := by
  rw [sourceLines, restarts, SourceLine.ofScan_append_break, SourceLine.ofScan_add,
    Glyph.map_char_scan]
  rfl

/-- The interior lines of the second part are counted behind the lines of the first one. -/
theorem interiorLines_of_scan {before after : Text}
    (restarts : Glyph.scan (before ++ '\n' :: after) =
      Glyph.scan before ++ ⟨'\n', .code⟩ :: Glyph.scan after) :
    interiorLines (before ++ '\n' :: after) =
      interiorLines before ++ (interiorLines after).map (· + lineCount before) := by
  simp only [interiorLines, sourceLines_of_scan restarts, List.filterMap_append,
    List.filterMap_map, List.map_filterMap]
  congr 1
  apply List.filterMap_congr
  intro line member
  have counted := (getElem?_of_mem_sourceLines member).1
  cases begins : line.interior with
  | false => simp [SourceLine.moveDown, begins]
  | true =>
      simp only [Function.comp_apply, SourceLine.moveDown, begins, if_true, Option.map_some]
      congr 1
      omega

theorem comments_of_scan {before after : Text}
    (restarts : Glyph.scan (before ++ '\n' :: after) =
      Glyph.scan before ++ ⟨'\n', .code⟩ :: Glyph.scan after) :
    comments (before ++ '\n' :: after) =
      comments before ++
        (comments after).map fun (row, comment) => (row + lineCount before, comment) := by
  simp only [comments, sourceLines_of_scan restarts, List.filterMap_append, List.filterMap_map,
    List.map_filterMap]
  congr 1
  apply List.filterMap_congr
  intro line member
  have counted := (getElem?_of_mem_sourceLines member).1
  cases comment : line.comment? with
  | none => simp [SourceLine.moveDown, comment]
  | some text =>
      simp only [Function.comp_apply, SourceLine.moveDown, comment, Option.map_some]
      congr 2
      omega

/-- The views of a text that is cut at a line break are those of its two parts, one below the
other. -/
structure ScansApart (before after : Text) : Prop where
  blankedText : blanked (before ++ '\n' :: after) = blanked before ++ '\n' :: blanked after
  interiorRows : interiorLines (before ++ '\n' :: after) =
    interiorLines before ++ (interiorLines after).map (· + lineCount before)
  commentRows : comments (before ++ '\n' :: after) =
    comments before ++ (comments after).map fun (row, comment) => (row + lineCount before, comment)

theorem scansApart_of_scan {before after : Text}
    (restarts : Glyph.scan (before ++ '\n' :: after) =
      Glyph.scan before ++ ⟨'\n', .code⟩ :: Glyph.scan after) : ScansApart before after :=
  ⟨blanked_of_scan restarts, interiorLines_of_scan restarts, comments_of_scan restarts⟩

/-- The first line begins outside literals. -/
theorem pos_of_mem_interiorLines {source : Text} {row : Nat} (member : row ∈ interiorLines source) :
    0 < row ∧ row < lineCount source := by
  obtain ⟨line, isLine, selected⟩ := List.mem_filterMap.mp member
  obtain ⟨-, bounded, -⟩ := getElem?_of_mem_sourceLines isLine
  obtain ⟨interior, rfl⟩ : line.interior = true ∧ line.number - 1 = row := by simpa using selected
  obtain ⟨first, others, split, -, begins⟩ :=
    SourceLine.exists_head_ofScan 1 false [] (Glyph.scan source)
  have numbers := map_number_sourceLines source
  rw [sourceLines, split, lineCount, List.range'_succ, List.map_cons, List.cons.injEq] at numbers
  rw [sourceLines, split] at isLine
  rcases List.mem_cons.mp isLine with rfl | later
  · rw [begins] at interior
    cases interior
  · have number : line.number ∈ others.map SourceLine.number := List.mem_map_of_mem later
    rw [numbers.2, List.mem_range'_1] at number
    omega

/-- A line break at which the scan restarts begins no interior line. -/
theorem not_mem_interiorLines_of_scan {before after : Text}
    (restarts : Glyph.scan (before ++ '\n' :: after) =
      Glyph.scan before ++ ⟨'\n', .code⟩ :: Glyph.scan after) :
    lineCount before ∉ interiorLines (before ++ '\n' :: after) := by
  rw [interiorLines_of_scan restarts, List.mem_append, List.mem_map]
  rintro (inside | ⟨row, inside, below⟩)
  · exact absurd (pos_of_mem_interiorLines inside).2 (Nat.lt_irrefl _)
  · have positive := (pos_of_mem_interiorLines inside).1
    omega

/-- A text that is cut at a line break outside literals is scanned like its two parts. This is so in
particular if the line break meets an unterminated literal that may not span lines, or a replacement
field of such a literal: neither has an effect on later lines. -/
theorem scansApart_of_outside_or_unterminated (before after : Text) :
    (lineCount before ∉ interiorLines (before ++ '\n' :: after) → ScansApart before after) ∧
      ∀ literal : Literal, literal.triple = false →
        (Mode.after ['\n'] (.code false) before = .inside literal ∨
          ∃ place, Mode.after ['\n'] (.code false) before = .field literal place) →
        lineCount before ∉ interiorLines (before ++ '\n' :: after) ∧ ScansApart before after := by
  refine ⟨fun outside => scansApart_of_scan (scan_append_break outside), ?_⟩
  intro literal single unterminated
  have restarts : Glyph.scan (before ++ '\n' :: after) =
      Glyph.scan before ++ ⟨'\n', .code⟩ :: Glyph.scan after := by
    have fits : Mode.Fits (.code false) (before ++ '\n' :: after) := trivial
    have fitsAlone : Mode.Fits (.code false) (before ++ ['\n']) := trivial
    apply Glyph.scanFrom_append_break fits
    rw [Mode.after_break fits fitsAlone]
    have met := fitsAlone.after
    rcases unterminated with inside | ⟨place, field⟩
    · rw [inside] at met ⊢
      rw [Mode.step_break_inside met single]
    · rw [field]
      simp [Mode.step, Mode.stepField, single]
  exact ⟨not_mem_interiorLines_of_scan restarts, scansApart_of_scan restarts⟩

/-- A replacement field with an open string of its own, cut short by the end of its line. -/
theorem scansApart_of_outside_or_unterminated_field :
    let before : Text := "y = f'\x7bx[\"a # b".toList
    let after : Text := "z = \"\"\"\n# \"\"\" # c".toList
    let literal : Literal := ⟨'\x27', false, true⟩
    literal.triple = false ∧
      Mode.after ['\n'] (.code false) before = .field literal (.quoted 1 '"') ∧
      lineCount before ∉ interiorLines (before ++ '\n' :: after) ∧ ScansApart before after := by
  intro before after literal
  have met : Mode.after ['\n'] (.code false) before = .field literal (.quoted 1 '"') := by
    decide +kernel
  have outside : lineCount before ∉ interiorLines (before ++ '\n' :: after) :=
    ((scansApart_of_outside_or_unterminated before after).2 literal rfl (.inr ⟨_, met⟩)).1
  exact ⟨rfl, met, outside, (scansApart_of_outside_or_unterminated before after).1 outside⟩

end Text

end NotebookLint
