import NotebookLint.Proofs.AlikeLines
import NotebookLint.Proofs.ScannerAgreement

/-! Rewriting the inside of literals. Where no literal is formatted, giving characters inside literals
other characters, none of them a quote, a backslash or a line break, changes no role: the scan takes
the same steps through both texts. Their blanked texts are then equal, and their source lines have the
same code. -/

set_option autoImplicit false

namespace NotebookLint

open Text
open UnclosedBrackets (hideLiterals)

/-- Whether a character has no meaning of its own inside a literal that is not formatted. -/
def isPlain (char : Char) : Bool :=
  !isQuote char && char != '\\' && char != '\n'

theorem isPlain_iff (char : Char) :
    isPlain char = true ↔ isQuote char = false ∧ char ≠ '\\' ∧ char ≠ '\n' := by
  simp [isPlain, and_assoc]

namespace Glyph

/-- Whether a glyph may give way to a character: to its own, or inside a literal to any that is plain
if it is plain itself. -/
def GivesWay (glyph : Glyph) (char : Char) : Prop :=
  glyph.char = char ∨ glyph.role = .body ∧ isPlain glyph.char = true ∧ isPlain char = true

instance (glyph : Glyph) (char : Char) : Decidable (glyph.GivesWay char) :=
  inferInstanceAs (Decidable (_ ∨ _))

/-- Two glyphs of the same role that differ inside a literal only. -/
structure Requoted (left right : Glyph) : Prop where
  role : left.role = right.role
  char : left.GivesWay right.char

end Glyph

/-- Two texts of the same length that differ inside the literals of the first only, and there in plain
characters. -/
def Text.Requoted (left right : Text) : Prop :=
  List.Forall₂ Glyph.GivesWay (Glyph.scan left) right

instance (left right : Text) : Decidable (left.Requoted right) :=
  inferInstanceAs (Decidable (List.Forall₂ _ _ _))

/-! ## The characters ahead -/

/-- Two characters that are equal or both plain. -/
def SameOrPlain (left right : Char) : Prop :=
  left = right ∨ isPlain left = true ∧ isPlain right = true

namespace SameOrPlain

variable {left right : Char}

theorem isQuote_eq (same : SameOrPlain left right) : isQuote left = isQuote right := by
  rcases same with rfl | ⟨leftPlain, rightPlain⟩
  · rfl
  · rw [isPlain_iff] at leftPlain rightPlain
    rw [leftPlain.1, rightPlain.1]

theorem beq_eq (same : SameOrPlain left right) {quote : Char} (quoted : isQuote quote = true) :
    (left == quote) = (right == quote) := by
  rcases same with rfl | ⟨leftPlain, rightPlain⟩
  · rfl
  · have differs : ∀ char, isPlain char = true → (char == quote) = false := by
      intro char plain
      rw [beq_eq_false_iff_ne]
      rintro rfl
      rw [isPlain, quoted] at plain
      cases plain
    rw [differs left leftPlain, differs right rightPlain]

theorem pairAhead_eq {left right : Text} (same : List.Forall₂ SameOrPlain left right) {quote : Char}
    (quoted : isQuote quote = true) : pairAhead quote left = pairAhead quote right := by
  cases same with
  | nil => rfl
  | cons first others =>
      cases others with
      | nil => rfl
      | cons second further => simp only [pairAhead, first.beq_eq quoted, second.beq_eq quoted]

theorem isEmpty_eq {left right : Text} (same : List.Forall₂ SameOrPlain left right) :
    left.isEmpty = right.isEmpty := by
  cases same <;> rfl

theorem headIsQuote_eq {left right : Text} (same : List.Forall₂ SameOrPlain left right) :
    left.head?.any isQuote = right.head?.any isQuote := by
  cases same with
  | nil => rfl
  | cons first others => simp [first.isQuote_eq]

end SameOrPlain

/-- A text and one that its glyphs give way to agree in all characters that are not plain. -/
theorem Glyph.forall₂_sameOrPlain {mode : Mode} {left right : Text}
    (same : List.Forall₂ GivesWay (scanFrom mode left) right) :
    List.Forall₂ SameOrPlain left right := by
  induction left generalizing mode right with
  | nil =>
      cases same
      exact .nil
  | cons char rest ih =>
      rw [scanFrom_cons] at same
      cases same with
      | cons first others =>
          refine .cons ?_ (ih others)
          rcases first with equal | ⟨-, plain⟩
          · exact .inl equal
          · exact .inr plain

/-! ## Both scans take the same steps -/

namespace Mode

/-- Whether a mode is outside literals. -/
def Outside : Mode → Prop
  | .code _ | .comment | .marker _ _ => True
  | _ => False

/-- Outside literals a character is part of none, and only a quote outside comments leads into one. -/
theorem Outside.step {mode : Mode} (outside : mode.Outside) {char : Char} {rest : Text}
    (fits : mode.Fits (char :: rest)) :
    (mode.step char rest).1 ≠ .body ∧
      (mode ≠ .comment ∧ isQuote char = true ∨ (mode.step char rest).2.Outside) := by
  match mode, fits, outside with
  | .code afterWord, _, _ =>
      simp only [Mode.step]
      rcases stepCode_cases char rest afterWord with ⟨-, taken⟩ | ⟨quote, taken⟩ |
        ⟨-, letters, taken⟩ | ⟨-, -, taken⟩ <;> rw [taken]
      · exact ⟨by simp, .inr trivial⟩
      · exact ⟨by simp, .inl ⟨by simp, quote⟩⟩
      · exact ⟨by simp, .inr trivial⟩
      · exact ⟨by simp, .inr trivial⟩
  | .comment, _, _ =>
      simp only [Mode.step]
      split <;> exact ⟨by simp, .inr trivial⟩
  | .marker 0 formatted, fits, _ =>
      exact ⟨by simp [Mode.step], .inl ⟨by simp, fits.isQuote_of_marker⟩⟩
  | .marker (letters + 1) formatted, _, _ => exact ⟨by simp [Mode.step], .inr trivial⟩

private theorem openLiteral_eq {left right : Text} (same : List.Forall₂ SameOrPlain left right)
    {quote : Char} (quoted : isQuote quote = true) (formatted : Bool) :
    openLiteral quote left formatted = openLiteral quote right formatted := by
  rw [openLiteral, openLiteral, SameOrPlain.pairAhead_eq same quoted]

/-- A marker letter in code looks at the next character, which is not yet inside a literal. -/
private theorem stepCode_eq (char : Char) (afterWord : Bool) {left right : Text}
    (same : List.Forall₂ SameOrPlain left right)
    (next : isQuote char = false → left.head? = right.head?) :
    stepCode char left afterWord = stepCode char right afterWord := by
  unfold stepCode
  by_cases quoted : isQuote char = true
  · rw [openLiteral_eq same quoted false, if_pos quoted, if_pos quoted]
  · rw [if_neg quoted, if_neg quoted]
    have first := next (by simpa using quoted)
    cases same with
    | nil => rfl
    | @cons one other ones others head tail =>
        obtain rfl : one = other := by simpa using first
        simp only [SameOrPlain.headIsQuote_eq tail]

private theorem stepInside_eq {literal : Literal} (quoted : isQuote literal.quote = true)
    (plain : literal.formatted = false) (char : Char) {left right : Text}
    (same : List.Forall₂ SameOrPlain left right) :
    stepInside char left literal = stepInside char right literal := by
  unfold stepInside
  simp only [plain, Bool.false_and, Bool.false_eq_true, if_false, SameOrPlain.isEmpty_eq same,
    SameOrPlain.pairAhead_eq same quoted]

/-- A plain character inside a literal belongs to it and leads nowhere else. -/
private theorem stepInside_of_isPlain {literal : Literal} (quoted : isQuote literal.quote = true)
    (unformatted : literal.formatted = false) {char : Char} (plain : isPlain char = true)
    (ahead : Text) : stepInside char ahead literal = (.body, .inside literal) := by
  obtain ⟨noQuote, noBackslash, noBreak⟩ := (isPlain_iff char).mp plain
  have noEnd : char ≠ literal.quote := by
    rintro rfl
    rw [noQuote] at quoted
    cases quoted
  simp [stepInside, noBackslash, noEnd, noBreak, unformatted]

/-- Outside literals no character gives way to another. -/
private theorem Outside.head?_eq {mode : Mode} (outside : mode.Outside) {left right : Text}
    (fits : mode.Fits left)
    (same : List.Forall₂ Glyph.GivesWay (Glyph.scanFrom mode left) right) :
    left.head? = right.head? := by
  cases left with
  | nil =>
      cases same
      rfl
  | cons char rest =>
      rw [Glyph.scanFrom_cons] at same
      cases same with
      | cons first others =>
          rcases first with equal | ⟨inside, -⟩
          · exact congrArg some equal
          · exact absurd inside (outside.step fits).1

/-- The same character leads the same way, whatever gives way behind it. -/
private theorem ReadsPlainly.step_ahead {mode : Mode} {char : Char} {rest others : Text}
    (reads : mode.ReadsPlainly (char :: rest))
    (later : List.Forall₂ Glyph.GivesWay (Glyph.scanFrom (mode.step char rest).2 rest) others) :
    mode.step char rest = mode.step char others := by
  have ahead := Glyph.forall₂_sameOrPlain later
  match mode, reads.fits, reads.plain with
  | .code afterWord, fits, _ =>
      refine stepCode_eq char afterWord ahead fun noQuote => ?_
      have code : Mode.Outside (.code afterWord) := trivial
      rcases (code.step fits).2 with ⟨-, quote⟩ | outside
      · rw [noQuote] at quote
        cases quote
      · exact outside.head?_eq reads.fits.step later
  | .marker 0 formatted, fits, _ =>
      simp only [Mode.step, openLiteral_eq ahead fits.isQuote_of_marker]
  | .inside literal, quoted, plain => exact stepInside_eq quoted plain char ahead
  | .comment, _, _ | .marker (_ + 1) _, _, _ | .opening 0 _, _, _ | .opening (_ + 1) _, _, _
  | .escaped _, _, _ | .closing 0, _, _ | .closing (_ + 1), _, _ => rfl

/-- One plain character of a literal leads the same way as another. -/
private theorem ReadsPlainly.step_inside {mode : Mode} {char other : Char} {rest : Text}
    (reads : mode.ReadsPlainly (char :: rest)) (inside : (mode.step char rest).1 = .body)
    (plain : isPlain char = true) (otherPlain : isPlain other = true) (others : Text) :
    mode.step char rest = mode.step other others := by
  have notOutside : ¬mode.Outside := fun outside => (outside.step reads.fits).1 inside
  match mode, reads.fits, reads.plain with
  | .inside literal, quoted, unformatted =>
      simp only [Mode.step]
      rw [stepInside_of_isPlain quoted unformatted plain,
        stepInside_of_isPlain quoted unformatted otherPlain]
  | .escaped literal, _, _ => rfl
  | .code _, _, _ | .comment, _, _ | .marker _ _, _, _ => exact absurd trivial notOutside
  | .opening 0 _, _, _ | .opening (_ + 1) _, _, _ | .closing 0, _, _ | .closing (_ + 1), _, _ =>
      cases inside

/-- A step goes the same way with a character that the read glyph gives way to. -/
theorem ReadsPlainly.step_eq {mode : Mode} {char other : Char} {rest others : Text}
    (reads : mode.ReadsPlainly (char :: rest))
    (here : Glyph.GivesWay ⟨char, (mode.step char rest).1⟩ other)
    (later : List.Forall₂ Glyph.GivesWay (Glyph.scanFrom (mode.step char rest).2 rest) others) :
    mode.step char rest = mode.step other others := by
  rcases here with equal | ⟨inside, plain, otherPlain⟩
  · obtain rfl : char = other := equal
    exact reads.step_ahead later
  · exact reads.step_inside inside plain otherPlain others

end Mode

/-- The scan of a text that glyphs give way to has the roles of these glyphs. -/
theorem Glyph.forall₂_requoted {mode : Mode} {left right : Text} (reads : mode.ReadsPlainly left)
    (same : List.Forall₂ GivesWay (scanFrom mode left) right) :
    List.Forall₂ Requoted (scanFrom mode left) (scanFrom mode right) := by
  induction left generalizing mode right with
  | nil =>
      cases same
      exact .nil
  | cons char rest ih =>
      rw [scanFrom_cons] at same
      cases same with
      | @cons _ other _ others here later =>
          have step := reads.step_eq here later
          rw [scanFrom_cons, scanFrom_cons, ← step]
          exact .cons ⟨rfl, here⟩ (ih reads.step later)

/-! ## Views of both texts -/

namespace Glyph.Requoted

variable {left right : Glyph}

private theorem ne_break {char : Char} (plain : isPlain char = true) : char ≠ '\n' :=
  ((isPlain_iff char).mp plain).2.2

theorem isBreak_eq (same : Requoted left right) : left.isBreak = right.isBreak := by
  rcases same.char with equal | ⟨-, leftPlain, rightPlain⟩
  · rw [isBreak, isBreak, equal]
  · simp [isBreak, ne_break leftPlain, ne_break rightPlain]

theorem shown_eq (same : Requoted left right) : left.shown = right.shown := by
  rcases same.char with equal | ⟨inside, leftPlain, rightPlain⟩
  · rw [shown, shown, equal, same.role]
  · have alsoInside : right.role = .body := by rw [← same.role, inside]
    simp [shown, ne_break leftPlain, ne_break rightPlain, inside, alsoInside]

theorem concealed_eq (same : Requoted left right) : left.concealed = right.concealed := by
  rcases same.char with equal | ⟨inside, leftPlain, rightPlain⟩
  · rw [concealed, concealed, equal, same.role]
  · have alsoInside : right.role = .body := by rw [← same.role, inside]
    simp [concealed, UnclosedBrackets.hidden, ne_break leftPlain, ne_break rightPlain, inside,
      alsoInside]

end Glyph.Requoted

namespace Text

def firstLine (text : Text) : Text :=
  text.takeWhile (· != '\n')

@[simp] theorem firstLine_break (rest : Text) : firstLine ('\n' :: rest) = [] := rfl

theorem firstLine_cons {char : Char} (visible : char ≠ '\n') (rest : Text) :
    firstLine (char :: rest) = char :: firstLine rest := by
  simp [firstLine, visible]

namespace SameUpToMark

private theorem cons (char : Char) {left right : Text} (same : SameUpToMark left right) :
    SameUpToMark (char :: left) (char :: right) := by
  cases same with
  | same => exact .same _
  | mark before known old new => exact .mark (char :: before) known old new

/-- The first lines of texts that are the same up to a mark are so, too. -/
private theorem firstLine {left right : Text} (same : SameUpToMark left right) :
    SameUpToMark (firstLine left) (firstLine right) := by
  cases same with
  | same => exact .same _
  | @mark before mark known old new =>
      have visible : mark ≠ '\n' := by
        rintro rfl
        exact absurd known (by decide)
      induction before with
      | nil =>
          rw [List.nil_append, List.nil_append, firstLine_cons visible, firstLine_cons visible]
          exact .mark [] known _ _
      | cons char others ih =>
          by_cases isBreak : char = '\n'
          · subst isBreak
            exact .same []
          · rw [List.cons_append, List.cons_append, firstLine_cons isBreak, firstLine_cons isBreak]
            exact ih.cons char

end SameUpToMark

end Text

/-- A text that is entered outside literals is the same up to its first quote. -/
theorem Mode.Outside.sameUpToMark {mode : Mode} (outside : mode.Outside) {left right : Text}
    (fits : mode.Fits left) (same : List.Forall₂ Glyph.GivesWay (Glyph.scanFrom mode left) right) :
    SameUpToMark left right := by
  induction left generalizing mode right with
  | nil =>
      cases same
      exact .same []
  | cons char rest ih =>
      have first := outside.head?_eq fits same
      rw [Glyph.scanFrom_cons] at same
      cases same with
      | @cons _ other _ others here later =>
          obtain rfl : char = other := by simpa using first
          rcases (outside.step fits).2 with ⟨-, quote⟩ | stays
          · exact .mark [] (by rw [isMark, quote, Bool.or_true]) rest others
          · exact (ih stays fits.step later).cons char

namespace SourceLine

private theorem sameCode_ofGlyphs (number : Nat) {interior : Bool} {left right : List Glyph}
    (same : List.Forall₂ Glyph.Requoted left right)
    (raw : interior = false → SameUpToMark (left.map Glyph.char) (right.map Glyph.char)) :
    SameCode (ofGlyphs number interior left) (ofGlyphs number interior right) where
  number := rfl
  interior := rfl
  raw := raw
  clean := by
    have shown : left.map Glyph.shown = right.map Glyph.shown :=
      map_eq_of_forall₂ same fun _ _ glyph => glyph.shown_eq
    simp only [ofGlyphs, shown]
    exact .same _

/-- Texts that differ inside literals only have source lines with the same code. A line that begins
outside literals is entered there again, so that it is the same up to its first quote. -/
theorem forall₂_sameCode {mode : Mode} {left right : Text} (reads : mode.ReadsPlainly left)
    (same : List.Forall₂ Glyph.GivesWay (Glyph.scanFrom mode left) right) (number : Nat)
    {interior : Bool} {started begun : List Glyph} (read : List.Forall₂ Glyph.Requoted started begun)
    (raw : interior = false → SameUpToMark (started.reverse.map Glyph.char ++ firstLine left)
      (begun.reverse.map Glyph.char ++ firstLine right)) :
    List.Forall₂ SameCode (ofScan number interior started (Glyph.scanFrom mode left))
      (ofScan number interior begun (Glyph.scanFrom mode right)) := by
  induction left generalizing mode right number interior started begun with
  | nil =>
      cases same
      refine .cons (sameCode_ofGlyphs number (List.rel_reverse read) ?_) .nil
      simpa [firstLine] using raw
  | cons char rest ih =>
      rw [Glyph.scanFrom_cons] at same
      cases same with
      | @cons _ other _ others here later =>
          have step := reads.step_eq here later
          have glyph : Glyph.Requoted ⟨char, (mode.step char rest).1⟩
            ⟨other, (mode.step char rest).1⟩ := ⟨rfl, here⟩
          have breaks : (char == '\n') = (other == '\n') := glyph.isBreak_eq
          rw [Glyph.scanFrom_cons, Glyph.scanFrom_cons, ← step]
          by_cases isBreak : char = '\n'
          · subst isBreak
            obtain rfl : other = '\n' := by simpa using breaks.symm
            simp only [ofScan, Glyph.isBreak, beq_self_eq_true, if_true]
            refine .cons (sameCode_ofGlyphs number (List.rel_reverse read) ?_) ?_
            · simpa using raw
            · refine ih reads.step later (number + 1) .nil fun outside => ?_
              have code : (mode.step '\n' rest).1 = .code := by simpa using outside
              have restarts : (mode.step '\n' rest).2.Outside := by
                rw [Mode.step_break_of_code code]
                trivial
              exact (restarts.sameUpToMark reads.step.fits later).firstLine
          · have otherwise : other ≠ '\n' := by simpa [isBreak] using breaks.symm
            simp only [ofScan, Glyph.isBreak, beq_eq_false_iff_ne.mpr isBreak,
              beq_eq_false_iff_ne.mpr otherwise, Bool.false_eq_true, if_false]
            refine ih reads.step later number (.cons glyph read) ?_
            simpa [firstLine_cons isBreak, firstLine_cons otherwise] using raw

end SourceLine

/-! ## Requoted texts -/

private theorem Glyph.unformatted_of_forall₂ {left right : List Glyph}
    (same : List.Forall₂ Requoted left right)
    (unmarked : ∀ glyph ∈ left, glyph.role = .marker → isFormatLetter glyph.char = false) :
    ∀ glyph ∈ right, glyph.role = .marker → isFormatLetter glyph.char = false := by
  induction same with
  | nil => exact unmarked
  | @cons first second firsts seconds glyph others ih =>
      rw [List.forall_mem_cons] at unmarked ⊢
      refine ⟨fun marker => ?_, ih unmarked.2⟩
      have alsoMarker : first.role = .marker := by rw [glyph.role, marker]
      rcases glyph.char with equal | ⟨inside, -⟩
      · rw [← equal]
        exact unmarked.1 alsoMarker
      · rw [alsoMarker] at inside
        cases inside

namespace Text.Requoted

variable {left right : Text}

theorem glyphs (same : left.Requoted right) (unformatted : left.Unformatted) :
    List.Forall₂ Glyph.Requoted (Glyph.scan left) (Glyph.scan right) :=
  Glyph.forall₂_requoted (Mode.readsPlainly unformatted) same

theorem sameUpToMark (same : left.Requoted right) : SameUpToMark left right :=
  (show Mode.Outside (.code false) from trivial).sameUpToMark trivial same

theorem sameCode (same : left.Requoted right) (unformatted : left.Unformatted) :
    SameCode left right := by
  refine SourceLine.forall₂_sameCode (Mode.readsPlainly unformatted) same 1 .nil fun _ => ?_
  exact same.sameUpToMark.firstLine

/-- What the bracket rule sees of both texts is the same. -/
theorem hideLiterals_eq (same : left.Requoted right) (unformatted : left.Unformatted) :
    hideLiterals left = hideLiterals right := by
  have glyphs := same.glyphs unformatted
  have alsoUnformatted : right.Unformatted := Glyph.unformatted_of_forall₂ glyphs unformatted
  rw [UnclosedBrackets.hideLiterals_eq unformatted, UnclosedBrackets.hideLiterals_eq alsoUnformatted]
  exact map_eq_of_forall₂ glyphs fun _ _ glyph => glyph.concealed_eq

end Text.Requoted

end NotebookLint
