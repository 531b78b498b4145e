import Mathlib.Data.List.Chain
import NotebookLint.Proofs.Scan

/-! What the modes of a scan promise about the characters ahead. The scan looks ahead when it enters
a marker or a delimiter, and by the promises that it keeps from there on, quotes are the only
delimiters and a word is shown as a whole or not at all. -/

set_option autoImplicit false

namespace NotebookLint

theorem eq_of_pairAhead {quote : Char} {ahead : Text} (pair : pairAhead quote ahead = true) :
    ∃ rest, ahead = quote :: quote :: rest := by
  match ahead, pair with
  | first :: second :: rest, pair =>
      simp only [pairAhead, Bool.and_eq_true, beq_iff_eq] at pair
      exact ⟨rest, by rw [pair.1, pair.2]⟩

theorem not_pairAhead_of_mem {quote char : Char} {ahead : Text} (inside : char ∈ ahead.take 2)
    (other : char ≠ quote) : pairAhead quote ahead = false := by
  rw [Bool.eq_false_iff]
  intro pair
  obtain ⟨rest, rfl⟩ := eq_of_pairAhead pair
  exact other (by simpa using inside)

theorem isWordChar_of_isMarkerLetter {char : Char} (letter : isMarkerLetter char = true) :
    isWordChar char = true := by
  simp only [isMarkerLetter, Bool.or_eq_true, beq_iff_eq] at letter
  rcases letter with ((((((rfl | rfl) | rfl) | rfl) | rfl) | rfl) | rfl) | rfl <;> decide

theorem not_isWordChar_of_isQuote {char : Char} (quote : isQuote char = true) :
    isWordChar char = false := by
  simp only [isQuote, Bool.or_eq_true, beq_iff_eq] at quote
  rcases quote with rfl | rfl <;> decide

namespace Mode

/-- What a mode promises about the text ahead: the marker letters, quotes or delimiters that it is
about to read are there, and literals are opened by quotes. -/
def Fits : Mode → Text → Prop
  | .code _, _ | .comment, _ => True
  | .marker letters _, text =>
      ∃ marks quote rest, text = marks ++ quote :: rest ∧ marks.length = letters ∧
        (∀ mark ∈ marks, isMarkerLetter mark = true) ∧ isQuote quote = true
  | .opening quotes literal, text =>
      isQuote literal.quote = true ∧
        ∃ rest, text = List.replicate (quotes + 1) literal.quote ++ rest
  | .inside literal, _ | .escaped literal, _ | .doubled literal, _ | .field literal _, _ =>
      isQuote literal.quote = true
  | .closing quotes, text =>
      ∃ quote rest, isQuote quote = true ∧ text = List.replicate (quotes + 1) quote ++ rest

namespace Fits

variable {char : Char} {rest : Text}

theorem isQuote_of_marker {formatted : Bool} (fits : Fits (.marker 0 formatted) (char :: rest)) :
    isQuote char = true := by
  obtain ⟨marks, quote, ahead, split, noMarks, -, isOpening⟩ := fits
  obtain rfl : marks = [] := List.eq_nil_of_length_eq_zero noMarks
  rw [(List.cons.inj split).1]
  exact isOpening

theorem isMarkerLetter_of_marker {letters : Nat} {formatted : Bool}
    (fits : Fits (.marker (letters + 1) formatted) (char :: rest)) : isMarkerLetter char = true := by
  obtain ⟨marks, quote, ahead, split, count, known, -⟩ := fits
  cases marks with
  | nil => simp at count
  | cons mark others =>
      rw [(List.cons.inj split).1]
      exact known mark List.mem_cons_self

theorem isQuote_of_opening {quotes : Nat} {literal : Literal}
    (fits : Fits (.opening quotes literal) (char :: rest)) : isQuote char = true := by
  obtain ⟨quoted, ahead, split⟩ := fits
  rw [(List.cons.inj split).1]
  exact quoted

theorem isQuote_of_closing {quotes : Nat} (fits : Fits (.closing quotes) (char :: rest)) :
    isQuote char = true := by
  obtain ⟨quote, ahead, quoted, split⟩ := fits
  rw [(List.cons.inj split).1]
  exact quoted

end Fits

theorem fits_openLiteral {quote : Char} (isOpening : isQuote quote = true) (ahead : Text)
    (formatted : Bool) : (openLiteral quote ahead formatted).Fits ahead := by
  unfold openLiteral
  split
  · rename_i pair
    obtain ⟨rest, rfl⟩ := eq_of_pairAhead pair
    exact ⟨isOpening, rest, rfl⟩
  · exact isOpening

private theorem fits_stepCode (char : Char) (ahead : Text) (afterWord : Bool) :
    (stepCode char ahead afterWord).2.Fits ahead := by
  unfold stepCode
  split
  · trivial
  · split
    · rename_i isOpening
      exact fits_openLiteral isOpening ahead false
    · split
      · split
        · rename_i next further
          split
          · rename_i isOpening
            exact ⟨[], next, further, rfl, rfl, by simp, isOpening⟩
          · split
            · rename_i marked
              cases further with
              | nil => simp at marked
              | cons quote rest =>
                  simp only [List.head?_cons, Option.any_some, Bool.and_eq_true] at marked
                  exact ⟨[next], quote, rest, rfl, rfl, by simpa using marked.1, marked.2⟩
            · trivial
        · trivial
      · trivial

private theorem fits_stepInside {literal : Literal} (opened : isQuote literal.quote = true)
    (char : Char) (ahead : Text) : (stepInside char ahead literal).2.Fits ahead := by
  unfold stepInside
  split
  · exact opened
  · split
    · rename_i closes
      cases triple : literal.triple with
      | false => trivial
      | true =>
          simp only [triple, Bool.not_true, Bool.false_or, Bool.and_eq_true] at closes
          obtain ⟨rest, rfl⟩ := eq_of_pairAhead closes.2
          exact ⟨literal.quote, rest, opened, rfl⟩
    · split
      · cases literal.triple with
        | false => trivial
        | true => exact opened
      · split
        · split
          · exact opened
          · split <;> exact opened
        · exact opened

private theorem fits_stepField {literal : Literal} (opened : isQuote literal.quote = true)
    (char : Char) (ahead : Text) (place : Field) :
    (stepField char ahead literal place).2.Fits ahead := by
  unfold stepField
  split
  · cases literal.triple with
    | false => trivial
    | true => exact opened
  · cases next : (place.step char ahead).2 <;> simp only [next] <;> exact opened

/-- Every step keeps what it promises. -/
theorem Fits.step {mode : Mode} {char : Char} {rest : Text} (fits : mode.Fits (char :: rest)) :
    (mode.step char rest).2.Fits rest := by
  match mode, fits with
  | .code afterWord, _ => exact fits_stepCode char rest afterWord
  | .comment, _ =>
      simp only [Mode.step]
      split <;> trivial
  | .marker 0 formatted, ⟨marks, quote, ahead, split, noMarks, _, isOpening⟩ =>
      obtain rfl : marks = [] := List.eq_nil_of_length_eq_zero noMarks
      obtain ⟨rfl, rfl⟩ := List.cons.inj split
      exact fits_openLiteral isOpening _ formatted
  | .marker (letters + 1) formatted, ⟨marks, quote, ahead, split, count, letter, isOpening⟩ =>
      cases marks with
      | nil => simp at count
      | cons mark others =>
          obtain ⟨rfl, rfl⟩ := List.cons.inj split
          exact ⟨others, quote, ahead, rfl, by simpa using count,
            fun other member => letter other (by simp [member]), isOpening⟩
  | .opening 0 literal, ⟨opened, _⟩ => exact opened
  | .opening (quotes + 1) literal, ⟨opened, ahead, split⟩ =>
      exact ⟨opened, ahead, (List.cons.inj split).2⟩
  | .inside literal, opened => exact fits_stepInside opened char rest
  | .escaped literal, opened => exact opened
  | .doubled literal, opened => exact opened
  | .field literal place, opened => exact fits_stepField opened char rest place
  | .closing 0, _ => trivial
  | .closing (quotes + 1), ⟨quote, ahead, opened, split⟩ =>
      exact ⟨quote, ahead, opened, (List.cons.inj split).2⟩

/-- The modes in which a word goes on as it is shown so far. -/
def KeepsWord : Mode → Prop
  | .code afterWord => afterWord = true
  | .field _ (.expression _) => True
  | _ => False

end Mode

namespace Role

/-- Whether a character of this role is shown as itself. -/
def isKept : Role → Bool
  | .code | .delimiter | .expression => true
  | .marker | .body | .comment => false

end Role

namespace Glyph

theorem shown_of_isKept {glyph : Glyph} (kept : glyph.role.isKept = true) :
    glyph.shown = glyph.char := by
  unfold shown
  split
  · rename_i isBreak
    exact (eq_of_beq isBreak).symm
  · cases role : glyph.role <;> simp_all [Role.isKept]

def ofRole (role : Role) (text : Text) : List Glyph :=
  text.map fun char => ⟨char, role⟩

@[simp] theorem ofRole_nil (role : Role) : ofRole role [] = [] := rfl

@[simp] theorem ofRole_cons (role : Role) (char : Char) (rest : Text) :
    ofRole role (char :: rest) = ⟨char, role⟩ :: ofRole role rest := rfl

theorem map_shown_ofRole_of_isKept {role : Role} (kept : role.isKept = true) (text : Text) :
    (ofRole role text).map shown = text := by
  rw [ofRole, List.map_map]
  exact List.map_id'' (fun char => shown_of_isKept kept) text

theorem map_shown_ofRole_of_not_isKept {role : Role} (hidden : role.isKept = false) {text : Text}
    (unbroken : '\n' ∉ text) : (ofRole role text).map shown = List.replicate text.length ' ' := by
  rw [ofRole, List.map_map, List.eq_replicate_iff]
  refine ⟨List.length_map _, ?_⟩
  intro char member
  obtain ⟨original, inside, rfl⟩ := List.mem_map.mp member
  have noBreak : original ≠ '\n' := by
    rintro rfl
    exact unbroken inside
  have noShow : (⟨original, role⟩ : Glyph).shown = ' ' := by
    cases role <;> simp_all [shown, Role.isKept]
  exact noShow

/-- Only kept characters are shown as word characters. -/
theorem isKept_of_shown_isWordChar {glyph : Glyph} (word : isWordChar glyph.shown = true) :
    glyph.role.isKept = true := by
  unfold shown at word
  split at word
  · exact absurd word (by decide)
  · cases role : glyph.role
    case marker | body | comment =>
      simp only [role] at word
      exact absurd word (by decide)
    all_goals rfl

end Glyph

namespace Mode

private theorem plain_of_isWordChar {char : Char} (word : isWordChar char = true) :
    char ≠ '#' ∧ char ≠ '\n' ∧ char ≠ ':' ∧ char ≠ '!' ∧ isQuote char = false ∧
      isOpener char = false ∧ isCloser char = false := by
  refine ⟨?_, ?_, ?_, ?_, ?_, ?_, ?_⟩
  iterate 4
    rintro rfl
    exact absurd word (by decide)
  · cases quote : isQuote char with
    | false => rfl
    | true => rw [not_isWordChar_of_isQuote quote] at word; cases word
  · cases opener : isOpener char with
    | false => rfl
    | true =>
        simp only [isOpener, Bool.or_eq_true, beq_iff_eq] at opener
        rcases opener with (rfl | rfl) | rfl <;> exact absurd word (by decide)
  · cases closer : isCloser char with
    | false => rfl
    | true =>
        simp only [isCloser, Bool.or_eq_true, beq_iff_eq] at closer
        rcases closer with (rfl | rfl) | rfl <;> exact absurd word (by decide)

/-- A word that is shown so far is shown further. -/
theorem KeepsWord.isKept_step {mode : Mode} (keeps : mode.KeepsWord) {char : Char}
    (word : isWordChar char = true) (rest : Text) :
    (mode.step char rest).1.isKept = true := by
  obtain ⟨noHash, noBreak, noColon, noMark, noQuote, noOpener, noCloser⟩ :=
    plain_of_isWordChar word
  match mode, keeps with
  | .code true, _ => simp [Mode.step, stepCode, noHash, noQuote, Role.isKept]
  | .field literal (.expression depth), _ =>
      simp [Mode.step, stepField, Field.step, noBreak, noColon, noMark, noQuote, noOpener,
        noCloser, Role.isKept]

private theorem keepsWord_stepCode {char : Char} (word : isWordChar char = true) (ahead : Text)
    (afterWord : Bool) (kept : (stepCode char ahead afterWord).1.isKept = true) :
    (stepCode char ahead afterWord).2.KeepsWord := by
  obtain ⟨noHash, _, _, _, noQuote, _, _⟩ := plain_of_isWordChar word
  unfold stepCode at kept ⊢
  simp only [beq_iff_eq, noHash, if_false, noQuote, Bool.false_eq_true] at kept ⊢
  split
  · rename_i marked
    rw [if_pos marked] at kept
    cases ahead with
    | nil => exact word
    | cons next further =>
        dsimp only at kept ⊢
        split
        · rename_i isOpening
          simp [isOpening, Role.isKept] at kept
        · rename_i noOpening
          split
          · rename_i second
            simp [noOpening, second, Role.isKept] at kept
          · exact word
  · exact word

private theorem keepsWord_stepField {char : Char} (word : isWordChar char = true) (ahead : Text)
    (literal : Literal) (place : Field)
    (kept : (stepField char ahead literal place).1.isKept = true) :
    (stepField char ahead literal place).2.KeepsWord := by
  obtain ⟨_, noBreak, noColon, noMark, noQuote, noOpener, noCloser⟩ := plain_of_isWordChar word
  cases place with
  | expression depth =>
      simp [stepField, Field.step, noBreak, noColon, noMark, noQuote, noOpener, noCloser, KeepsWord]
  | quoted depth quote =>
      by_cases closes : char = quote
      · subst closes
        simp [stepField, Field.step, noBreak, KeepsWord]
      · simp [stepField, Field.step, noBreak, closes, Role.isKept] at kept
  | format depth =>
      have noBrace : char ≠ '\x7b' := by
        rintro rfl
        exact absurd word (by decide)
      have noEnd : char ≠ '\x7d' := by
        rintro rfl
        exact absurd word (by decide)
      simp [stepField, Field.step, noBreak, noBrace, noEnd, Role.isKept] at kept

/-- Inside a literal, all but line breaks and quotes of the literal's own kind is hidden. -/
theorem role_stepInside {char : Char} {literal : Literal} (noQuote : char ≠ literal.quote)
    (noBreak : char ≠ '\n') (ahead : Text) : (stepInside char ahead literal).1 = .body := by
  unfold stepInside
  simp only [beq_iff_eq, noBreak, if_false, beq_eq_false_iff_ne.mpr noQuote, Bool.false_and,
    Bool.false_eq_true]
  split
  · rfl
  · split
    · split
      · rfl
      · split <;> rfl
    · rfl

/-- After a word character that is shown, the word is kept. -/
theorem Fits.keepsWord_step {mode : Mode} {char : Char} {rest : Text}
    (fits : mode.Fits (char :: rest)) (word : isWordChar char = true)
    (kept : (mode.step char rest).1.isKept = true) : (mode.step char rest).2.KeepsWord := by
  -- A quote is no word character, so no delimiter can be the character at hand.
  have noDelimiter : ∀ quote : Char, isQuote quote = true → char ≠ quote := by
    rintro quote isOpening rfl
    rw [not_isWordChar_of_isQuote isOpening] at word
    cases word
  obtain ⟨_, noBreak, _⟩ := plain_of_isWordChar word
  match mode, fits with
  | .code afterWord, _ => exact keepsWord_stepCode word rest afterWord kept
  | .comment, _ => simp [Mode.step, noBreak, Role.isKept] at kept
  | .marker 0 _, ⟨marks, quote, ahead, split, noMarks, _, isOpening⟩ =>
      obtain rfl : marks = [] := List.eq_nil_of_length_eq_zero noMarks
      exact absurd (List.cons.inj split).1 (noDelimiter quote isOpening)
  | .marker (_ + 1) _, _ => simp [Mode.step, Role.isKept] at kept
  | .opening 0 literal, ⟨opened, ahead, split⟩ =>
      exact absurd (List.cons.inj split).1 (noDelimiter literal.quote opened)
  | .opening (_ + 1) literal, ⟨opened, ahead, split⟩ =>
      exact absurd (List.cons.inj split).1 (noDelimiter literal.quote opened)
  | .inside literal, opened =>
      have hidden := role_stepInside (noDelimiter literal.quote opened) noBreak rest
      simp [Mode.step, hidden, Role.isKept] at kept
  | .escaped _, _ => simp [Mode.step, Role.isKept] at kept
  | .doubled _, _ => simp [Mode.step, Role.isKept] at kept
  | .field literal place, _ => exact keepsWord_stepField word rest literal place kept
  | .closing 0, ⟨quote, ahead, opened, split⟩ =>
      exact absurd (List.cons.inj split).1 (noDelimiter quote opened)
  | .closing (_ + 1), ⟨quote, ahead, opened, split⟩ =>
      exact absurd (List.cons.inj split).1 (noDelimiter quote opened)

end Mode

namespace Glyph

/-- Two neighbours of which the first begins or goes on with a word that is shown: if the second
goes on with that word, it is shown too. -/
def Seamless (left right : Glyph) : Prop :=
  isWordChar left.char = true → left.role.isKept = true → isWordChar right.char = true →
    right.role.isKept = true

/-- No word of a text is shown in part. -/
theorem isChain_scanFrom {mode : Mode} {text : Text} (fits : mode.Fits text) :
    (scanFrom mode text).IsChain Seamless := by
  induction text generalizing mode with
  | nil => exact .nil
  | cons char rest ih =>
      have later := ih fits.step
      cases rest with
      | nil => exact .singleton _
      | cons next further =>
          refine List.isChain_cons_cons.mpr ⟨?_, later⟩
          intro word kept nextWord
          exact (fits.keepsWord_step word kept).isKept_step nextWord further

theorem isChain_scan (text : Text) : (scan text).IsChain Seamless := by
  have fits : Mode.Fits (.code false) text := trivial
  exact isChain_scanFrom fits

end Glyph

end NotebookLint
