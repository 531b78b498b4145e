import NotebookLint.Proofs.BracketDepth

/-! The two scans of a cell agree where no literal is formatted. The bracket rule hides literals with
a scan of its own, which knows neither markers nor replacement fields. Step by step it stands in the
region that belongs to the mode of the general scan, so it hides the same characters, delimiters
apart, and shows the same brackets. -/

set_option autoImplicit false

namespace NotebookLint

namespace UnclosedBrackets.Region

def step (char : Char) (rest : Text) : Region → Region
  | .code => afterCode char rest
  | .comment => if char == '\n' then .code else .comment
  | .literal quote long => afterLiteral quote long char rest
  | .skip 0 next => next
  | .skip (more + 1) next => .skip more next

def leaves (char : Char) : Region → Char
  | .code => if char == '#' || isQuote char then ' ' else char
  | _ => hidden char

theorem hideFrom_cons (region : Region) (char : Char) (rest : Text) :
    hideFrom region (char :: rest) = region.leaves char :: hideFrom (region.step char rest) rest := by
  match region with
  | .code | .comment | .literal _ _ | .skip 0 _ | .skip (_ + 1) _ => rfl

/-- The region after a text that `ahead` follows. -/
def after (ahead : Text) : Region → Text → Region
  | region, [] => region
  | region, char :: rest => after ahead (region.step char (rest ++ ahead)) rest

theorem after_append (ahead : Text) (region : Region) (first second : Text) :
    after ahead region (first ++ second) =
      after ahead (after (second ++ ahead) region first) second := by
  induction first generalizing region with
  | nil => rfl
  | cons char rest ih =>
      rw [List.cons_append, after, after, ih, List.append_assoc]

end UnclosedBrackets.Region

open UnclosedBrackets (Region hideFrom hideLiterals)

/-! ## What a step can do -/

namespace Mode

theorem stepCode_cases (char : Char) (ahead : Text) (afterWord : Bool) :
    char = '#' ∧ stepCode char ahead afterWord = (.comment, .comment) ∨
      isQuote char = true ∧
        stepCode char ahead afterWord = (.delimiter, openLiteral char ahead false) ∨
      isMarkerLetter char = true ∧
        (∃ letters, stepCode char ahead afterWord =
          (.marker, .marker letters (isFormatLetter char))) ∨
      char ≠ '#' ∧ isQuote char = false ∧
        stepCode char ahead afterWord = (.code, .code (isWordChar char)) := by
  unfold stepCode
  split
  · rename_i hash
    exact .inl ⟨eq_of_beq hash, rfl⟩
  · rename_i noHash
    have other : char ≠ '#' := by simpa using noHash
    split
    · rename_i quote
      exact .inr (.inl ⟨quote, rfl⟩)
    · rename_i noQuote
      have plain : isQuote char = false := by simpa using noQuote
      split
      · rename_i marked
        rw [Bool.and_eq_true] at marked
        split
        · split
          · exact .inr (.inr (.inl ⟨marked.1, 0, rfl⟩))
          · split
            · exact .inr (.inr (.inl ⟨marked.1, 1, rfl⟩))
            · exact .inr (.inr (.inr ⟨other, plain, rfl⟩))
        · exact .inr (.inr (.inr ⟨other, plain, rfl⟩))
      · exact .inr (.inr (.inr ⟨other, plain, rfl⟩))

/-- Inside a literal that is not formatted, a character is hidden by a backslash, closes the
literal, cuts it short or belongs to it. -/
theorem stepInside_cases {literal : Literal} (plain : literal.formatted = false) (char : Char)
    (ahead : Text) :
    (char == '\\' && !ahead.isEmpty) = true ∧
        stepInside char ahead literal = (.body, .escaped literal) ∨
      (char == '\\' && !ahead.isEmpty) = false ∧
        (char = literal.quote ∧ literal.triple = false ∧
            stepInside char ahead literal = (.delimiter, .code false) ∨
          char = literal.quote ∧ literal.triple = true ∧ pairAhead literal.quote ahead = true ∧
            stepInside char ahead literal = (.delimiter, .closing 1) ∨
          char = '\n' ∧ literal.triple = false ∧ stepInside char ahead literal = (.code, .code false) ∨
          (literal.triple = true →
              (char == literal.quote && pairAhead literal.quote ahead) = false) ∧
            (literal.triple = false → (char == literal.quote || char == '\n') = false) ∧
            stepInside char ahead literal = (.body, .inside literal)) := by
  unfold stepInside
  cases escapes : char == '\\' && !ahead.isEmpty with
  | true => exact .inl ⟨rfl, rfl⟩
  | false =>
      refine .inr ⟨rfl, ?_⟩
      simp only [plain, Bool.false_and, Bool.false_eq_true, if_false]
      cases triple : literal.triple with
      | false =>
          by_cases quote : char = literal.quote
          · simp [quote]
          · by_cases isBreak : char = '\n'
            · subst isBreak
              simp [quote]
            · simp [quote, isBreak]
      | true =>
          cases closes : char == literal.quote && pairAhead literal.quote ahead with
          | true =>
              rw [Bool.and_eq_true, beq_iff_eq] at closes
              simp [closes]
          | false => simp [closes]

end Mode

/-! ## Modes and regions -/

/-- Whether no literal of a text is formatted. -/
def Text.Unformatted (source : Text) : Prop :=
  ∀ glyph ∈ Glyph.scan source, glyph.role = .marker → isFormatLetter glyph.char = false

instance (source : Text) : Decidable source.Unformatted :=
  inferInstanceAs (Decidable (∀ glyph ∈ Glyph.scan source, _ → _))

namespace Glyph

/-- The character that is left of a glyph where literals are hidden with their delimiters, but
without their markers. -/
def concealed (glyph : Glyph) : Char :=
  match glyph.role with
  | .code | .marker => glyph.char
  | .delimiter | .body | .expression | .comment => UnclosedBrackets.hidden glyph.char

/-- What the role of a glyph says about its character where no literal is formatted. -/
def SuitsRole (glyph : Glyph) : Prop :=
  match glyph.role with
  | .code => isQuote glyph.char = false
  | .marker => isMarkerLetter glyph.char = true
  | .delimiter => isQuote glyph.char = true
  | .body | .comment => True
  | .expression => False

end Glyph

namespace Mode

/-- Whether a mode has to do with no formatted literal. -/
def Plain : Mode → Prop
  | .code _ | .comment | .closing _ => True
  | .marker _ formatted => formatted = false
  | .opening _ literal | .inside literal | .escaped literal => literal.formatted = false
  | .doubled _ | .field _ _ => False

/-- The region in which the bracket rule stands where the scan is in a mode. Formatted literals
have none of their own. -/
def region : Mode → Region
  | .code _ | .marker _ _ => .code
  | .comment => .comment
  | .opening quotes literal => .skip quotes (.literal literal.quote literal.triple)
  | .inside literal | .field literal _ => .literal literal.quote literal.triple
  | .escaped literal | .doubled literal => .skip 0 (.literal literal.quote literal.triple)
  | .closing quotes => .skip quotes .code

/-- What a mode promises about a text in which no literal is formatted. -/
structure ReadsPlainly (mode : Mode) (text : Text) : Prop where
  fits : mode.Fits text
  plain : mode.Plain
  unmarked : ∀ glyph ∈ Glyph.scanFrom mode text, glyph.role = .marker →
    isFormatLetter glyph.char = false

theorem readsPlainly {source : Text} (unformatted : source.Unformatted) :
    ReadsPlainly (.code false) source :=
  ⟨trivial, trivial, unformatted⟩

private theorem plain_openLiteral (quote : Char) (ahead : Text) :
    (openLiteral quote ahead false).Plain := by
  unfold openLiteral
  split <;> rfl

theorem Plain.step {mode : Mode} (plain : mode.Plain) {char : Char} {rest : Text}
    (unmarked : (mode.step char rest).1 = .marker → isFormatLetter char = false) :
    (mode.step char rest).2.Plain := by
  match mode, plain with
  | .code afterWord, _ =>
      simp only [Mode.step] at unmarked ⊢
      rcases stepCode_cases char rest afterWord with ⟨-, taken⟩ | ⟨-, taken⟩ |
        ⟨-, letters, taken⟩ | ⟨-, -, taken⟩ <;> rw [taken] at unmarked ⊢
      · trivial
      · exact plain_openLiteral char rest
      · exact unmarked rfl
      · trivial
  | .comment, _ =>
      simp only [Mode.step]
      split <;> trivial
  | .marker 0 false, _ => exact plain_openLiteral char rest
  | .marker (letters + 1) false, _ => exact unmarked rfl
  | .opening 0 literal, plain | .opening (_ + 1) literal, plain | .escaped literal, plain =>
      exact plain
  | .closing 0, _ | .closing (_ + 1), _ => trivial
  | .inside literal, plain =>
      simp only [Mode.step]
      rcases stepInside_cases plain char rest with ⟨-, taken⟩ | ⟨-, ⟨-, -, taken⟩ |
        ⟨-, -, -, taken⟩ | ⟨-, -, taken⟩ | ⟨-, -, taken⟩⟩ <;> rw [taken]
      · exact plain
      · trivial
      · trivial
      · trivial
      · exact plain

theorem ReadsPlainly.step {mode : Mode} {char : Char} {rest : Text}
    (reads : mode.ReadsPlainly (char :: rest)) :
    (mode.step char rest).2.ReadsPlainly rest := by
  refine ⟨reads.fits.step, reads.plain.step fun marker => ?_, fun glyph member => ?_⟩
  · exact reads.unmarked _ List.mem_cons_self marker
  · exact reads.unmarked glyph (List.mem_cons_of_mem _ member)

private theorem region_openLiteral {quote : Char} (isOpening : isQuote quote = true)
    (ahead : Text) (formatted : Bool) :
    (openLiteral quote ahead formatted).region = Region.step quote ahead .code := by
  have noHash : quote ≠ '#' := by
    rintro rfl
    exact absurd isOpening (by decide)
  simp only [Region.step, UnclosedBrackets.afterCode, beq_iff_eq, noHash, if_false, isOpening,
    if_true, openLiteral]
  split <;> rfl

theorem plain_of_isMarkerLetter {char : Char} (letter : isMarkerLetter char = true) :
    char ≠ '#' ∧ isQuote char = false ∧ Text.bracketValue char = 0 := by
  simp only [isMarkerLetter, Bool.or_eq_true, beq_iff_eq] at letter
  rcases letter with ((((((rfl | rfl) | rfl) | rfl) | rfl) | rfl) | rfl) | rfl <;> decide

/-- What a step of the scan is for the bracket rule: the region it leads to, the character it
leaves, and what its role says about the character at hand. -/
structure MatchesRegion (mode : Mode) (char : Char) (rest : Text) : Prop where
  region : (mode.step char rest).2.region = mode.region.step char rest
  leaves : Glyph.concealed ⟨char, (mode.step char rest).1⟩ = mode.region.leaves char
  suits : Glyph.SuitsRole ⟨char, (mode.step char rest).1⟩

private theorem leaves_quote {char : Char} (quote : isQuote char = true) :
    Glyph.concealed ⟨char, .delimiter⟩ = Region.leaves char .code := by
  have noBreak : char ≠ '\n' := by
    rintro rfl
    exact absurd quote (by decide)
  simp [Glyph.concealed, UnclosedBrackets.hidden, noBreak, Region.leaves, quote]

private theorem code_of_isMarkerLetter {char : Char} (letter : isMarkerLetter char = true)
    (rest : Text) : Region.step char rest .code = .code ∧
      Glyph.concealed ⟨char, .marker⟩ = Region.leaves char .code := by
  obtain ⟨noHash, noQuote, -⟩ := plain_of_isMarkerLetter letter
  constructor
  · simp [Region.step, UnclosedBrackets.afterCode, noHash, noQuote]
  · simp [Glyph.concealed, Region.leaves, noHash, noQuote]

private theorem matchesRegion_code (char : Char) (rest : Text) (afterWord : Bool) :
    MatchesRegion (.code afterWord) char rest := by
  rcases stepCode_cases char rest afterWord with ⟨rfl, taken⟩ | ⟨quote, taken⟩ |
    ⟨letter, letters, taken⟩ | ⟨noHash, noQuote, taken⟩
  · exact ⟨rfl, rfl, trivial⟩
  · have stepped : Mode.step char rest (.code afterWord) =
      (.delimiter, openLiteral char rest false) := taken
    refine ⟨?_, ?_, ?_⟩ <;> rw [stepped]
    · exact region_openLiteral quote rest false
    · exact leaves_quote quote
    · exact quote
  · obtain ⟨same, left⟩ := code_of_isMarkerLetter letter rest
    have stepped : Mode.step char rest (.code afterWord) =
      (.marker, .marker letters (isFormatLetter char)) := taken
    refine ⟨?_, ?_, ?_⟩ <;> rw [stepped]
    · exact same.symm
    · exact left
    · exact letter
  · have stepped : Mode.step char rest (.code afterWord) =
      (.code, .code (isWordChar char)) := taken
    refine ⟨?_, ?_, ?_⟩ <;> rw [stepped]
    · simp [region, Region.step, UnclosedBrackets.afterCode, noHash, noQuote]
    · simp [Glyph.concealed, region, Region.leaves, noHash, noQuote]
    · exact noQuote

private theorem matchesRegion_inside {literal : Literal} (quoted : isQuote literal.quote = true)
    (plain : literal.formatted = false) (char : Char) (rest : Text) :
    MatchesRegion (.inside literal) char rest := by
  have stepped : Mode.step char rest (.inside literal) = stepInside char rest literal := rfl
  have goesOn : Region.step char rest (Mode.inside literal).region =
    UnclosedBrackets.afterLiteral literal.quote literal.triple char rest := rfl
  rcases stepInside_cases plain char rest with ⟨escapes, taken⟩ | ⟨unescaped, ⟨quote, single, taken⟩ |
    ⟨quote, triple, pair, taken⟩ | ⟨isBreak, single, taken⟩ | ⟨open3, open1, taken⟩⟩
  · refine ⟨?_, ?_, ?_⟩ <;> rw [stepped, taken]
    · rw [goesOn, UnclosedBrackets.afterLiteral, if_pos escapes]
      rfl
    · rfl
    · trivial
  · have closing : isQuote char = true := by rw [quote, quoted]
    refine ⟨?_, ?_, ?_⟩ <;> rw [stepped, taken]
    · rw [goesOn, UnclosedBrackets.afterLiteral, unescaped]
      simp [single, quote, region]
    · rfl
    · exact closing
  · have closing : isQuote char = true := by rw [quote, quoted]
    refine ⟨?_, ?_, ?_⟩ <;> rw [stepped, taken]
    · rw [goesOn, UnclosedBrackets.afterLiteral, unescaped]
      simp [triple, quote, pair, region]
    · rfl
    · exact closing
  · subst isBreak
    refine ⟨?_, ?_, ?_⟩ <;> rw [stepped, taken]
    · rw [goesOn, UnclosedBrackets.afterLiteral, unescaped]
      simp [single, region]
    · rfl
    · rfl
  · refine ⟨?_, ?_, ?_⟩ <;> rw [stepped, taken]
    · rw [goesOn, UnclosedBrackets.afterLiteral, unescaped]
      cases triple : literal.triple with
      | true => simp [open3 triple, region, triple]
      | false =>
          rw [open1 triple]
          simp [region, triple]
    · rfl
    · trivial

theorem ReadsPlainly.matchesRegion {mode : Mode} {char : Char} {rest : Text}
    (reads : mode.ReadsPlainly (char :: rest)) : MatchesRegion mode char rest := by
  match mode, reads.fits, reads.plain with
  | .code afterWord, _, _ => exact matchesRegion_code char rest afterWord
  | .comment, _, _ =>
      by_cases isBreak : char = '\n'
      · subst isBreak
        exact ⟨rfl, rfl, rfl⟩
      · have stepped : Mode.step char rest .comment = (.comment, .comment) := by
          simp [Mode.step, isBreak]
        refine ⟨?_, ?_, ?_⟩ <;> rw [stepped]
        · simp [region, Region.step, isBreak]
        · rfl
        · trivial
  | .marker 0 formatted, fits, _ =>
      have isOpening := fits.isQuote_of_marker
      exact ⟨region_openLiteral isOpening rest formatted, leaves_quote isOpening,
        isOpening⟩
  | .marker (letters + 1) formatted, fits, _ =>
      have letter := fits.isMarkerLetter_of_marker
      obtain ⟨same, left⟩ := code_of_isMarkerLetter letter rest
      exact ⟨same.symm, left, letter⟩
  | .opening 0 literal, fits, _ | .opening (_ + 1) literal, fits, _ =>
      exact ⟨rfl, rfl, fits.isQuote_of_opening⟩
  | .inside literal, quoted, plain => exact matchesRegion_inside quoted plain char rest
  | .escaped literal, _, _ => exact ⟨rfl, rfl, trivial⟩
  | .closing 0, fits, _ | .closing (_ + 1), fits, _ =>
      exact ⟨rfl, rfl, fits.isQuote_of_closing⟩

end Mode

/-! ## The two views of a glyph -/

def unquoted (char : Char) : Char :=
  if isQuote char then ' ' else char

theorem unquoted_eq_iff_of_bracket {bracket : Char}
    (isBracket : (isOpener bracket || isCloser bracket) = true) (char : Char) :
    unquoted char = bracket ↔ char = bracket := by
  unfold unquoted
  split
  · rename_i quote
    constructor
    · rintro rfl
      cases isBracket
    · rintro rfl
      simp only [isQuote, Bool.or_eq_true, beq_iff_eq] at quote
      rcases quote with rfl | rfl <;> cases isBracket
  · exact Iff.rfl

theorem bracketValue_unquoted (char : Char) :
    Text.bracketValue (unquoted char) = Text.bracketValue char := by
  unfold unquoted
  split
  · rename_i quote
    simp only [isQuote, Bool.or_eq_true, beq_iff_eq] at quote
    rcases quote with rfl | rfl <;> rfl
  · rfl

namespace Glyph

theorem shown_marker {glyph : Glyph} (marker : glyph.role = .marker)
    (letter : isMarkerLetter glyph.char = true) : glyph.shown = ' ' := by
  have noBreak : glyph.char ≠ '\n' := by
    intro isBreak
    rw [isBreak] at letter
    cases letter
  simp [shown, marker, noBreak]

/-- Markers apart, both scans leave the same of a glyph once the quotes are taken out. -/
theorem SuitsRole.concealed_eq {glyph : Glyph} (suits : glyph.SuitsRole)
    (other : glyph.role ≠ .marker) :
    glyph.concealed = unquoted glyph.shown := by
  obtain ⟨char, role⟩ := glyph
  cases role with
  | code =>
      rw [shown_of_isKept rfl, unquoted, if_neg (by simpa [SuitsRole] using suits)]
      rfl
  | marker => exact absurd rfl other
  | delimiter =>
      have quote : isQuote char = true := suits
      have noBreak : char ≠ '\n' := by
        rintro rfl
        cases quote
      rw [shown_of_isKept rfl, unquoted, if_pos quote]
      simp [concealed, UnclosedBrackets.hidden, noBreak]
  | body | comment =>
      by_cases isBreak : char = '\n'
      · subst isBreak
        rfl
      · simp [concealed, UnclosedBrackets.hidden, shown, isBreak, unquoted, isQuote]
  | expression => cases suits

/-- At a marker one scan keeps the letter and the other one shows a space. -/
theorem SuitsRole.views_marker {glyph : Glyph} (suits : glyph.SuitsRole)
    (marker : glyph.role = .marker) :
    isMarkerLetter glyph.char = true ∧ glyph.concealed = glyph.char ∧ glyph.shown = ' ' := by
  have letter : isMarkerLetter glyph.char = true := by simpa [SuitsRole, marker] using suits
  exact ⟨letter, by rw [concealed, marker], shown_marker marker letter⟩

/-- The scans leave different characters exactly at the markers. -/
theorem SuitsRole.concealed_eq_iff {glyph : Glyph} (suits : glyph.SuitsRole) :
    glyph.concealed = unquoted glyph.shown ↔ glyph.role ≠ .marker := by
  refine ⟨?_, suits.concealed_eq⟩
  intro same marker
  obtain ⟨letter, kept, blank⟩ := suits.views_marker marker
  rw [kept, blank] at same
  rw [same] at letter
  cases letter

theorem SuitsRole.concealed_eq_bracket_iff {glyph : Glyph} (suits : glyph.SuitsRole) {bracket : Char}
    (isBracket : (isOpener bracket || isCloser bracket) = true) :
    glyph.concealed = bracket ↔ glyph.shown = bracket := by
  by_cases marker : glyph.role = .marker
  · obtain ⟨letter, kept, blank⟩ := suits.views_marker marker
    rw [kept, blank]
    constructor
    · rintro rfl
      have noBracket := (Mode.plain_of_isMarkerLetter letter).2.2
      simp only [isOpener, isCloser, Bool.or_eq_true, beq_iff_eq] at isBracket
      rcases isBracket with ((same | same) | same) | ((same | same) | same) <;>
        rw [same] at letter <;> cases letter
    · rintro rfl
      cases isBracket
  · rw [suits.concealed_eq marker, unquoted_eq_iff_of_bracket isBracket]

/-- Of all brackets none is shown by one scan only. -/
theorem SuitsRole.bracketValue_concealed {glyph : Glyph} (suits : glyph.SuitsRole) :
    Text.bracketValue glyph.concealed = Text.bracketValue glyph.shown := by
  by_cases marker : glyph.role = .marker
  · obtain ⟨letter, kept, blank⟩ := suits.views_marker marker
    rw [kept, blank]
    exact (Mode.plain_of_isMarkerLetter letter).2.2
  · rw [suits.concealed_eq marker, bracketValue_unquoted]

end Glyph

/-! ## Whole texts -/

namespace Mode

theorem ReadsPlainly.hideFrom_eq {mode : Mode} {text : Text} (reads : mode.ReadsPlainly text) :
    hideFrom mode.region text = (Glyph.scanFrom mode text).map Glyph.concealed := by
  induction text generalizing mode with
  | nil => rfl
  | cons char rest ih =>
      rw [Region.hideFrom_cons, Glyph.scanFrom_cons, List.map_cons, ← ih reads.step,
        reads.matchesRegion.leaves, reads.matchesRegion.region]

theorem ReadsPlainly.suitsRole {mode : Mode} {text : Text} (reads : mode.ReadsPlainly text) :
    ∀ glyph ∈ Glyph.scanFrom mode text, glyph.SuitsRole := by
  induction text generalizing mode with
  | nil => simp
  | cons char rest ih =>
      rw [Glyph.scanFrom_cons, List.forall_mem_cons]
      exact ⟨reads.matchesRegion.suits, ih reads.step⟩

theorem ReadsPlainly.map_bracketValue {mode : Mode} {text : Text} (reads : mode.ReadsPlainly text) :
    (Glyph.scanFrom mode text).map (fun glyph => Text.bracketValue glyph.concealed) =
      (Glyph.scanFrom mode text).map fun glyph => Text.bracketValue glyph.shown :=
  List.map_congr_left fun glyph member => (reads.suitsRole glyph member).bracketValue_concealed

theorem ReadsPlainly.after {mode : Mode} {before ahead : Text}
    (reads : mode.ReadsPlainly (before ++ ahead)) :
    (mode.after ahead before).ReadsPlainly ahead ∧
      (mode.after ahead before).region = Region.after ahead mode.region before := by
  induction before generalizing mode with
  | nil => exact ⟨reads, rfl⟩
  | cons char rest ih =>
      obtain ⟨later, same⟩ := ih reads.step
      refine ⟨later, same.trans ?_⟩
      rw [reads.matchesRegion.region]
      rfl

/-- A line break after which the bracket rule stands outside literals is outside them. -/
theorem ReadsPlainly.role_break {mode : Mode} {rest : Text}
    (reads : mode.ReadsPlainly ('\n' :: rest))
    (outside : Region.step '\n' rest mode.region = .code) :
    (mode.step '\n' rest).1 = .code := by
  have noQuote : isQuote '\n' = false := rfl
  match mode, reads.fits, reads.plain with
  | .code _, _, _ | .comment, _, _ => rfl
  | .marker 0 _, fits, _ => exact absurd fits.isQuote_of_marker (by decide)
  | .marker (_ + 1) _, fits, _ => exact absurd fits.isMarkerLetter_of_marker (by decide)
  | .opening 0 _, fits, _ | .opening (_ + 1) _, fits, _ =>
      exact absurd fits.isQuote_of_opening (by decide)
  | .closing 0, fits, _ | .closing (_ + 1), fits, _ =>
      exact absurd fits.isQuote_of_closing (by decide)
  | .escaped literal, _, _ => cases outside
  | .inside literal, quoted, plain =>
      have noEnd : '\n' ≠ literal.quote := by
        intro same
        rw [Fits, ← same, noQuote] at quoted
        cases quoted
      rw [← reads.matchesRegion.region] at outside
      simp only [Mode.step] at outside ⊢
      rcases stepInside_cases plain '\n' rest with ⟨escapes, -⟩ | ⟨-, ⟨quote, -, -⟩ |
        ⟨quote, -, -, -⟩ | ⟨-, -, taken⟩ | ⟨-, -, taken⟩⟩
      · cases escapes
      · exact absurd quote noEnd
      · exact absurd quote noEnd
      · rw [taken]
      · rw [taken] at outside
        cases outside

end Mode

/-- Where no literal is formatted, the bracket rule hides what the general scan hides, and all
delimiters. -/
theorem UnclosedBrackets.hideLiterals_eq {source : Text} (unformatted : source.Unformatted) :
    hideLiterals source = (Glyph.scan source).map Glyph.concealed :=
  (Mode.readsPlainly unformatted).hideFrom_eq

namespace UnclosedBrackets

theorem getElem?_hideLiterals {source : Text} (unformatted : source.Unformatted)
    {position : Nat} {glyph : Glyph} (found : (Glyph.scan source)[position]? = some glyph) :
    (hideLiterals source)[position]? = some glyph.concealed ∧
      (Text.blanked source)[position]? = some glyph.shown ∧ glyph.SuitsRole := by
  refine ⟨?_, ?_, ?_⟩
  · rw [hideLiterals_eq unformatted, List.getElem?_map, found, Option.map_some]
  · rw [Text.blanked, List.getElem?_map, found, Option.map_some]
  · exact (Mode.readsPlainly unformatted).suitsRole glyph (List.mem_of_getElem? found)

/-- The bracket depth of a text counts its brackets. -/
theorem bracketDelta_eq_countP (line column : Nat) (text : Text) :
    Text.bracketDelta text =
      ((bracketsFrom line column text).countP fun bracket => isOpener bracket.char) -
        ((bracketsFrom line column text).countP fun bracket => isCloser bracket.char : Int) := by
  induction text generalizing line column with
  | nil => rfl
  | cons char rest ih =>
      rw [Text.bracketDelta_cons, bracketsFrom]
      by_cases isBreak : char = '\n'
      · subst isBreak
        simpa [Text.bracketValue, isOpener, isCloser] using ih (line + 1) 1
      · have later := ih line (column + 1)
        cases opens : isOpener char with
        | true =>
            have noCloser : isCloser char = false := Text.not_isCloser_of_isOpener opens
            simp [isBreak, opens, noCloser, Text.bracketValue, later]
            omega
        | false =>
            cases closes : isCloser char <;> simp [isBreak, opens, closes, Text.bracketValue, later]
            omega

/-- How the text that the bracket rule reads agrees with the blanked text of the other rules. -/
structure AgreesWithBlanked (source : Text) : Prop where
  sameLength : (hideLiterals source).length = (Text.blanked source).length
  /-- Once the quotes are taken out, the two texts differ at the markers of literals and nowhere
  else. -/
  differs_iff : ∀ (position : Nat) (glyph : Glyph), (Glyph.scan source)[position]? = some glyph →
    ((hideLiterals source)[position]? ≠ ((Text.blanked source)[position]?).map unquoted ↔
      glyph.role = .marker)
  /-- A marker is kept by one and blanked by the other. -/
  markers : ∀ (position : Nat) (glyph : Glyph), (Glyph.scan source)[position]? = some glyph →
    glyph.role = .marker → isMarkerLetter glyph.char = true ∧
      (hideLiterals source)[position]? = some glyph.char ∧
        (Text.blanked source)[position]? = some ' '
  sameBrackets : ∀ (position : Nat) (bracket : Char),
    (isOpener bracket || isCloser bracket) = true →
      ((hideLiterals source)[position]? = some bracket ↔
        (Text.blanked source)[position]? = some bracket)
  sumOfDepths : ((Text.lines (Text.blanked source)).map Text.bracketDelta).sum =
    ((brackets source).countP fun bracket => isOpener bracket.char) -
      ((brackets source).countP fun bracket => isCloser bracket.char : Int)

/-- Where no literal is formatted, the two scans of a cell agree, well-formed or not. -/
theorem agreesWithBlanked_of_unformatted (source : Text) (unformatted : source.Unformatted) :
    AgreesWithBlanked source where
  sameLength := by
    rw [hideLiterals_eq unformatted, Text.blanked, List.length_map, List.length_map]
  differs_iff position glyph found := by
    obtain ⟨hidden, blank, suits⟩ := getElem?_hideLiterals unformatted found
    rw [hidden, blank, Option.map_some, ne_eq, Option.some_inj, suits.concealed_eq_iff, not_not]
  markers position glyph found marker := by
    obtain ⟨hidden, blank, suits⟩ := getElem?_hideLiterals unformatted found
    rw [hidden, blank, Option.some_inj, Option.some_inj]
    exact suits.views_marker marker
  sameBrackets position bracket isBracket := by
    cases found : (Glyph.scan source)[position]? with
    | none => simp [hideLiterals_eq unformatted, Text.blanked, found]
    | some glyph =>
        obtain ⟨hidden, blank, suits⟩ := getElem?_hideLiterals unformatted found
        rw [hidden, blank, Option.some_inj, Option.some_inj]
        exact suits.concealed_eq_bracket_iff isBracket
  sumOfDepths := by
    have values := (Mode.readsPlainly unformatted).map_bracketValue
    have same : Text.bracketDelta (Text.blanked source) =
        Text.bracketDelta (hideLiterals source) := by
      apply Text.bracketDelta_congr
      rw [hideLiterals_eq unformatted, Text.blanked, List.map_map, List.map_map]
      exact values.symm
    rw [Text.sum_bracketDelta_lines, same]
    exact bracketDelta_eq_countP 1 1 (hideLiterals source)

/-- Markers, a word glued to a literal, quotes and brackets inside other quotes, a comment, and an
unterminated literal that ends in a backslash. -/
theorem agreesWithBlanked_of_unformatted_open :
    let source : Text := "x = [rb'(\\'\"', bar\"]\"] # ('\nu'[\n(y)\n'''\"[\n)\\".toList
    source.Unformatted ∧ AgreesWithBlanked source := by
  intro source
  have unformatted : source.Unformatted := by decide +kernel
  exact ⟨unformatted, agreesWithBlanked_of_unformatted source unformatted⟩

end UnclosedBrackets

end NotebookLint
