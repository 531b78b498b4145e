import Mathlib.Data.List.TakeWhile
import NotebookLint.Proofs.ScanModes

/-! Texts written from lexemes. A well-formed text is given as the lexemes that it was written from,
code, comments and string literals without replacement fields, and the scan gives the characters of
every lexeme the roles they should have. -/

set_option autoImplicit false

namespace NotebookLint

/-- What the body of a literal is made of: characters that stand for themselves, and backslashes
with the character that each of them hides. -/
inductive BodyItem where
  | plain (char : Char)
  | escape (char : Char)
  deriving DecidableEq, Repr

def BodyItem.text : BodyItem → Text
  | .plain char => [char]
  | .escape char => ['\\', char]

/-- A string literal as it is written, apart from the marker letters before it. -/
structure StringLexeme where
  quote : Char
  triple : Bool
  body : List BodyItem
  deriving DecidableEq, Repr

namespace StringLexeme

def delimiter (lexeme : StringLexeme) : Text :=
  List.replicate (if lexeme.triple then 3 else 1) lexeme.quote

def bodyText (lexeme : StringLexeme) : Text :=
  lexeme.body.flatMap BodyItem.text

def text (lexeme : StringLexeme) : Text :=
  lexeme.delimiter ++ lexeme.bodyText ++ lexeme.delimiter

/-- Whether a delimiter that follows a body ends it and occurs nowhere earlier, escaped characters
aside. -/
def ClosesAtEnd (delimiter : Text) : List BodyItem → Prop
  | [] => True
  | .plain char :: rest =>
      ¬ delimiter <+: char :: (rest.flatMap BodyItem.text ++ delimiter) ∧
        ClosesAtEnd delimiter rest
  | .escape _ :: rest => ClosesAtEnd delimiter rest

instance decidableClosesAtEnd (delimiter : Text) :
    (body : List BodyItem) → Decidable (ClosesAtEnd delimiter body)
  | [] => .isTrue trivial
  | .plain _ :: rest =>
      have := decidableClosesAtEnd delimiter rest
      inferInstanceAs (Decidable (_ ∧ _))
  | .escape _ :: rest => decidableClosesAtEnd delimiter rest

/-- Whether a literal may stand before the given text. -/
@[mk_iff]
structure WellFormed (lexeme : StringLexeme) (following : Text) : Prop where
  quoted : isQuote lexeme.quote = true
  unescaped : BodyItem.plain '\\' ∉ lexeme.body
  oneLine : lexeme.triple = false → BodyItem.plain '\n' ∉ lexeme.body
  closes : ClosesAtEnd lexeme.delimiter lexeme.body
  separated : lexeme.triple = false → lexeme.body = [] → following.head? ≠ some lexeme.quote

instance (lexeme : StringLexeme) (following : Text) :
    Decidable (lexeme.WellFormed following) :=
  decidable_of_iff' _ (wellFormed_iff lexeme following)

def glyphs (lexeme : StringLexeme) : List Glyph :=
  (lexeme.delimiter.map fun char => ⟨char, .delimiter⟩) ++
    (lexeme.bodyText.map fun char => ⟨char, .body⟩) ++
    lexeme.delimiter.map fun char => ⟨char, .delimiter⟩

end StringLexeme

/-- A piece of a text: code, a comment without its hash sign, or a literal. -/
inductive Lexeme where
  | code (text : Text)
  | comment (text : Text)
  | literal (lexeme : StringLexeme)
  deriving DecidableEq, Repr

namespace Lexeme

def text : Lexeme → Text
  | .code text => text
  | .comment text => '#' :: text
  | .literal lexeme => lexeme.text

def concat (lexemes : List Lexeme) : Text :=
  lexemes.flatMap text

def IsCode (text : Text) : Prop :=
  ∀ char ∈ text, char ≠ '#' ∧ isQuote char = false

/-- The marker letters that code before a literal ends in: its last word, if that is made of one or
two such letters. -/
def markerOf (code : Text) : Text :=
  let word := (code.reverse.takeWhile isWordChar).reverse
  if word.length ≤ 2 && word.all isMarkerLetter then word else []

/-- Whether lexemes may follow each other; `code` is the code directly before the first of them. A
comment ends at a line break or with the text, and the markers of literals hold no letter that would
make these formatted. -/
def WellFormedFrom (code : Text) : List Lexeme → Prop
  | [] => True
  | .code text :: rest => IsCode text ∧ WellFormedFrom (code ++ text) rest
  | .comment text :: rest =>
      '\n' ∉ text ∧ (∀ char ∈ (concat rest).head?, char = '\n') ∧ WellFormedFrom [] rest
  | .literal lexeme :: rest =>
      lexeme.WellFormed (concat rest) ∧
        (∀ letter ∈ markerOf code, isFormatLetter letter = false) ∧ WellFormedFrom [] rest

-- What holds of all members is decided member by member, and not over all characters.
instance decidableWellFormedFrom (code : Text) :
    (lexemes : List Lexeme) → Decidable (WellFormedFrom code lexemes)
  | [] => .isTrue trivial
  | .code text :: rest =>
      have := decidableWellFormedFrom (code ++ text) rest
      have : Decidable (IsCode text) := List.decidableBAll _ text
      inferInstanceAs (Decidable (_ ∧ _))
  | .comment _ :: rest =>
      have := decidableWellFormedFrom [] rest
      have := Option.decidableForallMem (p := (· = '\n')) (concat rest).head?
      inferInstanceAs (Decidable (_ ∧ _ ∧ _))
  | .literal _ :: rest =>
      have := decidableWellFormedFrom [] rest
      have := List.decidableBAll (isFormatLetter · = false) (markerOf code)
      inferInstanceAs (Decidable (_ ∧ _ ∧ _))

def WellFormed (lexemes : List Lexeme) : Prop :=
  WellFormedFrom [] lexemes

instance (lexemes : List Lexeme) : Decidable (WellFormed lexemes) :=
  decidableWellFormedFrom [] lexemes

/-- A character of a literal or comment as it is shown: a line break stays, all else is a space. -/
def blank (char : Char) : Char :=
  if char = '\n' then '\n' else ' '

/-- Code before a literal as it is shown: its marker letters are spaces. -/
def withoutMarker (code : Text) : Text :=
  code.take (code.length - (markerOf code).length) ++
    List.replicate (markerOf code).length ' '

/-- What is shown of lexemes after the given code. -/
def shownFrom (code : Text) : List Lexeme → Text
  | [] => code
  | .code text :: rest => shownFrom (code ++ text) rest
  | .comment text :: rest => code ++ ('#' :: text).map blank ++ shownFrom [] rest
  | .literal lexeme :: rest =>
      withoutMarker code ++ lexeme.delimiter ++ lexeme.bodyText.map blank ++ lexeme.delimiter ++
        shownFrom [] rest

/-- The lines, counted from zero, that follow a line break inside a literal; `line` is the line on
which the lexemes begin. -/
def interiorFrom (line : Nat) : List Lexeme → List Nat
  | [] => []
  | .literal lexeme :: rest =>
      List.range' (line + 1) (lexeme.text.count '\n') ++
        interiorFrom (line + lexeme.text.count '\n') rest
  | lexeme :: rest => interiorFrom (line + lexeme.text.count '\n') rest

/-- The comments of lexemes with their lines, counted from zero. -/
def commentsFrom (line : Nat) : List Lexeme → List (Nat × Text)
  | [] => []
  | .comment text :: rest => (line, '#' :: text) :: commentsFrom line rest
  | lexeme :: rest => commentsFrom (line + lexeme.text.count '\n') rest

def glyphsFrom (code : Text) : List Lexeme → List Glyph
  | [] => code.map fun char => ⟨char, .code⟩
  | .code text :: rest => glyphsFrom (code ++ text) rest
  | .comment text :: rest =>
      (code.map fun char => ⟨char, .code⟩) ++ (('#' :: text).map fun char => ⟨char, .comment⟩) ++
        glyphsFrom [] rest
  | .literal lexeme :: rest =>
      ((code.take (code.length - (markerOf code).length)).map fun char => ⟨char, .code⟩) ++
        ((markerOf code).map fun char => ⟨char, .marker⟩) ++ lexeme.glyphs ++ glyphsFrom [] rest

/-! ## Code -/

private theorem stepCode_of_isCode {char : Char} {ahead : Text} {afterWord : Bool}
    (noHash : char ≠ '#') (noQuote : isQuote char = false)
    (unmarked : isMarkerLetter char = true → afterWord = false →
      ahead.head?.any isQuote = false ∧
        (ahead.head?.any isMarkerLetter && ahead.tail.head?.any isQuote) = false) :
    Mode.stepCode char ahead afterWord = (.code, .code (isWordChar char)) := by
  unfold Mode.stepCode
  simp only [beq_iff_eq, noHash, if_false, noQuote, Bool.false_eq_true]
  split
  · rename_i marked
    simp only [Bool.and_eq_true, Bool.not_eq_true'] at marked
    obtain ⟨noOpening, noPair⟩ := unmarked marked.1 marked.2
    cases ahead with
    | nil => rfl
    | cons next further =>
        simp only [List.head?_cons, Option.any_some, List.tail_cons] at noOpening noPair
        simp [noOpening, noPair]
  · rfl

/-- Neither of the two characters after a letter opens a literal, in code that no literal
follows. -/
private theorem unmarked_ahead {code : Text} (isCode : IsCode code) {rest : Text}
    (noLiteral : ∀ char ∈ rest.head?, isQuote char = false ∧ isMarkerLetter char = false) :
    (code ++ rest).head?.any isQuote = false ∧
      ((code ++ rest).head?.any isMarkerLetter && (code ++ rest).tail.head?.any isQuote) =
        false := by
  have restPlain : rest.head?.any isQuote = false := by
    cases rest with
    | nil => rfl
    | cons next further => simpa using (noLiteral next (by simp)).1
  cases code with
  | nil =>
      refine ⟨restPlain, ?_⟩
      cases rest with
      | nil => rfl
      | cons next further => simp [(noLiteral next (by simp)).2]
  | cons first others =>
      refine ⟨by simpa using (isCode first (by simp)).2, ?_⟩
      cases others with
      | nil => simp [restPlain]
      | cons second further => simp [(isCode second (by simp)).2]

/-- Code that no literal follows has no markers. -/
theorem scanFrom_code_append {code : Text} (isCode : IsCode code) (rest : Text)
    (noLiteral : ∀ char ∈ rest.head?, isQuote char = false ∧ isMarkerLetter char = false)
    (afterWord : Bool) :
    ∃ endsInWord, Glyph.scanFrom (.code afterWord) (code ++ rest) =
      (code.map fun char => ⟨char, .code⟩) ++ Glyph.scanFrom (.code endsInWord) rest := by
  induction code generalizing afterWord with
  | nil => exact ⟨afterWord, rfl⟩
  | cons char others ih =>
      have laterCode : IsCode others := fun other inside => isCode other (by simp [inside])
      obtain ⟨noHash, noQuote⟩ := isCode char (by simp)
      have step : Mode.step char (others ++ rest) (.code afterWord) =
          (.code, .code (isWordChar char)) :=
        stepCode_of_isCode noHash noQuote fun _ _ => unmarked_ahead laterCode noLiteral
      obtain ⟨endsInWord, later⟩ := ih laterCode (isWordChar char)
      refine ⟨endsInWord, ?_⟩
      rw [List.cons_append, Glyph.scanFrom_cons, step, later]
      rfl

/-- The last word of a text, with one more character before the text. -/
private theorem takeWhile_reverse_cons (char : Char) (text : Text) :
    ((char :: text).reverse.takeWhile isWordChar).reverse =
      if text.all isWordChar then (if isWordChar char then char :: text else text)
      else (text.reverse.takeWhile isWordChar).reverse := by
  rw [List.reverse_cons]
  split
  · rename_i allWord
    have letters : ∀ other ∈ text.reverse, isWordChar other = true := by
      simpa using allWord
    rw [List.takeWhile_append_of_pos letters]
    split
    · rename_i isWord
      simp [isWord]
    · rename_i noWord
      simp [noWord]
  · rename_i someOther
    rw [List.takeWhile_append]
    have shorter : (text.reverse.takeWhile isWordChar).length ≠ text.reverse.length := by
      intro same
      apply someOther
      have whole : text.reverse.takeWhile isWordChar = text.reverse :=
        (List.takeWhile_prefix _).eq_of_length same
      rw [List.takeWhile_eq_self_iff] at whole
      simpa using whole
    rw [if_neg shorter]

/-- The marker letters of code that is entered after a word or not. -/
private def markerAfter (afterWord : Bool) (code : Text) : Text :=
  if afterWord && code.all isWordChar then [] else markerOf code

private theorem markerOf_cons_of_not_all (char : Char) {text : Text}
    (other : text.all isWordChar = false) : markerOf (char :: text) = markerOf text := by
  simp only [markerOf, takeWhile_reverse_cons, other, Bool.false_eq_true, if_false]

private theorem markerOf_cons_of_all {char : Char} {text : Text}
    (allWord : text.all isWordChar = true) :
    markerOf (char :: text) =
      if isWordChar char then
        if text.length ≤ 1 && (isMarkerLetter char && text.all isMarkerLetter) then char :: text
        else []
      else markerOf text := by
  have self : (text.reverse.takeWhile isWordChar).reverse = text := by
    have letters : ∀ other ∈ text.reverse, isWordChar other = true := by
      simpa using allWord
    rw [List.takeWhile_eq_self_iff.mpr letters, List.reverse_reverse]
  unfold markerOf
  rw [takeWhile_reverse_cons, self]
  by_cases isWord : isWordChar char = true
  · simp [allWord, isWord]
  · simp [allWord, isWord]

private theorem length_markerOf_le (code : Text) : (markerOf code).length ≤ code.length := by
  unfold markerOf
  dsimp only
  split
  · rw [List.length_reverse]
    calc (code.reverse.takeWhile isWordChar).length ≤ code.reverse.length :=
          (List.takeWhile_sublist _).length_le
      _ = code.length := List.length_reverse
  · simp

private theorem length_markerAfter_le (afterWord : Bool) (code : Text) :
    (markerAfter afterWord code).length ≤ code.length := by
  unfold markerAfter
  split
  · simp
  · exact length_markerOf_le code

/-- A character of code is no marker letter, and leaves the marker to the code after it, unless it
is the first of at most two marker letters and no word goes on with it. -/
private theorem markerAfter_cons {afterWord : Bool} {char : Char} {others : Text}
    (unmarked : ¬ (afterWord = false ∧ isMarkerLetter char = true ∧ others.length ≤ 1 ∧
      others.all isMarkerLetter = true)) :
    markerAfter afterWord (char :: others) = markerAfter (isWordChar char) others := by
  unfold markerAfter
  cases allWord : others.all isWordChar with
  | false => simp [allWord, markerOf_cons_of_not_all char allWord]
  | true =>
      rw [markerOf_cons_of_all allWord]
      cases isWord : isWordChar char with
      | false => simp [isWord]
      | true =>
          simp only [List.all_cons, isWord, allWord, Bool.and_self, Bool.and_true, if_true]
          cases afterWord with
          | true => rfl
          | false =>
              simp only [Bool.false_eq_true, if_false, ite_eq_right_iff]
              intro marked
              simp only [Bool.and_eq_true, decide_eq_true_eq] at marked
              exact absurd ⟨rfl, marked.2.1, marked.1, marked.2.2⟩ unmarked

private theorem markerAfter_of_letters {char : Char} {others : Text}
    (letter : isMarkerLetter char = true) (short : others.length ≤ 1)
    (letters : others.all isMarkerLetter = true) :
    markerAfter false (char :: others) = char :: others := by
  have allWord : others.all isWordChar = true := by
    rw [List.all_eq_true] at letters ⊢
    exact fun other inside => isWordChar_of_isMarkerLetter (letters other inside)
  simp [markerAfter, markerOf_cons_of_all allWord, isWordChar_of_isMarkerLetter letter, short,
    letter, letters]

/-- Code before a literal: all of it is code but the marker letters, which belong to the literal. -/
theorem scanFrom_code_quote {code : Text} (isCode : IsCode code) {quote : Char}
    (isOpening : isQuote quote = true) (rest : Text) (afterWord : Bool) :
    Glyph.scanFrom (.code afterWord) (code ++ quote :: rest) =
      ((code.take (code.length - (markerAfter afterWord code).length)).map
          fun char => ⟨char, .code⟩) ++
        ((markerAfter afterWord code).map fun char => ⟨char, .marker⟩) ++
        ⟨quote, .delimiter⟩ ::
          Glyph.scanFrom
            (Mode.openLiteral quote rest ((markerAfter afterWord code).any isFormatLetter))
            rest := by
  have noHash : quote ≠ '#' := by
    rintro rfl
    exact absurd isOpening (by decide)
  induction code generalizing afterWord with
  | nil => simp [markerAfter, markerOf, Glyph.scanFrom_cons, Mode.step, Mode.stepCode, noHash,
      isOpening]
  | cons char others ih =>
      have laterCode : IsCode others := fun other inside => isCode other (by simp [inside])
      obtain ⟨charNoHash, charNoQuote⟩ := isCode char (by simp)
      by_cases marked : afterWord = false ∧ isMarkerLetter char = true ∧ others.length ≤ 1 ∧
        others.all isMarkerLetter = true
      · obtain ⟨rfl, letter, short, letters⟩ := marked
        rw [markerAfter_of_letters letter short letters]
        cases others with
        | nil =>
            simp [Glyph.scanFrom_cons, Mode.step, Mode.stepCode, charNoHash, charNoQuote, letter,
              isOpening]
        | cons second further =>
            obtain rfl : further = [] := by simpa using short
            have secondLetter : isMarkerLetter second = true := by simpa using letters
            have secondNoQuote := (laterCode second (by simp)).2
            simp [Glyph.scanFrom_cons, Mode.step, Mode.stepCode, charNoHash, charNoQuote, letter,
              isOpening, secondLetter, secondNoQuote]
      · have step : Mode.step char (others ++ quote :: rest) (.code afterWord) =
            (.code, .code (isWordChar char)) := by
          apply stepCode_of_isCode charNoHash charNoQuote
          intro letter fresh
          cases others with
          | nil => exact absurd ⟨fresh, letter, by simp, rfl⟩ marked
          | cons second further =>
              refine ⟨by simpa using (laterCode second (by simp)).2, ?_⟩
              cases further with
              | nil =>
                  cases secondLetter : isMarkerLetter second with
                  | false => simp [secondLetter]
                  | true =>
                      have lettersOnly : [second].all isMarkerLetter = true := by
                        simpa using secondLetter
                      exact absurd ⟨fresh, letter, Nat.le_refl 1, lettersOnly⟩ marked
              | cons third others => simp [(laterCode third (by simp)).2]
        have shorter := length_markerAfter_le (isWordChar char) others
        have taken : (char :: others).length - (markerAfter (isWordChar char) others).length =
            others.length - (markerAfter (isWordChar char) others).length + 1 := by
          simp only [List.length_cons]
          omega
        rw [List.cons_append, Glyph.scanFrom_cons, step, markerAfter_cons marked, taken,
          List.take_succ_cons, ih laterCode (isWordChar char)]
        rfl

/-! ## Literals -/

theorem not_special_of_isQuote {quote : Char} (quoted : isQuote quote = true) :
    quote ≠ '\\' ∧ quote ≠ '\n' := by
  simp only [isQuote, Bool.or_eq_true, beq_iff_eq] at quoted
  rcases quoted with rfl | rfl <;> decide

/-- A delimiter closes its literal, formatted or not. -/
theorem scanFrom_closing {quote : Char} (quoted : isQuote quote = true) (triple formatted : Bool)
    (rest : Text) :
    Glyph.scanFrom (.inside ⟨quote, triple, formatted⟩)
        (List.replicate (if triple then 3 else 1) quote ++ rest) =
      ((List.replicate (if triple then 3 else 1) quote).map fun char => ⟨char, .delimiter⟩) ++
        Glyph.scanFrom (.code false) rest := by
  obtain ⟨noEscape, -⟩ := not_special_of_isQuote quoted
  cases triple with
  | false => simp [Glyph.scanFrom_cons, Mode.step, Mode.stepInside, noEscape]
  | true =>
      simp [List.replicate_succ, Glyph.scanFrom_cons, Mode.step, Mode.stepInside, noEscape,
        pairAhead]

/-- A character that stands for itself goes into the body, if no delimiter begins at it. -/
private theorem stepInside_plain {literal : Literal} (unformatted : literal.formatted = false)
    {char : Char} (noEscape : char ≠ '\\') (inLine : literal.triple = false → char ≠ '\n')
    {ahead : Text}
    (stillOpen : char = literal.quote →
      literal.triple = true ∧ pairAhead literal.quote ahead = false) :
    Mode.stepInside char ahead literal = (.body, .inside literal) := by
  have stays : (char == literal.quote &&
      (!literal.triple || pairAhead literal.quote ahead)) = false := by
    by_cases isDelimiter : char = literal.quote
    · obtain ⟨isTriple, noPair⟩ := stillOpen isDelimiter
      simp [isTriple, noPair]
    · simp [isDelimiter]
  unfold Mode.stepInside
  rw [stays, unformatted]
  cases isTriple : literal.triple with
  | false => simp [noEscape, inLine isTriple]
  | true => simp [noEscape]

/-- Where no delimiter begins in a body and the delimiter after it, none begins in the text. -/
private theorem not_pairAhead_of_not_closes {quote : Char} {triple : Bool} {body : Text}
    (noDelimiter : ¬ List.replicate (if triple then 3 else 1) quote <+:
      quote :: (body ++ List.replicate (if triple then 3 else 1) quote)) (rest : Text) :
    triple = true ∧
      pairAhead quote (body ++ (List.replicate (if triple then 3 else 1) quote ++ rest)) =
        false := by
  cases triple with
  | false => exact absurd ⟨_, rfl⟩ noDelimiter
  | true =>
      refine ⟨rfl, ?_⟩
      rw [Bool.eq_false_iff]
      intro pair
      match body with
      | [] => exact noDelimiter ⟨[quote], rfl⟩
      | [first] =>
          simp only [pairAhead, List.cons_append, List.nil_append, if_true, List.replicate_succ,
            Bool.and_eq_true, beq_iff_eq] at pair
          exact noDelimiter ⟨[quote, quote], by simp [pair.1, List.replicate_succ]⟩
      | first :: second :: further =>
          simp only [pairAhead, List.cons_append, Bool.and_eq_true, beq_iff_eq] at pair
          exact noDelimiter ⟨further ++ List.replicate 3 quote, by
            simp [pair.1, pair.2, List.replicate_succ]⟩

/-- From the opening delimiter on, a body is read to its end and the literal is closed there. -/
theorem scanFrom_inside {quote : Char} (quoted : isQuote quote = true) {triple : Bool}
    {body : List BodyItem} (unescaped : BodyItem.plain '\\' ∉ body)
    (oneLine : triple = false → BodyItem.plain '\n' ∉ body)
    (closes : StringLexeme.ClosesAtEnd (List.replicate (if triple then 3 else 1) quote) body)
    (rest : Text) :
    Glyph.scanFrom (.inside ⟨quote, triple, false⟩)
        (body.flatMap BodyItem.text ++
          (List.replicate (if triple then 3 else 1) quote ++ rest)) =
      ((body.flatMap BodyItem.text).map fun char => ⟨char, .body⟩) ++
        (((List.replicate (if triple then 3 else 1) quote).map fun char => ⟨char, .delimiter⟩) ++
          Glyph.scanFrom (.code false) rest) := by
  induction body with
  | nil => exact scanFrom_closing quoted triple false rest
  | cons item others ih =>
      simp only [List.mem_cons, not_or] at unescaped oneLine
      have later := ih unescaped.2 (fun single => (oneLine single).2)
      cases item with
      | escape char =>
          have step : ∀ ahead, ahead ≠ [] →
              Mode.stepInside '\\' ahead ⟨quote, triple, false⟩ =
                (.body, .escaped ⟨quote, triple, false⟩) := by
            intro ahead more
            simp [Mode.stepInside, more]
          have tail := later closes
          simp only [List.flatMap_cons, BodyItem.text, List.cons_append, List.nil_append,
            Glyph.scanFrom_cons, Mode.step, List.map_cons]
          rw [step _ (List.cons_ne_nil _ _), tail]
      | plain char =>
          obtain ⟨noDelimiter, closesLater⟩ := closes
          have step : Mode.stepInside char
              (others.flatMap BodyItem.text ++
                (List.replicate (if triple then 3 else 1) quote ++ rest)) ⟨quote, triple, false⟩ =
              (.body, .inside ⟨quote, triple, false⟩) := by
            apply stepInside_plain rfl
            · rintro rfl
              exact unescaped.1 rfl
            · rintro single rfl
              exact (oneLine single).1 rfl
            · rintro rfl
              exact not_pairAhead_of_not_closes noDelimiter rest
          have tail := later closesLater
          simp only [List.flatMap_cons, BodyItem.text, List.cons_append, List.nil_append,
            Glyph.scanFrom_cons, Mode.step, List.map_cons]
          rw [step, tail]

/-- An opening delimiter is read up to the body, with which a one-line literal must not look like a
triple one. -/
theorem scanFrom_opening {quote : Char} {triple : Bool} (formatted : Bool) {inner tail : Text}
    (apart : triple = false → pairAhead quote inner = false)
    (text_eq : List.replicate (if triple then 3 else 1) quote ++ inner = quote :: tail) :
    ⟨quote, .delimiter⟩ :: Glyph.scanFrom (Mode.openLiteral quote tail formatted) tail =
      ((List.replicate (if triple then 3 else 1) quote).map fun char => ⟨char, .delimiter⟩) ++
        Glyph.scanFrom (.inside ⟨quote, triple, formatted⟩) inner := by
  cases triple with
  | true =>
      simp only [List.replicate_succ, List.replicate_zero, if_true, List.cons_append,
        List.nil_append, List.cons.injEq, true_and] at text_eq ⊢
      subst text_eq
      simp [Mode.openLiteral, pairAhead, Glyph.scanFrom_cons, Mode.step]
  | false =>
      simp only [List.replicate_one, Bool.false_eq_true, if_false, List.cons_append,
        List.nil_append, List.cons.injEq, true_and] at text_eq ⊢
      subst text_eq
      simp [Mode.openLiteral, apart rfl]

/-- A literal is read from its first quote to its last one. -/
theorem scanFrom_literal {lexeme : StringLexeme} {following tail : Text}
    (wellFormed : lexeme.WellFormed following)
    (text_eq : lexeme.text ++ following = lexeme.quote :: tail) :
    ⟨lexeme.quote, .delimiter⟩ ::
        Glyph.scanFrom (Mode.openLiteral lexeme.quote tail false) tail =
      lexeme.glyphs ++ Glyph.scanFrom (.code false) following := by
  obtain ⟨quote, triple, body⟩ := lexeme
  obtain ⟨quoted, unescaped, oneLine, closes, separated⟩ := wellFormed
  have inside := scanFrom_inside quoted unescaped oneLine closes following
  simp only [StringLexeme.text, StringLexeme.delimiter, StringLexeme.bodyText,
    StringLexeme.glyphs] at text_eq closes ⊢
  have apart : triple = false →
      pairAhead quote (body.flatMap BodyItem.text ++
        (List.replicate (if triple then 3 else 1) quote ++ following)) = false := by
    rintro rfl
    cases body with
    | nil =>
        cases following with
        | nil => rfl
        | cons next further =>
            have inside : next ∈ (quote :: next :: further).take 2 := by simp
            exact not_pairAhead_of_mem inside (by simpa using separated rfl rfl)
    | cons item others =>
        cases item with
        | plain char =>
            apply not_pairAhead_of_mem List.mem_cons_self
            rintro rfl
            exact closes.1 ⟨_, rfl⟩
        | escape char =>
            exact not_pairAhead_of_mem List.mem_cons_self (not_special_of_isQuote quoted).1.symm
  rw [List.append_assoc, List.append_assoc] at text_eq
  rw [scanFrom_opening false apart text_eq, inside]
  simp

/-! ## Comments -/

/-- A comment takes all characters up to its line's end, where code goes on. -/
theorem scanFrom_comment {text : Text} (unbroken : '\n' ∉ text) {rest : Text}
    (ends : ∀ char ∈ rest.head?, char = '\n') :
    Glyph.scanFrom .comment (text ++ rest) =
      (text.map fun char => ⟨char, .comment⟩) ++ Glyph.scanFrom (.code false) rest := by
  induction text with
  | nil =>
      cases rest with
      | nil => rfl
      | cons next further =>
          obtain rfl := ends next (by simp)
          rfl
  | cons char others ih =>
      simp only [List.mem_cons, not_or] at unbroken
      simp [Glyph.scanFrom_cons, Mode.step, Ne.symm unbroken.1, ih unbroken.2]

/-! ## Whole texts -/

theorem isCode_of_not_mem {code : Text} (noHash : '#' ∉ code) (noDouble : '"' ∉ code)
    (noSingle : '\x27' ∉ code) : IsCode code := by
  intro char inside
  constructor
  · intro isHash
    exact noHash (isHash ▸ inside)
  · rw [Bool.eq_false_iff, isQuote, ne_eq, Bool.or_eq_true, beq_iff_eq, beq_iff_eq]
    intro quote
    cases quote with
    | inl isDouble => exact noDouble (isDouble ▸ inside)
    | inr isSingle => exact noSingle (isSingle ▸ inside)

theorem isCode_nil : IsCode [] := fun _ inside => nomatch inside

theorem IsCode.append {code text : Text} (first : IsCode code) (second : IsCode text) :
    IsCode (code ++ text) := by
  intro char inside
  rcases List.mem_append.mp inside with before | after
  · exact first char before
  · exact second char after

private theorem markerAfter_false (code : Text) : markerAfter false code = markerOf code := rfl

private theorem exists_text_eq_quote_cons (lexeme : StringLexeme) (following : Text) :
    ∃ tail, lexeme.text ++ following = lexeme.quote :: tail := by
  obtain ⟨quote, triple, body⟩ := lexeme
  cases triple with
  | false => exact ⟨_, rfl⟩
  | true => exact ⟨_, rfl⟩

/-- The scan gives every lexeme of a well-formed text its roles. -/
theorem scanFrom_concat {lexemes : List Lexeme} {code : Text} (isCode : IsCode code)
    (wellFormed : WellFormedFrom code lexemes) :
    Glyph.scanFrom (.code false) (code ++ concat lexemes) = glyphsFrom code lexemes := by
  induction lexemes generalizing code with
  | nil =>
      obtain ⟨endsInWord, scanned⟩ := scanFrom_code_append isCode [] (by simp) false
      simpa [concat, glyphsFrom] using scanned
  | cons lexeme rest ih =>
      cases lexeme with
      | code text =>
          obtain ⟨moreCode, later⟩ := wellFormed
          have whole := ih (isCode.append moreCode) later
          simpa [concat, Lexeme.text, glyphsFrom] using whole
      | comment text =>
          obtain ⟨unbroken, ends, later⟩ := wellFormed
          have tail := ih isCode_nil later
          obtain ⟨endsInWord, scanned⟩ := scanFrom_code_append isCode
            ('#' :: (text ++ concat rest)) (by simp [isQuote, isMarkerLetter]) false
          have hash : Mode.step '#' (text ++ concat rest) (.code endsInWord) =
              (.comment, .comment) := rfl
          have whole : code ++ concat (.comment text :: rest) =
              code ++ '#' :: (text ++ concat rest) := by
            simp [concat, Lexeme.text]
          rw [whole, scanned, Glyph.scanFrom_cons, hash, scanFrom_comment unbroken ends]
          rw [List.nil_append] at tail
          simp [glyphsFrom, tail]
      | literal lexeme =>
          obtain ⟨closed, unformatted, later⟩ := wellFormed
          have tail := ih isCode_nil later
          obtain ⟨inner, opened⟩ := exists_text_eq_quote_cons lexeme (concat rest)
          have whole : code ++ concat (.literal lexeme :: rest) =
              code ++ lexeme.quote :: inner := by
            rw [← opened]
            rfl
          have noFormat : (markerOf code).any isFormatLetter = false := by
            rw [List.any_eq_false]
            intro letter inside
            simp [unformatted letter inside]
          rw [whole, scanFrom_code_quote isCode closed.quoted, markerAfter_false, noFormat,
            scanFrom_literal closed opened]
          rw [List.nil_append] at tail
          simp [glyphsFrom, tail]

theorem scan_concat {lexemes : List Lexeme} (wellFormed : WellFormed lexemes) :
    Glyph.scan (concat lexemes) = glyphsFrom [] lexemes :=
  scanFrom_concat isCode_nil wellFormed

end Lexeme

end NotebookLint
