import Mathlib.Data.List.Infix
import NotebookLint.Proofs.BracketDepth
import NotebookLint.Proofs.Lexemes
import NotebookLint.Proofs.ScanRestart

/-! Formatted literals. A formatted literal is given as it was written, from text, doubled braces and
replacement fields. What the blanked text shows of it should be its delimiters and the expressions of
its fields, and nothing else. This is so exactly if no format specification that follows an
expression directly begins with an equal sign, which the scan takes for an operator. -/

set_option autoImplicit false

namespace NotebookLint

namespace Text

instance (depth : Nat) (text : Text) : Decidable (StaysOpen depth text) :=
  decidable_of_iff (∀ before ∈ text.inits, 0 ≤ depth + bracketDelta before) (by
    simp only [List.mem_inits, StaysOpen])

/-- Whether a text may stand as the expression of a replacement field. Its brackets are balanced, all
kinds taken together, and outside them it has neither a colon nor an exclamation mark, that of an
inequality apart. -/
@[mk_iff]
structure IsExpression (text : Text) : Prop where
  nonempty : text ≠ []
  plain : ∀ char ∈ text, isQuote char = false ∧ char ≠ '\n'
  noBrace : text.head? ≠ some '\x7b'
  staysOpen : StaysOpen 0 text
  closed : bracketDelta text = 0
  outside : ∀ position < text.length, bracketDelta (text.take position) = 0 →
    text[position]? ≠ some ':' ∧
      (text[position]? = some '!' → text[position + 1]? = some '=')

instance (text : Text) : Decidable text.IsExpression :=
  have := List.decidableBAll (fun char => isQuote char = false ∧ char ≠ '\n') text
  decidable_of_iff' _ (isExpression_iff text)

/-- Whether a text may stand as a format specification: it is on one line, and its braces are
balanced. -/
@[mk_iff]
structure IsSpecification (text : Text) : Prop where
  unbroken : '\n' ∉ text
  staysOpen : ∀ before, before <+: text → before.count '\x7d' ≤ before.count '\x7b'
  closed : text.count '\x7b' = text.count '\x7d'

instance (text : Text) : Decidable text.IsSpecification :=
  have : Decidable (∀ before, before <+: text → before.count '\x7d' ≤ before.count '\x7b') :=
    decidable_of_iff (∀ before ∈ text.inits, before.count '\x7d' ≤ before.count '\x7b') (by
      simp only [List.mem_inits])
  decidable_of_iff' _ (isSpecification_iff text)

theorem IsSpecification.cons {text : Text} (specification : text.IsSpecification) {char : Char}
    (plain : char ∉ ['\n', '\x7b', '\x7d']) : IsSpecification (char :: text) := by
  simp only [List.mem_cons, List.not_mem_nil, or_false, not_or] at plain
  obtain ⟨noBreak, noOpener, noCloser⟩ := plain
  refine ⟨?_, ?_, ?_⟩
  · simpa [Ne.symm noBreak] using specification.unbroken
  · intro before isPrefix
    cases before with
    | nil => simp
    | cons first others =>
        obtain ⟨rfl, later⟩ := List.cons_prefix_cons.mp isPrefix
        simpa [List.count_cons, noOpener, noCloser] using specification.staysOpen others later
  · simpa [List.count_cons, noOpener, noCloser] using specification.closed

end Text

structure ReplacementField where
  expression : Text
  /-- The letter of a conversion. -/
  conversion? : Option Char
  specification? : Option Text
  deriving DecidableEq, Repr

namespace ReplacementField

/-- What stands between the expression and the closing brace. -/
def ending (field : ReplacementField) : Text :=
  (field.conversion?.map fun letter => ['!', letter]).getD [] ++
    (field.specification?.map fun specification => ':' :: specification).getD []

def text (field : ReplacementField) : Text :=
  '\x7b' :: (field.expression ++ (field.ending ++ ['\x7d']))

def shown (field : ReplacementField) : Text :=
  ' ' :: (field.expression ++ List.replicate (field.ending.length + 1) ' ')

/-- Whether a field is written as it should be. -/
@[mk_iff]
structure WellFormed (field : ReplacementField) : Prop where
  expression : field.expression.IsExpression
  conversion : ∀ letter ∈ field.conversion?, isWordChar letter = true
  specification : ∀ specification ∈ field.specification?, specification.IsSpecification

instance (field : ReplacementField) : Decidable field.WellFormed :=
  have := Option.decidableForallMem (p := fun letter => isWordChar letter = true) field.conversion?
  have := Option.decidableForallMem (p := Text.IsSpecification) field.specification?
  decidable_of_iff' _ (wellFormed_iff field)

/-- Whether the expression of a field is followed directly by a specification that begins with an
equal sign. -/
def LooksAssigned (field : ReplacementField) : Prop :=
  field.conversion? = none ∧
    ∃ specification, field.specification? = some specification ∧ specification.head? = some '='

instance (field : ReplacementField) : Decidable field.LooksAssigned :=
  decidable_of_iff
    (field.conversion? = none ∧ field.specification?.any (·.head? == some '=') = true) (by
    simp [LooksAssigned, Option.any_eq_true])

def glyphs (field : ReplacementField) : List Glyph :=
  ⟨'\x7b', .body⟩ ::
    (Glyph.ofRole .expression field.expression ++ Glyph.ofRole .body (field.ending ++ ['\x7d']))

end ReplacementField

inductive FormattedPiece where
  | plain (char : Char)
  | doubled (brace : Char)
  | field (replacement : ReplacementField)
  deriving DecidableEq, Repr

namespace FormattedPiece

def text : FormattedPiece → Text
  | .plain char => [char]
  | .doubled brace => [brace, brace]
  | .field replacement => replacement.text

def shown : FormattedPiece → Text
  | .plain _ => [' ']
  | .doubled _ => [' ', ' ']
  | .field replacement => replacement.shown

def WellFormed : FormattedPiece → Prop
  | .plain char => isQuote char = false ∧ char ∉ ['\\', '\n', '\x7b', '\x7d']
  | .doubled brace => brace = '\x7b' ∨ brace = '\x7d'
  | .field replacement => replacement.WellFormed

instance : (piece : FormattedPiece) → Decidable piece.WellFormed
  | .plain char =>
      inferInstanceAs (Decidable (isQuote char = false ∧ char ∉ ['\\', '\n', '\x7b', '\x7d']))
  | .doubled brace => inferInstanceAs (Decidable (brace = '\x7b' ∨ brace = '\x7d'))
  | .field replacement => inferInstanceAs (Decidable replacement.WellFormed)

/-- Whether a piece is a field that looks as if a name were assigned in it. -/
def LooksAssigned : FormattedPiece → Prop
  | .plain _ | .doubled _ => False
  | .field replacement => replacement.LooksAssigned

instance : (piece : FormattedPiece) → Decidable piece.LooksAssigned
  | .plain _ | .doubled _ => .isFalse id
  | .field replacement => inferInstanceAs (Decidable replacement.LooksAssigned)

def glyphs : FormattedPiece → List Glyph
  | .plain char => [⟨char, .body⟩]
  | .doubled brace => [⟨brace, .body⟩, ⟨brace, .body⟩]
  | .field replacement => replacement.glyphs

end FormattedPiece

structure FormattedLexeme where
  /-- The letters before the opening delimiter. -/
  marker : Text
  quote : Char
  triple : Bool
  pieces : List FormattedPiece
  deriving DecidableEq, Repr

namespace FormattedLexeme

def delimiter (lexeme : FormattedLexeme) : Text :=
  List.replicate (if lexeme.triple then 3 else 1) lexeme.quote

def text (lexeme : FormattedLexeme) : Text :=
  lexeme.marker ++ (lexeme.delimiter ++
    (lexeme.pieces.flatMap FormattedPiece.text ++ lexeme.delimiter))

def shown (lexeme : FormattedLexeme) : Text :=
  List.replicate lexeme.marker.length ' ' ++ (lexeme.delimiter ++
    (lexeme.pieces.flatMap FormattedPiece.shown ++ lexeme.delimiter))

/-- Whether a literal may stand before the given text. -/
@[mk_iff]
structure WellFormed (lexeme : FormattedLexeme) (following : Text) : Prop where
  short : lexeme.marker.length ≤ 2
  letters : ∀ letter ∈ lexeme.marker, isMarkerLetter letter = true
  formatted : lexeme.marker.any isFormatLetter = true
  quoted : isQuote lexeme.quote = true
  pieces : ∀ piece ∈ lexeme.pieces, piece.WellFormed
  separated : lexeme.triple = false → lexeme.pieces = [] → following.head? ≠ some lexeme.quote

instance (lexeme : FormattedLexeme) (following : Text) : Decidable (lexeme.WellFormed following) :=
  have := List.decidableBAll (isMarkerLetter · = true) lexeme.marker
  decidable_of_iff' _ (wellFormed_iff lexeme following)

def glyphs (lexeme : FormattedLexeme) : List Glyph :=
  Glyph.ofRole .marker lexeme.marker ++ (Glyph.ofRole .delimiter lexeme.delimiter ++
    (lexeme.pieces.flatMap FormattedPiece.glyphs ++ Glyph.ofRole .delimiter lexeme.delimiter))

end FormattedLexeme

/-! ## Fields -/

namespace ReplacementField

variable {literal : Literal}

/-- A character of an expression is kept, and brackets are counted. -/
theorem step_expression {char : Char} {ahead : Text} {depth inner : Nat}
    (noQuote : isQuote char = false) (noBreak : char ≠ '\n')
    (counted : (inner : Int) = depth + Text.bracketValue char)
    (outside : depth = 0 → char ≠ ':' ∧ (char = '!' → ahead.head? = some '=')) :
    Mode.step char ahead (.field literal (.expression depth)) =
      (.expression, .field literal (.expression inner)) := by
  have visible : (char == '\n') = false := by simpa using noBreak
  simp only [Mode.step, Mode.stepField, visible, Bool.false_eq_true, if_false, Field.step, noQuote]
  unfold Text.bracketValue at counted
  by_cases opens : isOpener char = true
  · obtain rfl : inner = depth + 1 := by
      rw [if_pos opens] at counted
      omega
    simp [opens]
  · rw [if_neg opens] at counted ⊢
    by_cases closes : isCloser char = true
    · rw [if_pos closes] at counted ⊢
      cases depth with
      | zero => omega
      | succ outer =>
          obtain rfl : inner = outer := by omega
          rfl
    · obtain rfl : inner = depth := by
        rw [if_neg closes] at counted
        omega
      have goesOn : ((char == ':' || char == '!') && inner == 0 && ahead.head? != some '=') =
          false := by
        cases inner with
        | succ outer => simp
        | zero =>
            obtain ⟨noColon, inequality⟩ := outside rfl
            by_cases mark : char = '!'
            · simp [inequality mark]
            · simp [noColon, mark]
      simp [closes, goesOn]

/-- The scan keeps an expression from any depth of brackets in it on. -/
theorem scanFrom_expression {text : Text} {depth : Nat}
    (plain : ∀ char ∈ text, isQuote char = false ∧ char ≠ '\n')
    (stays : Text.StaysOpen depth text)
    (outside : ∀ position < text.length, depth + Text.bracketDelta (text.take position) = 0 →
      text[position]? ≠ some ':' ∧ (text[position]? = some '!' → text[position + 1]? = some '='))
    (rest : Text) :
    Glyph.scanFrom (.field literal (.expression depth)) (text ++ rest) =
      Glyph.ofRole .expression text ++
        Glyph.scanFrom (.field literal (.expression (Text.depthAfter depth text))) rest := by
  induction text generalizing depth with
  | nil => simp [Text.depthAfter, Glyph.ofRole]
  | cons char others ih =>
      obtain ⟨⟨noQuote, noBreak⟩, plainLater⟩ := List.forall_mem_cons.mp plain
      have split : Text.StaysOpen depth ([char] ++ others) := stays
      obtain ⟨counted, staysLater⟩ := split.depthAfter
      simp only [Text.bracketDelta_cons, Text.bracketDelta_nil, Int.add_zero] at counted
      have later := ih plainLater staysLater (by
        intro position bound level
        have next := outside (position + 1) (by simpa using bound) (by
          rw [List.take_succ_cons, Text.bracketDelta_cons]
          omega)
        simpa using next)
      have step : Mode.step char (others ++ rest) (.field literal (.expression depth)) =
          (.expression, .field literal (.expression (Text.depthAfter depth [char]))) := by
        apply step_expression noQuote noBreak counted
        intro outermost
        have here := outside 0 (by simp) (by simp [outermost])
        refine ⟨by simpa using here.1, fun mark => ?_⟩
        have next : others[0]? = some '=' := by simpa using here.2 (by simp [mark])
        cases others with
        | nil => simp at next
        | cons first _ => simpa using next
      have depths : Text.depthAfter (Text.depthAfter depth [char]) others =
          Text.depthAfter depth (char :: others) := by
        have whole : (Text.depthAfter depth (char :: others) : Int) =
            depth + Text.bracketDelta (char :: others) :=
          Int.toNat_of_nonneg (stays _ List.prefix_rfl)
        have remaining : (Text.depthAfter (Text.depthAfter depth [char]) others : Int) =
            Text.depthAfter depth [char] + Text.bracketDelta others :=
          Int.toNat_of_nonneg (staysLater _ List.prefix_rfl)
        rw [Text.bracketDelta_cons] at whole
        omega
      rw [List.cons_append, Glyph.scanFrom_cons, step, later, depths]
      rfl

/-- A character of a specification is hidden, and braces are counted. -/
theorem step_format {char : Char} {depth inner : Nat} (noBreak : char ≠ '\n')
    (counted : inner + [char].count '\x7d' = depth + [char].count '\x7b') (ahead : Text) :
    Mode.step char ahead (.field literal (.format depth)) =
      (.body, .field literal (.format inner)) := by
  have visible : (char == '\n') = false := by simpa using noBreak
  simp only [Mode.step, Mode.stepField, visible, Bool.false_eq_true, if_false, Field.step]
  rw [List.count_singleton, List.count_singleton] at counted
  by_cases opens : char = '\x7b'
  · subst opens
    obtain rfl : inner = depth + 1 := by simpa using counted
    rfl
  · by_cases closes : char = '\x7d'
    · subst closes
      obtain rfl : inner + 1 = depth := by simpa using counted
      rfl
    · obtain rfl : inner = depth := by simpa [opens, closes] using counted
      simp [opens, closes]

/-- The scan hides a format specification from any depth of braces in it on. -/
theorem scanFrom_format {text : Text} {depth : Nat} (unbroken : '\n' ∉ text)
    (stays : ∀ before, before <+: text → before.count '\x7d' ≤ depth + before.count '\x7b')
    (rest : Text) :
    Glyph.scanFrom (.field literal (.format depth)) (text ++ rest) =
      Glyph.ofRole .body text ++
        Glyph.scanFrom
          (.field literal (.format (depth + text.count '\x7b' - text.count '\x7d'))) rest := by
  induction text generalizing depth with
  | nil => rfl
  | cons char others ih =>
      simp only [List.mem_cons, not_or] at unbroken
      obtain ⟨inner, counted⟩ : ∃ inner,
          inner + [char].count '\x7d' = depth + [char].count '\x7b' :=
        ⟨_, Nat.sub_add_cancel (stays [char] (List.prefix_append [char] others))⟩
      have counts : ∀ (brace : Char) (before : Text),
          (char :: before).count brace = [char].count brace + before.count brace := by
        intro brace before
        rw [← List.count_append]
        rfl
      have step : Mode.step char (others ++ rest) (.field literal (.format depth)) =
          (.body, .field literal (.format inner)) :=
        step_format (Ne.symm unbroken.1) counted (others ++ rest)
      have staysLater : ∀ before, before <+: others →
          before.count '\x7d' ≤ inner + before.count '\x7b' := by
        intro before isPrefix
        have bound := stays (char :: before) (List.cons_prefix_cons.mpr ⟨rfl, isPrefix⟩)
        rw [counts _ before, counts _ before] at bound
        omega
      have depths : inner + others.count '\x7b' - others.count '\x7d' =
          depth + (char :: others).count '\x7b' - (char :: others).count '\x7d' := by
        rw [counts _ others, counts _ others]
        omega
      rw [List.cons_append, Glyph.scanFrom_cons, step, ih unbroken.2 staysLater, depths]
      rfl

/-- A mark that no equal sign follows ends the expression. -/
theorem step_mark {mark : Char} (isMark : mark = ':' ∨ mark = '!') {ahead : Text}
    (noSign : ahead.head? ≠ some '=') :
    Mode.step mark ahead (.field literal (.expression 0)) =
      (.body, .field literal (.format 0)) := by
  rcases isMark with rfl | rfl
  · simp [Mode.step, Mode.stepField, Field.step, isQuote, isOpener, isCloser, noSign]
  · simp [Mode.step, Mode.stepField, Field.step, isQuote, isOpener, isCloser, noSign]

/-- From its mark on, what follows an expression is hidden to the end of the field. -/
theorem scanFrom_mark {mark : Char} (isMark : mark = ':' ∨ mark = '!') {text : Text}
    (specification : text.IsSpecification) (noSign : text.head? ≠ some '=') (rest : Text) :
    Glyph.scanFrom (.field literal (.expression 0)) (mark :: (text ++ '\x7d' :: rest)) =
      Glyph.ofRole .body (mark :: (text ++ ['\x7d'])) ++
        Glyph.scanFrom (.inside literal) rest := by
  have ahead : (text ++ '\x7d' :: rest).head? ≠ some '=' := by
    cases text with
    | nil => simp
    | cons first others => simpa using noSign
  have closing : Mode.step '\x7d' rest (.field literal (.format 0)) = (.body, .inside literal) :=
    rfl
  have stays : ∀ before, before <+: text → before.count '\x7d' ≤ 0 + before.count '\x7b' := by
    simpa using specification.staysOpen
  have level : 0 + text.count '\x7b' - text.count '\x7d' = 0 := by
    rw [specification.closed]
    omega
  rw [Glyph.scanFrom_cons, step_mark isMark ahead, scanFrom_format specification.unbroken stays,
    level, Glyph.scanFrom_cons, closing]
  simp [Glyph.ofRole]

/-- What follows an expression is hidden, if no name looks assigned. -/
theorem scanFrom_ending {field : ReplacementField} (wellFormed : field.WellFormed)
    (unassigned : ¬ field.LooksAssigned) (rest : Text) :
    Glyph.scanFrom (.field literal (.expression 0)) (field.ending ++ '\x7d' :: rest) =
      Glyph.ofRole .body (field.ending ++ ['\x7d']) ++ Glyph.scanFrom (.inside literal) rest := by
  obtain ⟨expression, conversion?, specification?⟩ := field
  obtain ⟨-, isLetter, isSpecification⟩ := wellFormed
  cases conversion? with
  | none =>
      cases specification? with
      | none => rfl
      | some specification =>
          have noSign : specification.head? ≠ some '=' :=
            fun sign => unassigned ⟨rfl, specification, rfl, sign⟩
          exact scanFrom_mark (.inl rfl) (isSpecification specification rfl) noSign rest
  | some letter =>
      have isWord := isLetter letter rfl
      have noSign : ∀ text : Text, (letter :: text).head? ≠ some '=' := by
        rintro text sign
        obtain rfl : letter = '=' := by simpa using sign
        exact absurd isWord (by decide)
      have plain : letter ∉ ['\n', '\x7b', '\x7d'] := by
        simp only [List.mem_cons, List.not_mem_nil, or_false]
        rintro (rfl | rfl | rfl)
        all_goals exact absurd isWord (by decide)
      cases specification? with
      | none =>
          have alone : Text.IsSpecification [letter] := by
            have empty : Text.IsSpecification [] := by decide
            exact empty.cons plain
          exact scanFrom_mark (.inr rfl) alone (noSign []) rest
      | some specification =>
          have whole : Text.IsSpecification (letter :: ':' :: specification) :=
            ((isSpecification specification rfl).cons (by decide)).cons plain
          exact scanFrom_mark (.inr rfl) whole (noSign _) rest

/-- A single brace opens a field. -/
theorem step_opener (formatted : literal.formatted = true) (quoted : isQuote literal.quote = true)
    {ahead : Text} (single : ahead.head? ≠ some '\x7b') :
    Mode.step '\x7b' ahead (.inside literal) = (.body, .field literal (.expression 0)) := by
  have noQuote : '\x7b' ≠ literal.quote := by
    intro same
    rw [← same] at quoted
    cases quoted
  simp [Mode.step, Mode.stepInside, noQuote, formatted, single]

/-- A field is entered at its brace, and its expression is kept. -/
theorem scanFrom_opened {field : ReplacementField} (isExpression : field.expression.IsExpression)
    (formatted : literal.formatted = true) (quoted : isQuote literal.quote = true) (rest : Text) :
    Glyph.scanFrom (.inside literal) (field.text ++ rest) =
      ⟨'\x7b', .body⟩ :: (Glyph.ofRole .expression field.expression ++
        Glyph.scanFrom (.field literal (.expression 0)) (field.ending ++ '\x7d' :: rest)) := by
  have single : (field.expression ++ (field.ending ++ '\x7d' :: rest)).head? ≠ some '\x7b' := by
    cases more : field.expression with
    | nil => exact absurd more isExpression.nonempty
    | cons first others => simpa [more] using isExpression.noBrace
  have level : Text.depthAfter 0 field.expression = 0 := by
    rw [Text.depthAfter, isExpression.closed]
    rfl
  have outside : ∀ position < field.expression.length,
      ((0 : Nat) : Int) + Text.bracketDelta (field.expression.take position) = 0 →
        field.expression[position]? ≠ some ':' ∧
          (field.expression[position]? = some '!' →
            field.expression[position + 1]? = some '=') := by
    simpa using isExpression.outside
  have kept : Glyph.scanFrom (.field literal (.expression 0))
      (field.expression ++ (field.ending ++ '\x7d' :: rest)) = _ :=
    scanFrom_expression isExpression.plain isExpression.staysOpen outside _
  have whole : field.text ++ rest =
      '\x7b' :: (field.expression ++ (field.ending ++ '\x7d' :: rest)) := by
    simp [text]
  rw [whole, Glyph.scanFrom_cons, step_opener formatted quoted single, kept, level]

/-- A field in which no name looks assigned has the glyphs that it should have. -/
theorem scanFrom_text {field : ReplacementField} (wellFormed : field.WellFormed)
    (unassigned : ¬ field.LooksAssigned) (formatted : literal.formatted = true)
    (quoted : isQuote literal.quote = true) (rest : Text) :
    Glyph.scanFrom (.inside literal) (field.text ++ rest) =
      field.glyphs ++ Glyph.scanFrom (.inside literal) rest := by
  rw [scanFrom_opened wellFormed.expression formatted quoted,
    scanFrom_ending wellFormed unassigned, glyphs]
  simp

/-- Where a name looks assigned, the mark of the specification is kept with the expression. -/
theorem exists_scanFrom_text {field : ReplacementField} (wellFormed : field.WellFormed)
    (assigned : field.LooksAssigned) (formatted : literal.formatted = true)
    (quoted : isQuote literal.quote = true) (rest : Text) :
    ∃ later, Glyph.scanFrom (.inside literal) (field.text ++ rest) =
      ⟨'\x7b', .body⟩ ::
        (Glyph.ofRole .expression field.expression ++ ⟨':', .expression⟩ :: later) := by
  obtain ⟨noConversion, specification, found, sign⟩ := assigned
  obtain ⟨more, rfl⟩ := List.head?_eq_some_iff.mp sign
  have ending : field.ending = ':' :: '=' :: more := by
    simp [ReplacementField.ending, noConversion, found]
  have step : Mode.step ':' ('=' :: (more ++ '\x7d' :: rest)) (.field literal (.expression 0)) =
      (.expression, .field literal (.expression 0)) := rfl
  refine ⟨Glyph.scanFrom (.field literal (.expression 0)) ('=' :: (more ++ '\x7d' :: rest)), ?_⟩
  rw [scanFrom_opened wellFormed.expression formatted quoted, ending, List.cons_append,
    List.cons_append, Glyph.scanFrom_cons, step]

theorem unbroken_ending {field : ReplacementField} (wellFormed : field.WellFormed) :
    '\n' ∉ field.ending := by
  obtain ⟨expression, conversion?, specification?⟩ := field
  obtain ⟨-, isLetter, isSpecification⟩ := wellFormed
  have noBreak : ∀ letter ∈ conversion?, '\n' ≠ letter := by
    rintro letter found rfl
    exact absurd (isLetter '\n' found) (by decide)
  have unbroken : ∀ specification ∈ specification?, '\n' ∉ specification :=
    fun specification found => (isSpecification specification found).unbroken
  cases conversion? with
  | none => cases specification? with
    | none => simp [ending]
    | some specification => simpa [ending] using unbroken
  | some letter => cases specification? with
    | none => simpa [ending] using noBreak
    | some specification => simpa [ending] using And.intro (noBreak letter rfl) (unbroken _ rfl)

theorem map_shown_glyphs {field : ReplacementField} (wellFormed : field.WellFormed) :
    field.glyphs.map Glyph.shown = field.shown := by
  have unbroken : '\n' ∉ field.ending ++ ['\x7d'] := by
    simpa using unbroken_ending wellFormed
  rw [glyphs, List.map_cons, List.map_append, Glyph.map_shown_ofRole_of_isKept rfl,
    Glyph.map_shown_ofRole_of_not_isKept rfl unbroken, List.length_append]
  rfl

end ReplacementField

/-! ## Pieces -/

namespace FormattedPiece

variable {literal : Literal}

/-- A piece in which no name looks assigned has the glyphs that it should have. -/
theorem scanFrom_text {piece : FormattedPiece} (wellFormed : piece.WellFormed)
    (unassigned : ¬ piece.LooksAssigned) (formatted : literal.formatted = true)
    (quoted : isQuote literal.quote = true) (rest : Text) :
    Glyph.scanFrom (.inside literal) (piece.text ++ rest) =
      piece.glyphs ++ Glyph.scanFrom (.inside literal) rest := by
  cases piece with
  | plain char =>
      obtain ⟨noQuote, noneOf⟩ := wellFormed
      simp only [List.mem_cons, List.not_mem_nil, or_false, not_or] at noneOf
      obtain ⟨noEscape, noBreak, noOpener, noCloser⟩ := noneOf
      have inBody : char ≠ literal.quote := by
        rintro rfl
        rw [quoted] at noQuote
        cases noQuote
      simp [text, glyphs, Glyph.scanFrom_cons, Mode.step, Mode.stepInside, noEscape, inBody, noBreak,
        noOpener, noCloser]
  | doubled brace =>
      have inBody : brace ≠ literal.quote := by
        rintro rfl
        rcases wellFormed with same | same <;> rw [same] at quoted <;> cases quoted
      rcases wellFormed with rfl | rfl
      · simp [text, glyphs, Glyph.scanFrom_cons, Mode.step, Mode.stepInside, inBody, formatted]
      · simp [text, glyphs, Glyph.scanFrom_cons, Mode.step, Mode.stepInside, inBody, formatted]
  | field replacement =>
      exact ReplacementField.scanFrom_text wellFormed unassigned formatted quoted rest

theorem scanFrom_flatMap_text {pieces : List FormattedPiece}
    (wellFormed : ∀ piece ∈ pieces, piece.WellFormed)
    (unassigned : ∀ piece ∈ pieces, ¬ piece.LooksAssigned) (formatted : literal.formatted = true)
    (quoted : isQuote literal.quote = true) (rest : Text) :
    Glyph.scanFrom (.inside literal) (pieces.flatMap text ++ rest) =
      pieces.flatMap glyphs ++ Glyph.scanFrom (.inside literal) rest := by
  induction pieces with
  | nil => rfl
  | cons piece others ih =>
      obtain ⟨first, wellFormedLater⟩ := List.forall_mem_cons.mp wellFormed
      obtain ⟨plain, unassignedLater⟩ := List.forall_mem_cons.mp unassigned
      rw [List.flatMap_cons, List.append_assoc, scanFrom_text first plain formatted quoted,
        ih wellFormedLater unassignedLater, List.flatMap_cons, List.append_assoc]

theorem map_shown_glyphs {piece : FormattedPiece} (wellFormed : piece.WellFormed) :
    piece.glyphs.map Glyph.shown = piece.shown := by
  cases piece with
  | plain char =>
      obtain ⟨-, noneOf⟩ := wellFormed
      have unbroken : '\n' ∉ [char] := by
        rw [List.mem_singleton]
        rintro rfl
        simp at noneOf
      have hidden : (Glyph.ofRole .body [char]).map Glyph.shown = [' '] :=
        Glyph.map_shown_ofRole_of_not_isKept rfl unbroken
      exact hidden
  | doubled brace => rcases wellFormed with rfl | rfl <;> rfl
  | field replacement => exact ReplacementField.map_shown_glyphs wellFormed

theorem map_shown_flatMap_glyphs {pieces : List FormattedPiece}
    (wellFormed : ∀ piece ∈ pieces, piece.WellFormed) :
    (pieces.flatMap glyphs).map Glyph.shown = pieces.flatMap shown := by
  rw [List.map_flatMap]
  exact List.flatMap_congr fun piece inside => map_shown_glyphs (wellFormed piece inside)

/-- Every piece begins with a character that is no quote. -/
theorem exists_text_eq_cons {piece : FormattedPiece} (wellFormed : piece.WellFormed) :
    ∃ char rest, piece.text = char :: rest ∧ isQuote char = false := by
  cases piece with
  | plain char => exact ⟨char, [], rfl, wellFormed.1⟩
  | doubled brace => exact ⟨brace, [brace], rfl, by rcases wellFormed with rfl | rfl <;> rfl⟩
  | field replacement => exact ⟨'\x7b', _, rfl, rfl⟩

end FormattedPiece

/-! ## Whole literals -/

namespace FormattedLexeme

variable {lexeme : FormattedLexeme} {following : Text}

theorem markerOf_marker (wellFormed : lexeme.WellFormed following) :
    Lexeme.markerOf lexeme.marker = lexeme.marker := by
  have letters : ∀ letter ∈ lexeme.marker.reverse, isWordChar letter = true := by
    intro letter inside
    exact isWordChar_of_isMarkerLetter (wellFormed.letters letter (List.mem_reverse.mp inside))
  have word : (lexeme.marker.reverse.takeWhile isWordChar).reverse = lexeme.marker := by
    rw [List.takeWhile_eq_self_iff.mpr letters, List.reverse_reverse]
  have marks : lexeme.marker.all isMarkerLetter = true := List.all_eq_true.mpr wellFormed.letters
  simp [Lexeme.markerOf, word, wellFormed.short, marks]

theorem isCode_marker (wellFormed : lexeme.WellFormed following) :
    Lexeme.IsCode lexeme.marker := by
  intro letter inside
  have word := isWordChar_of_isMarkerLetter (wellFormed.letters letter inside)
  constructor
  · rintro rfl
    exact absurd word (by decide)
  · by_contra quoted
    rw [Bool.not_eq_false] at quoted
    rw [not_isWordChar_of_isQuote quoted] at word
    cases word

/-- A one-line literal does not look like a triple one. -/
theorem not_pairAhead_inner (wellFormed : lexeme.WellFormed following)
    (oneLine : lexeme.triple = false) :
    pairAhead lexeme.quote
      (lexeme.pieces.flatMap FormattedPiece.text ++ (lexeme.delimiter ++ following)) = false := by
  cases pieces : lexeme.pieces with
  | nil =>
      have delimiter : lexeme.delimiter = [lexeme.quote] := by simp [delimiter, oneLine]
      have apart := wellFormed.separated oneLine pieces
      rw [delimiter]
      cases following with
      | nil => rfl
      | cons next further =>
          have inside : next ∈ (lexeme.quote :: next :: further).take 2 := by simp
          exact not_pairAhead_of_mem inside (by simpa using apart)
  | cons piece others =>
      have first := wellFormed.pieces piece (by simp [pieces])
      obtain ⟨char, rest, text, noQuote⟩ := FormattedPiece.exists_text_eq_cons first
      rw [List.flatMap_cons, text]
      apply not_pairAhead_of_mem List.mem_cons_self
      rintro rfl
      rw [wellFormed.quoted] at noQuote
      cases noQuote

/-- Where no word comes before it, a literal is entered through its marker and its delimiter. -/
theorem scanFrom_entered (wellFormed : lexeme.WellFormed following) :
    Glyph.scanFrom (.code false) (lexeme.text ++ following) =
      Glyph.ofRole .marker lexeme.marker ++ (Glyph.ofRole .delimiter lexeme.delimiter ++
        Glyph.scanFrom (.inside ⟨lexeme.quote, lexeme.triple, true⟩)
          (lexeme.pieces.flatMap FormattedPiece.text ++ (lexeme.delimiter ++ following))) := by
  obtain ⟨tail, text_eq⟩ : ∃ tail, lexeme.delimiter ++
      (lexeme.pieces.flatMap FormattedPiece.text ++ (lexeme.delimiter ++ following)) =
        lexeme.quote :: tail := by
    unfold delimiter
    cases lexeme.triple with
    | false => exact ⟨_, rfl⟩
    | true => exact ⟨_, rfl⟩
  have marked : Glyph.scanFrom (.code false) (lexeme.marker ++ lexeme.quote :: tail) =
      Glyph.ofRole .code (lexeme.marker.take
          (lexeme.marker.length - (Lexeme.markerOf lexeme.marker).length)) ++
        Glyph.ofRole .marker (Lexeme.markerOf lexeme.marker) ++
        ⟨lexeme.quote, .delimiter⟩ :: Glyph.scanFrom
          (Mode.openLiteral lexeme.quote tail
            ((Lexeme.markerOf lexeme.marker).any isFormatLetter)) tail :=
    Lexeme.scanFrom_code_quote (isCode_marker wellFormed) wellFormed.quoted tail false
  have opened := Lexeme.scanFrom_opening true (not_pairAhead_inner wellFormed) text_eq
  rw [markerOf_marker wellFormed, Nat.sub_self, List.take_zero, Glyph.ofRole_nil,
    List.nil_append, wellFormed.formatted, opened] at marked
  have whole : lexeme.text ++ following = lexeme.marker ++ lexeme.quote :: tail := by
    rw [← text_eq]
    simp [text]
  rw [whole, marked]
  rfl

/-- A literal in which no name looks assigned has the glyphs that it should have. -/
theorem scanFrom_text (wellFormed : lexeme.WellFormed following)
    (unassigned : ∀ piece ∈ lexeme.pieces, ¬ piece.LooksAssigned) :
    Glyph.scanFrom (.code false) (lexeme.text ++ following) =
      lexeme.glyphs ++ Glyph.scanFrom (.code false) following := by
  have closed : Glyph.scanFrom (.inside ⟨lexeme.quote, lexeme.triple, true⟩)
      (lexeme.delimiter ++ following) =
        Glyph.ofRole .delimiter lexeme.delimiter ++ Glyph.scanFrom (.code false) following :=
    Lexeme.scanFrom_closing wellFormed.quoted lexeme.triple true following
  rw [scanFrom_entered wellFormed, FormattedPiece.scanFrom_flatMap_text wellFormed.pieces unassigned
    rfl wellFormed.quoted, closed, glyphs]
  simp

theorem map_shown_marker (wellFormed : lexeme.WellFormed following) :
    (Glyph.ofRole .marker lexeme.marker).map Glyph.shown =
      List.replicate lexeme.marker.length ' ' := by
  have unbroken : '\n' ∉ lexeme.marker := by
    intro inside
    exact absurd (wellFormed.letters '\n' inside) (by decide)
  exact Glyph.map_shown_ofRole_of_not_isKept rfl unbroken

theorem map_shown_delimiter (lexeme : FormattedLexeme) :
    (Glyph.ofRole .delimiter lexeme.delimiter).map Glyph.shown = lexeme.delimiter :=
  Glyph.map_shown_ofRole_of_isKept rfl lexeme.delimiter

/-- A literal in which no name looks assigned is shown as it should be. -/
theorem map_shown_scanFrom_text (wellFormed : lexeme.WellFormed following)
    (unassigned : ∀ piece ∈ lexeme.pieces, ¬ piece.LooksAssigned) :
    (Glyph.scanFrom (.code false) (lexeme.text ++ following)).map Glyph.shown =
      lexeme.shown ++ (Glyph.scanFrom (.code false) following).map Glyph.shown := by
  rw [scanFrom_text wellFormed unassigned, List.map_append]
  simp only [glyphs, shown, List.map_append, map_shown_marker wellFormed, map_shown_delimiter,
    FormattedPiece.map_shown_flatMap_glyphs wellFormed.pieces]

/-- Where a name looks assigned, a colon is shown that should be hidden. -/
theorem not_begins_shown (wellFormed : lexeme.WellFormed following)
    {earlier later : List FormattedPiece} {field : ReplacementField}
    (split : lexeme.pieces = earlier ++ .field field :: later)
    (unassigned : ∀ piece ∈ earlier, ¬ piece.LooksAssigned) (assigned : field.LooksAssigned) :
    ¬ lexeme.shown <+:
      (Glyph.scanFrom (.code false) (lexeme.text ++ following)).map Glyph.shown := by
  have wellFormedPieces := wellFormed.pieces
  rw [split] at wellFormedPieces
  obtain ⟨wellFormedEarlier, wellFormedRest⟩ := List.forall_mem_append.mp wellFormedPieces
  have wellFormedField : field.WellFormed := wellFormedRest _ List.mem_cons_self
  have formatted : (⟨lexeme.quote, lexeme.triple, true⟩ : Literal).formatted = true := rfl
  obtain ⟨more, scanned⟩ := ReplacementField.exists_scanFrom_text wellFormedField assigned formatted
    wellFormed.quoted (later.flatMap FormattedPiece.text ++ (lexeme.delimiter ++ following))
  have inner : lexeme.pieces.flatMap FormattedPiece.text ++ (lexeme.delimiter ++ following) =
      earlier.flatMap FormattedPiece.text ++ (field.text ++
        (later.flatMap FormattedPiece.text ++ (lexeme.delimiter ++ following))) := by
    simp [split, FormattedPiece.text]
  have kept : (Glyph.ofRole .expression field.expression).map Glyph.shown = field.expression :=
    Glyph.map_shown_ofRole_of_isKept rfl field.expression
  rw [scanFrom_entered wellFormed, inner, FormattedPiece.scanFrom_flatMap_text wellFormedEarlier
    unassigned formatted wellFormed.quoted, scanned]
  simp only [List.map_append, List.map_cons, map_shown_marker wellFormed, map_shown_delimiter,
    FormattedPiece.map_shown_flatMap_glyphs wellFormedEarlier, kept]
  simp only [shown, split, List.flatMap_append, List.flatMap_cons, FormattedPiece.shown,
    ReplacementField.shown, List.append_assoc, List.cons_append, List.prefix_append_right_inj,
    List.cons_prefix_cons, List.replicate_succ]
  rintro ⟨-, hidden, -⟩
  exact absurd hidden (by decide)

theorem length_shown (wellFormed : lexeme.WellFormed following)
    (unassigned : ∀ piece ∈ lexeme.pieces, ¬ piece.LooksAssigned) :
    lexeme.shown.length = lexeme.text.length := by
  have whole := congrArg List.length (map_shown_scanFrom_text wellFormed unassigned)
  simp only [List.length_append, List.length_map, Glyph.length_scanFrom] at whole
  omega

/-- In any text, what is shown of a formatted literal is what should be shown of it if and only if none
of its format specifications looks as if it assigned to the expression before it. -/
theorem shown_iff (wellFormed : lexeme.WellFormed following) {before : Text}
    (outside : Mode.after (lexeme.text ++ following) (.code false) before = .code false) :
    ((Text.blanked (before ++ (lexeme.text ++ following))).drop before.length).take
        lexeme.text.length = lexeme.shown ↔
      ∀ piece ∈ lexeme.pieces, ¬ piece.LooksAssigned := by
  rw [Text.drop_blanked, outside]
  constructor
  · intro same
    cases first : lexeme.pieces.find? (decide ·.LooksAssigned) with
    | none => simpa using first
    | some piece =>
        obtain ⟨assigned, earlier, later, parted, plain⟩ := List.find?_eq_some_iff_append.mp first
        have assigns : piece.LooksAssigned := of_decide_eq_true assigned
        cases piece with
        | plain _ | doubled _ => exact assigns.elim
        | field replacement =>
            have shownFirst : lexeme.shown <+:
                (Glyph.scanFrom (.code false) (lexeme.text ++ following)).map Glyph.shown := by
              rw [← same]
              exact List.take_prefix _ _
            exact absurd shownFirst
              (not_begins_shown wellFormed parted (by simpa using plain) assigns)
  · intro unassigned
    rw [map_shown_scanFrom_text wellFormed unassigned, ← length_shown wellFormed unassigned,
      List.take_left]

theorem shown_iff_annotated :
    let lexeme : FormattedLexeme :=
      ⟨"rf".toList, '"', true, [.plain 'a', .doubled '\x7b',
        .field ⟨"x[1:2] != y".toList, some 'r', some "=>\x7bw\x7d".toList⟩, .plain '=',
        .field ⟨['z'], none, some "+=".toList⟩]⟩
    let before := "s = '' + ".toList
    let following := "  # x".toList
    lexeme.WellFormed following ∧
      Mode.after (lexeme.text ++ following) (.code false) before = .code false ∧
      lexeme.shown = "  \"\"\"    x[1:2] != y           z    \"\"\"".toList ∧
      ((Text.blanked (before ++ (lexeme.text ++ following))).drop before.length).take
        lexeme.text.length = lexeme.shown := by
  intro lexeme before following
  have wellFormed : lexeme.WellFormed following := by decide +kernel
  have outside : Mode.after (lexeme.text ++ following) (.code false) before = .code false := by
    decide +kernel
  have unassigned : ∀ piece ∈ lexeme.pieces, ¬ piece.LooksAssigned := by
    decide +kernel
  exact ⟨wellFormed, outside, by decide +kernel, (shown_iff wellFormed outside).mpr unassigned⟩

/-- A well-formed literal with a fill character that is an equal sign. The mark, the sign and the
width are shown as if they were code. -/
theorem not_shown_of_equal_fill :
    let lexeme : FormattedLexeme :=
      ⟨['f'], '"', false, [.field ⟨['x'], none, some "=10".toList⟩]⟩
    lexeme.WellFormed [] ∧ lexeme.shown = " \" x     \"".toList ∧
      Text.blanked lexeme.text = " \" x:=10 \"".toList ∧
      Text.blanked lexeme.text ≠ lexeme.shown := by
  decide +kernel

end FormattedLexeme

end NotebookLint
