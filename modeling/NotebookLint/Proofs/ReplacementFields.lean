import NotebookLint.Proofs.FormattedLiterals

/-! The extent of replacement fields. From whichever opening brace a field is read, it ends within the
text, and in what is shown of it no bracket is closed that was not opened in it. If a closer ends the
field, none is left open either. -/

set_option autoImplicit false

namespace NotebookLint

/-! ## One character of a field -/

namespace Field

/-- The brackets of its own in which a field stands. A format specification is in none, because it
begins outside all brackets. -/
def depth : Field → Nat
  | .expression depth | .quoted depth _ => depth
  | .format _ => 0

/-- Whether a string in a field was opened by a quote. -/
def Quotes : Field → Prop
  | .quoted _ quote => isQuote quote = true
  | .expression _ | .format _ => True

/-- What a step of a field can be. Its depth follows the brackets that are kept, and only a closer
outside all brackets ends it. -/
inductive Moves (char : Char) (place : Field) : Bool × Option Field → Prop where
  | goesOn {kept : Bool} {next : Field} : next.Quotes →
      (next.depth : Int) = place.depth + (if kept then Text.bracketValue char else 0) →
      Moves char place (kept, some next)
  | ends : isCloser char = true → place.depth = 0 → Moves char place (false, none)

theorem bracketValue_shown_body (char : Char) :
    Text.bracketValue (Glyph.shown ⟨char, .body⟩) = 0 := by
  by_cases isBreak : char = '\n'
  · rw [isBreak]
    rfl
  · have hidden : Glyph.shown ⟨char, .body⟩ = ' ' := by simp [Glyph.shown, isBreak]
    rw [hidden]
    rfl

theorem bracketValue_of_isQuote {char : Char} (quote : isQuote char = true) :
    Text.bracketValue char = 0 := by
  simp only [isQuote, Bool.or_eq_true, beq_iff_eq] at quote
  cases quote with
  | inl double => rw [double]; rfl
  | inr single => rw [single]; rfl

theorem moves_expression (depth : Nat) (char : Char) (ahead : Text) :
    Moves char (.expression depth) (step char ahead (.expression depth)) := by
  unfold step
  cases quoted : isQuote char with
  | true =>
      have value := bracketValue_of_isQuote quoted
      exact .goesOn quoted (by simp [Field.depth, value])
  | false =>
      cases opens : isOpener char with
      | true => exact .goesOn trivial (by simp [Field.depth, Text.bracketValue, opens])
      | false =>
          cases closes : isCloser char with
          | true =>
              cases depth with
              | zero => exact .ends closes rfl
              | succ outer =>
                  exact .goesOn trivial (by simp [Field.depth, Text.bracketValue, opens, closes])
          | false =>
              have value : Text.bracketValue char = 0 := by
                simp [Text.bracketValue, opens, closes]
              simp only [Bool.false_eq_true, if_false]
              split
              · rename_i mark
                have outside : depth = 0 := by
                  simp only [Bool.and_eq_true, beq_iff_eq] at mark
                  exact mark.1.2
                exact .goesOn trivial (by simp [Field.depth, outside])
              · exact .goesOn trivial (by simp [Field.depth, value])

theorem moves_quoted (depth : Nat) {quote : Char} (quoted : isQuote quote = true) (char : Char)
    (ahead : Text) : Moves char (.quoted depth quote) (step char ahead (.quoted depth quote)) := by
  simp only [step]
  split
  · rename_i same
    have value : Text.bracketValue char = 0 :=
      bracketValue_of_isQuote (by rw [eq_of_beq same]; exact quoted)
    exact .goesOn trivial (by simp [Field.depth, value])
  · exact .goesOn quoted (by simp [Field.depth])

theorem moves_format (depth : Nat) (char : Char) (ahead : Text) :
    Moves char (.format depth) (step char ahead (.format depth)) := by
  simp only [step]
  split
  · exact .goesOn trivial (by simp [Field.depth])
  · split
    · rename_i closes
      cases depth with
      | zero => exact .ends (by rw [eq_of_beq closes]; rfl) rfl
      | succ outer => exact .goesOn trivial (by simp [Field.depth])
    · exact .goesOn trivial (by simp [Field.depth])

theorem moves_step {place : Field} (quotes : place.Quotes) (char : Char) (ahead : Text) :
    Moves char place (place.step char ahead) := by
  cases place with
  | expression depth => exact moves_expression depth char ahead
  | quoted depth quote => exact moves_quoted depth quotes char ahead
  | format depth => exact moves_format depth char ahead

end Field

/-! ## Whole fields -/

inductive FieldEnd where
  | closer
  /-- The line break that ends the literal of the field. -/
  | lineBreak
  | textEnd
  deriving DecidableEq, Repr

structure FieldReading where
  glyphs : List Glyph
  ending : FieldEnd
  deriving DecidableEq, Repr

def FieldReading.behind (glyph : Glyph) (reading : FieldReading) : FieldReading :=
  { reading with glyphs := glyph :: reading.glyphs }

namespace Field

/-- Reads a field from a place in it on. A line break leaves the field as it is, unless the literal of
the field has to end on its line. -/
def read (oneLine : Bool) : Field → Text → FieldReading
  | _, [] => ⟨[], .textEnd⟩
  | place, char :: rest =>
      if char = '\n' then
        if oneLine then ⟨[], .lineBreak⟩ else (read oneLine place rest).behind ⟨char, .body⟩
      else
        match place.step char rest with
        | (kept, some next) =>
            (read oneLine next rest).behind ⟨char, if kept then .expression else .body⟩
        | (kept, none) => ⟨[⟨char, if kept then .expression else .body⟩], .closer⟩

/-- How a field is read, character by character. -/
inductive Reads (oneLine : Bool) : Field → Text → FieldReading → Prop where
  | textEnd {place : Field} : Reads oneLine place [] ⟨[], .textEnd⟩
  | lineBreak {place : Field} {rest : Text} :
      oneLine = true → Reads oneLine place ('\n' :: rest) ⟨[], .lineBreak⟩
  | closer {place : Field} {char : Char} {rest : Text} :
      isCloser char = true → place.depth = 0 →
      Reads oneLine place (char :: rest) ⟨[⟨char, .body⟩], .closer⟩
  | goesOn {place next : Field} {char : Char} {role : Role} {rest : Text} {reading : FieldReading} :
      (oneLine = true → char ≠ '\n') →
      (next.depth : Int) = place.depth + Text.bracketValue (Glyph.shown ⟨char, role⟩) →
      Reads oneLine next rest reading →
      Reads oneLine place (char :: rest) (reading.behind ⟨char, role⟩)

theorem reads_read {place : Field} (quotes : place.Quotes) (oneLine : Bool) (text : Text) :
    Reads oneLine place text (place.read oneLine text) := by
  induction text generalizing place with
  | nil => exact .textEnd
  | cons char rest ih =>
      unfold read
      by_cases isBreak : char = '\n'
      · subst isBreak
        cases oneLine with
        | true => exact .lineBreak rfl
        | false =>
            have value := bracketValue_shown_body '\n'
            exact .goesOn (by simp) (by rw [value, Int.add_zero]) (ih quotes)
      · rw [if_neg isBreak]
        have moves := moves_step quotes char rest
        generalize place.step char rest = result at moves
        cases moves with
        | ends closes outside => exact .closer closes outside
        | @goesOn kept next quotesNext level =>
            have value : Text.bracketValue
                (Glyph.shown ⟨char, if kept then .expression else .body⟩) =
                  if kept then Text.bracketValue char else 0 := by
              cases kept with
              | true => simp [Glyph.shown, isBreak]
              | false => exact bracketValue_shown_body char
            exact .goesOn (fun _ => isBreak) (by rw [level, value]) (ih quotesNext)

namespace Reads

variable {oneLine : Bool} {place : Field} {text : Text} {reading : FieldReading}

/-- A reading takes the characters of the text in their order. -/
theorem map_char_begins (reads : Reads oneLine place text reading) :
    reading.glyphs.map Glyph.char <+: text := by
  induction reads with
  | textEnd => exact List.nil_prefix
  | lineBreak => exact List.nil_prefix
  | closer => exact List.cons_prefix_cons.mpr ⟨rfl, List.nil_prefix⟩
  | goesOn _ _ _ ih => exact List.cons_prefix_cons.mpr ⟨rfl, ih⟩

/-- A field closes no bracket that was opened before it. -/
theorem staysOpen (reads : Reads oneLine place text reading) :
    Text.StaysOpen place.depth (reading.glyphs.map Glyph.shown) := by
  induction reads with
  | textEnd => exact Text.staysOpen_nil
  | lineBreak => exact Text.staysOpen_nil
  | @closer place char _ _ _ =>
      have level : (place.depth : Int) =
          place.depth + Text.bracketValue (Glyph.shown ⟨char, .body⟩) := by
        rw [bracketValue_shown_body, Int.add_zero]
      exact Text.staysOpen_nil.cons level
  | goesOn _ level _ ih => exact ih.cons level

/-- A field that a closer ends leaves no bracket open. -/
theorem bracketDelta_eq (reads : Reads oneLine place text reading)
    (closed : reading.ending = .closer) :
    place.depth + Text.bracketDelta (reading.glyphs.map Glyph.shown) = 0 := by
  induction reads with
  | textEnd => cases closed
  | lineBreak => cases closed
  | @closer place char _ closes outside =>
      simp [bracketValue_shown_body, outside]
  | goesOn _ level _ ih =>
      have later := ih closed
      rw [FieldReading.behind, List.map_cons, Text.bracketDelta_cons]
      omega

theorem ne_break_of_isCloser {char : Char} (closes : isCloser char = true) : char ≠ '\n' := by
  intro isBreak
  rw [isBreak] at closes
  cases closes

/-- A field in a literal on one line is on one line. -/
theorem unbroken (reads : Reads oneLine place text reading) (single : oneLine = true) :
    ∀ glyph ∈ reading.glyphs, glyph.char ≠ '\n' := by
  induction reads with
  | textEnd => simp
  | lineBreak => simp
  | closer closes _ => simpa using ne_break_of_isCloser closes
  | goesOn noBreak _ _ ih => exact List.forall_mem_cons.mpr ⟨noBreak single, ih⟩

end Reads

/-- What stands where a field ends. -/
structure EndsIn (oneLine : Bool) (text : Text) (reading : FieldReading) : Prop where
  closer : reading.ending = .closer →
    ∃ inner closer, reading.glyphs = inner ++ [⟨closer, .body⟩] ∧ isCloser closer = true
  lineBreak : reading.ending = .lineBreak →
    oneLine = true ∧ ∃ rest, text = reading.glyphs.map Glyph.char ++ '\n' :: rest
  textEnd : reading.ending = .textEnd → text = reading.glyphs.map Glyph.char

theorem Reads.endsIn {oneLine : Bool} {place : Field} {text : Text} {reading : FieldReading}
    (reads : Reads oneLine place text reading) : EndsIn oneLine text reading := by
  induction reads with
  | textEnd => exact ⟨nofun, nofun, fun _ => rfl⟩
  | lineBreak single => exact ⟨nofun, fun _ => ⟨single, _, rfl⟩, nofun⟩
  | @closer place char rest closes _ => exact ⟨fun _ => ⟨[], char, rfl, closes⟩, nofun, nofun⟩
  | @goesOn place next char role rest reading _ _ _ ih =>
      refine ⟨fun closed => ?_, fun cut => ?_, fun ended => ?_⟩
      · obtain ⟨inner, closer, split, closes⟩ := ih.closer closed
        exact ⟨⟨char, role⟩ :: inner, closer, congrArg _ split, closes⟩
      · obtain ⟨single, further, split⟩ := ih.lineBreak cut
        exact ⟨single, further, congrArg _ split⟩
      · exact congrArg _ (ih.textEnd ended)

/-- The scan of a text goes through a field as the field is read, and behind it on in the literal. -/
theorem scanFrom_eq {literal : Literal} (quoted : isQuote literal.quote = true) (place : Field)
    (text : Text) :
    Glyph.scanFrom (.field literal place) text =
      (place.read (!literal.triple) text).glyphs ++
        Glyph.scanFrom (.inside literal)
          (text.drop (place.read (!literal.triple) text).glyphs.length) := by
  induction text generalizing place with
  | nil => rfl
  | cons char rest ih =>
      unfold read
      rw [Glyph.scanFrom_cons]
      by_cases isBreak : char = '\n'
      · subst isBreak
        cases triple : literal.triple with
        | false =>
            have inside := Mode.step_break_inside quoted triple rest
            have cut : Mode.step '\n' rest (.field literal place) = (.code, .code false) := by
              simp [Mode.step, Mode.stepField, triple]
            simp [cut, Glyph.scanFrom_cons, inside]
        | true =>
            have passed : Mode.step '\n' rest (.field literal place) = (.body, .field literal place) := by
              simp [Mode.step, Mode.stepField, triple]
            rw [triple] at ih
            simp [passed, ih place, FieldReading.behind]
      · have visible : (char == '\n') = false := by simpa using isBreak
        rw [if_neg isBreak]
        simp only [Mode.step, Mode.stepField, visible, Bool.false_eq_true, if_false]
        cases stepped : place.step char rest with
        | mk kept next? =>
            cases next? with
            | none => rfl
            | some next => simp [ih next, FieldReading.behind]

end Field

/-! ## Fields in a text -/

/-- What the scan of a field comes to: the output over which the field was written, the position
behind the field and what ended it. -/
structure FieldScan where
  output : Text
  stop : Nat
  ending : FieldEnd
  deriving DecidableEq, Repr

def FieldScan.slice (scan : FieldScan) (start : Nat) : Text :=
  (scan.output.take scan.stop).drop start

namespace Text

/-- The inside of the field that begins with the brace at a position. -/
def insideAt (oneLine : Bool) (source : Text) (start : Nat) : FieldReading :=
  (Field.expression 0).read oneLine (source.drop (start + 1))

/-- The field that begins with the brace at a position. -/
def fieldAt (oneLine : Bool) (source : Text) (start : Nat) : FieldReading :=
  (insideAt oneLine source start).behind ⟨'\x7b', .body⟩

/-- Scans the field that begins with the brace at a position and writes what is shown of it over an
output. -/
def scanField (oneLine : Bool) (source output : Text) (start : Nat) : FieldScan :=
  let field := fieldAt oneLine source start
  let stop := start + field.glyphs.length
  { output := output.take start ++ (field.glyphs.map Glyph.shown ++ output.drop stop)
    stop
    ending := field.ending }

structure ScansField (oneLine : Bool) (source output : Text) (start : Nat) (scan : FieldScan) :
    Prop where
  begins : start < scan.stop
  bounded : scan.stop ≤ source.length
  outside : ∀ position : Nat, position < start ∨ scan.stop ≤ position →
    scan.output[position]? = output[position]?
  breaks : ∀ position : Nat, scan.output[position]? = some '\n' ↔ output[position]? = some '\n'
  others : ∀ (position : Nat) (char : Char), output[position]? = some char →
    scan.output[position]? = some char ∨ scan.output[position]? = some ' '
  openersFirst : ∀ before, before <+: scan.slice start → before.countP isCloser ≤ before.countP isOpener
  balanced : scan.ending = .closer →
    (scan.slice start).countP isOpener = (scan.slice start).countP isCloser
  unbroken : oneLine = true → '\n' ∉ scan.slice start
  closer : scan.ending = .closer → ∃ closer, isCloser closer = true ∧
    source[scan.stop - 1]? = some closer ∧ scan.output[scan.stop - 1]? = some ' '
  lineBreak : scan.ending = .lineBreak → oneLine = true ∧ source[scan.stop]? = some '\n'
  textEnd : scan.ending = .textEnd → scan.stop = source.length
  /-- The scan of the whole text shows the same, and behind the field it goes on in the literal. -/
  blanked : ∀ literal : Literal, literal.formatted = true → literal.triple = !oneLine →
    Mode.after (source.drop start) (.code false) (source.take start) = .inside literal →
    source[start + 1]? ≠ some '\x7b' →
      (Text.blanked source).drop start = scan.slice start ++
        (Glyph.scanFrom (.inside literal) (source.drop scan.stop)).map Glyph.shown

section Splits

variable {oneLine : Bool} {source output : Text} {start : Nat}

theorem drop_eq_brace_cons (brace : source[start]? = some '\x7b') :
    source.drop start = '\x7b' :: source.drop (start + 1) := by
  obtain ⟨bound, found⟩ := List.getElem?_eq_some_iff.mp brace
  rw [List.drop_eq_getElem_cons bound, found]

theorem reads_insideAt (oneLine : Bool) (source : Text) (start : Nat) :
    Field.Reads oneLine (.expression 0) (source.drop (start + 1))
      (insideAt oneLine source start) := by
  have quotes : (Field.expression 0).Quotes := trivial
  exact Field.reads_read quotes oneLine (source.drop (start + 1))

/-- A field is written over an output that has been copied from the text so far. -/
theorem exists_split_scanField (oneLine : Bool) (brace : source[start]? = some '\x7b')
    (copied : output.drop start = source.drop start) :
    ∃ before written rest, before.length = start ∧ written.length = start ∧
      source = before ++ ((fieldAt oneLine source start).glyphs.map Glyph.char ++ rest) ∧
      output = written ++ ((fieldAt oneLine source start).glyphs.map Glyph.char ++ rest) ∧
      (scanField oneLine source output start).output =
        written ++ ((fieldAt oneLine source start).glyphs.map Glyph.shown ++ rest) := by
  obtain ⟨rest, split⟩ := (reads_insideAt oneLine source start).map_char_begins
  have field : source.drop start = (fieldAt oneLine source start).glyphs.map Glyph.char ++ rest := by
    rw [drop_eq_brace_cons brace, ← split]
    rfl
  have within : start ≤ output.length := by
    have nonempty := congrArg List.length (copied.trans (drop_eq_brace_cons brace))
    rw [List.length_drop, List.length_cons] at nonempty
    omega
  have written : (output.take start).length = start := List.length_take_of_le within
  have behind : output.drop (start + (fieldAt oneLine source start).glyphs.length) = rest := by
    rw [← List.drop_drop, copied, field]
    have width : ((fieldAt oneLine source start).glyphs.map Glyph.char).length =
        (fieldAt oneLine source start).glyphs.length := List.length_map _
    rw [← width, List.drop_left]
  refine ⟨source.take start, output.take start, rest, ?_, written, ?_, ?_, ?_⟩
  · obtain ⟨bound, -⟩ := List.getElem?_eq_some_iff.mp brace
    exact List.length_take_of_le (Nat.le_of_lt bound)
  · rw [← field, List.take_append_drop]
  · rw [← field, ← copied, List.take_append_drop]
  · rw [scanField, behind]

theorem slice_scanField (oneLine : Bool) (brace : source[start]? = some '\x7b')
    (copied : output.drop start = source.drop start) :
    (scanField oneLine source output start).slice start =
      (fieldAt oneLine source start).glyphs.map Glyph.shown := by
  obtain ⟨_, written, rest, _, width, _, _, result⟩ :=
    exists_split_scanField oneLine brace copied
  have stop : (scanField oneLine source output start).stop =
      start + ((fieldAt oneLine source start).glyphs.map Glyph.shown).length := by
    rw [List.length_map]
    rfl
  rw [FieldScan.slice, result, stop, ← width, List.take_length_add_append, List.drop_left,
    List.take_left]

theorem staysOpen_fieldAt (oneLine : Bool) (source : Text) (start : Nat) :
    StaysOpen 0 ((fieldAt oneLine source start).glyphs.map Glyph.shown) := by
  have level : ((0 : Nat) : Int) = (0 : Nat) + bracketValue (Glyph.shown ⟨'\x7b', .body⟩) := rfl
  exact (reads_insideAt oneLine source start).staysOpen.cons level

theorem bracketDelta_fieldAt {oneLine : Bool} {source : Text} {start : Nat}
    (closed : (fieldAt oneLine source start).ending = .closer) :
    bracketDelta ((fieldAt oneLine source start).glyphs.map Glyph.shown) = 0 := by
  have inner := (reads_insideAt oneLine source start).bracketDelta_eq closed
  have brace : bracketValue (Glyph.shown ⟨'\x7b', .body⟩) = 0 := rfl
  rw [fieldAt, FieldReading.behind, List.map_cons, bracketDelta_cons, brace]
  simpa [Field.depth] using inner

/-- At every position an output stays as it was, or it shows a glyph that was written over it. -/
theorem getElem?_splice (written rest : Text) (glyphs : List Glyph) (position : Nat) :
    (written ++ (glyphs.map Glyph.shown ++ rest))[position]? =
        (written ++ (glyphs.map Glyph.char ++ rest))[position]? ∨
      ∃ glyph : Glyph, written.length ≤ position ∧ position < written.length + glyphs.length ∧
        (written ++ (glyphs.map Glyph.char ++ rest))[position]? = some glyph.char ∧
          (written ++ (glyphs.map Glyph.shown ++ rest))[position]? = some glyph.shown := by
  by_cases before : position < written.length
  · left
    rw [List.getElem?_append_left before, List.getElem?_append_left before]
  · have behind : written.length ≤ position := Nat.le_of_not_lt before
    rw [List.getElem?_append_right behind, List.getElem?_append_right behind]
    cases found : glyphs[position - written.length]? with
    | none =>
        left
        have beyond := List.getElem?_eq_none_iff.mp found
        rw [List.getElem?_append_right (by simpa using beyond),
          List.getElem?_append_right (by simpa using beyond), List.length_map, List.length_map]
    | some glyph =>
        right
        obtain ⟨within, -⟩ := List.getElem?_eq_some_iff.mp found
        refine ⟨glyph, behind, by omega, ?_, ?_⟩
        · rw [List.getElem?_append_left (by simpa using within), List.getElem?_map, found,
            Option.map_some]
        · rw [List.getElem?_append_left (by simpa using within), List.getElem?_map, found,
            Option.map_some]

theorem stop_scanField (oneLine : Bool) (source output : Text) (start : Nat) :
    (scanField oneLine source output start).stop =
      start + 1 + (insideAt oneLine source start).glyphs.length := by
  simp only [scanField, fieldAt, FieldReading.behind, List.length_cons]
  omega

theorem drop_stop_scanField (oneLine : Bool) (source output : Text) (start : Nat) :
    source.drop (scanField oneLine source output start).stop =
      (source.drop (start + 1)).drop (insideAt oneLine source start).glyphs.length := by
  rw [stop_scanField, List.drop_drop]

theorem stop_le_length (brace : source[start]? = some '\x7b') :
    (scanField oneLine source output start).stop ≤ source.length := by
  obtain ⟨bound, -⟩ := List.getElem?_eq_some_iff.mp brace
  have taken := (reads_insideAt oneLine source start).map_char_begins.length_le
  rw [List.length_map, List.length_drop] at taken
  rw [stop_scanField]
  omega

theorem closer_scanField (brace : source[start]? = some '\x7b')
    (copied : output.drop start = source.drop start)
    (closed : (scanField oneLine source output start).ending = .closer) :
    ∃ closer, isCloser closer = true ∧
      source[(scanField oneLine source output start).stop - 1]? = some closer ∧
      (scanField oneLine source output start).output[
        (scanField oneLine source output start).stop - 1]? = some ' ' := by
  obtain ⟨inner, closer, split, closes⟩ := (reads_insideAt oneLine source start).endsIn.closer closed
  obtain ⟨before, written, rest, width, writtenWidth, text, _, result⟩ :=
    exists_split_scanField oneLine brace copied
  have glyphs : (fieldAt oneLine source start).glyphs =
      ⟨'\x7b', .body⟩ :: (inner ++ [⟨closer, .body⟩]) := congrArg _ split
  have last : (scanField oneLine source output start).stop - 1 = start + (inner.length + 1) := by
    rw [stop_scanField, split, List.length_append, List.length_singleton]
    omega
  have hidden : Glyph.shown ⟨closer, .body⟩ = ' ' := by
    simp [Glyph.shown, Field.Reads.ne_break_of_isCloser closes]
  refine ⟨closer, closes, ?_, ?_⟩
  · rw [last, text, glyphs, ← width]
    simp
  · rw [last, result, glyphs, ← writtenWidth]
    simp [hidden]

theorem lineBreak_scanField (cut : (scanField oneLine source output start).ending = .lineBreak) :
    oneLine = true ∧ source[(scanField oneLine source output start).stop]? = some '\n' := by
  obtain ⟨single, rest, split⟩ := (reads_insideAt oneLine source start).endsIn.lineBreak cut
  refine ⟨single, ?_⟩
  rw [stop_scanField, ← List.getElem?_drop, split]
  simp

theorem textEnd_scanField (brace : source[start]? = some '\x7b')
    (ended : (scanField oneLine source output start).ending = .textEnd) :
    (scanField oneLine source output start).stop = source.length := by
  obtain ⟨bound, -⟩ := List.getElem?_eq_some_iff.mp brace
  have whole := congrArg List.length ((reads_insideAt oneLine source start).endsIn.textEnd ended)
  rw [List.length_map, List.length_drop] at whole
  rw [stop_scanField]
  omega

/-- The scan of the whole text shows a field as it is scanned by itself, and goes on behind it. -/
theorem drop_blanked_field (brace : source[start]? = some '\x7b') {literal : Literal}
    (formatted : literal.formatted = true) (lines : literal.triple = !oneLine)
    (entered : Mode.after (source.drop start) (.code false) (source.take start) = .inside literal)
    (single : source[start + 1]? ≠ some '\x7b') :
    (blanked source).drop start = (fieldAt oneLine source start).glyphs.map Glyph.shown ++
      (Glyph.scanFrom (.inside literal)
        (source.drop (scanField oneLine source output start).stop)).map Glyph.shown := by
  obtain ⟨bound, -⟩ := List.getElem?_eq_some_iff.mp brace
  have width : (source.take start).length = start := List.length_take_of_le (Nat.le_of_lt bound)
  have quoted : isQuote literal.quote = true := by
    have fits : Mode.Fits (.code false) (source.take start ++ source.drop start) := trivial
    have met := fits.after
    rwa [entered] at met
  have alone : (source.drop (start + 1)).head? ≠ some '\x7b' := by
    rwa [List.head?_drop]
  have whole := drop_blanked (source.take start) (source.drop start)
  rw [List.take_append_drop, width, entered, drop_eq_brace_cons brace, Glyph.scanFrom_cons,
    ReplacementField.step_opener formatted quoted alone, Field.scanFrom_eq quoted, lines,
    Bool.not_not] at whole
  rw [whole, drop_stop_scanField, fieldAt, FieldReading.behind, insideAt]
  simp

end Splits

/-- From every opening brace in a text a field is scanned, to an end within the text. The output has to
be the text from the brace on, as it is while a text is scanned from its beginning. -/
theorem scansField {source output : Text} {start : Nat} (oneLine : Bool)
    (brace : source[start]? = some '\x7b') (copied : output.drop start = source.drop start) :
    ScansField oneLine source output start (scanField oneLine source output start) := by
  obtain ⟨before, written, rest, width, writtenWidth, text, copy, result⟩ :=
    exists_split_scanField oneLine brace copied
  have slice : (scanField oneLine source output start).slice start = _ :=
    slice_scanField oneLine brace copied
  constructor
  case begins =>
    rw [stop_scanField]
    omega
  case bounded => exact stop_le_length brace
  case outside =>
    intro position apart
    have stop : (scanField oneLine source output start).stop =
        start + (fieldAt oneLine source start).glyphs.length := rfl
    rw [result, copy]
    cases getElem?_splice written rest (fieldAt oneLine source start).glyphs position with
    | inl same => exact same
    | inr painted =>
        obtain ⟨_, behind, within, -⟩ := painted
        omega
  case breaks =>
    intro position
    rw [result, copy]
    cases getElem?_splice written rest (fieldAt oneLine source start).glyphs position with
    | inl same => rw [same]
    | inr painted =>
        obtain ⟨glyph, -, -, old, new⟩ := painted
        rw [old, new, Option.some_inj, Option.some_inj, Glyph.shown_eq_break_iff]
  case others =>
    intro position char old
    rw [copy] at old
    rw [result]
    cases getElem?_splice written rest (fieldAt oneLine source start).glyphs position with
    | inl same => exact .inl (same.trans old)
    | inr painted =>
        obtain ⟨glyph, -, -, before, after⟩ := painted
        rw [before, Option.some_inj] at old
        rw [after, ← old, Option.some_inj, Option.some_inj]
        exact glyph.shown_eq_char_or_space
  case openersFirst =>
    intro before begins
    rw [slice] at begins
    have bound := staysOpen_fieldAt oneLine source start before begins
    rw [bracketDelta_eq_sub] at bound
    omega
  case balanced =>
    intro closed
    have level := bracketDelta_fieldAt closed
    rw [← slice, bracketDelta_eq_sub] at level
    omega
  case unbroken =>
    intro single
    have inner := (reads_insideAt oneLine source start).unbroken single
    rw [slice, fieldAt, FieldReading.behind, List.mem_map]
    intro found
    obtain ⟨glyph, member, isBreak⟩ := found
    rw [Glyph.shown_eq_break_iff] at isBreak
    cases member with
    | head => cases isBreak
    | tail _ later => exact inner glyph later isBreak
  case closer => exact fun closed => closer_scanField brace copied closed
  case lineBreak => exact lineBreak_scanField
  case textEnd => exact textEnd_scanField brace
  case blanked =>
    intro literal formatted lines entered single
    rw [slice]
    exact drop_blanked_field brace formatted lines entered single

/-- A field with a string, brackets and a nested format specification, before another field. -/
theorem scansField_annotated :
    let source : Text := "x = f'\x7bd[\"a(b\"](1, [2]):>\x7bw\x7d\x7d \x7by!=z\x7d' + (".toList
    let output : Text := "x =  '\x7bd[\"a(b\"](1, [2]):>\x7bw\x7d\x7d \x7by!=z\x7d' + (".toList
    source[6]? = some '\x7b' ∧ output.drop 6 = source.drop 6 ∧
      scanField true source output 6 =
        ⟨"x =  ' d[\"   \"](1, [2])       \x7by!=z\x7d' + (".toList, 29, .closer⟩ ∧
      ScansField true source output 6 (scanField true source output 6) := by
  intro source output
  have brace : source[6]? = some '\x7b' := rfl
  have copied : output.drop 6 = source.drop 6 := by decide +kernel
  have scanned : ScansField true source output 6 (scanField true source output 6) :=
    scansField true brace copied
  exact ⟨brace, copied, by decide +kernel, scanned⟩

end Text

end NotebookLint
