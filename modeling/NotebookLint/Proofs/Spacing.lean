import Mathlib.Data.List.TakeWhile
import NotebookLint.Lexical.Lines
import NotebookLint.Lexical.Words
import NotebookLint.Proofs.TextLines

/-! Spacing. Shortening every run of spaces to one space is a normal form of texts, and the readers
of words, names, gaps and signs commute with it: they find the same whatever the width of the spaces
between. -/

set_option autoImplicit false

namespace NotebookLint.Text

/-- A text with every run of spaces shortened to one space. -/
def squeeze : Text → Text
  | [] => []
  | char :: rest =>
      if char = ' ' ∧ rest.head? = some ' ' then squeeze rest else char :: squeeze rest

@[simp] theorem squeeze_nil : squeeze [] = [] := rfl

@[simp] theorem squeeze_double (rest : Text) :
    squeeze (' ' :: ' ' :: rest) = squeeze (' ' :: rest) := by
  conv => lhs; rw [squeeze]
  simp

theorem squeeze_cons {char : Char} {rest : Text} (apart : char = ' ' → rest.head? ≠ some ' ') :
    squeeze (char :: rest) = char :: squeeze rest := by
  rw [squeeze, if_neg]
  rintro ⟨isSpace, more⟩
  exact apart isSpace more

theorem squeeze_cons_of_ne {char : Char} (visible : char ≠ ' ') (rest : Text) :
    squeeze (char :: rest) = char :: squeeze rest :=
  squeeze_cons fun isSpace => absurd isSpace visible

/-- Induction over a text by the cases of its normal form: a space before another space is dropped,
and any other character stays. -/
@[elab_as_elim]
theorem squeeze_induction {motive : Text → Prop} (nil : motive [])
    (double : ∀ rest, motive (' ' :: rest) → motive (' ' :: ' ' :: rest))
    (single : ∀ char rest, (char = ' ' → rest.head? ≠ some ' ') → motive rest →
      motive (char :: rest)) (text : Text) : motive text := by
  induction text with
  | nil => exact nil
  | cons char rest ih =>
      by_cases isDouble : char = ' ' ∧ rest.head? = some ' '
      · obtain ⟨rfl, more⟩ := isDouble
        obtain ⟨others, rfl⟩ := List.head?_eq_some_iff.mp more
        exact double others ih
      · exact single char rest (fun isSpace more => isDouble ⟨isSpace, more⟩) ih

@[simp] theorem head?_squeeze (text : Text) : (squeeze text).head? = text.head? := by
  induction text using squeeze_induction with
  | nil => rfl
  | double rest ih => simpa using ih
  | single char rest apart ih => rw [squeeze_cons apart, List.head?_cons, List.head?_cons]

@[simp] theorem isEmpty_squeeze (text : Text) : (squeeze text).isEmpty = text.isEmpty := by
  have first := head?_squeeze text
  cases text with
  | nil => rfl
  | cons char rest =>
      cases squeezed : squeeze (char :: rest) with
      | nil => simp [squeezed] at first
      | cons => rfl

theorem length_squeeze_le (text : Text) : (squeeze text).length ≤ text.length := by
  induction text using squeeze_induction with
  | nil => exact Nat.le_refl _
  | double rest ih =>
      rw [squeeze_double]
      exact ih.trans (Nat.le_succ _)
  | single char rest apart ih =>
      rw [squeeze_cons apart]
      exact Nat.succ_le_succ ih

@[simp] theorem mem_squeeze {char : Char} {text : Text} : char ∈ squeeze text ↔ char ∈ text := by
  induction text using squeeze_induction with
  | nil => rfl
  | double rest ih => simpa using ih
  | single first rest apart ih => rw [squeeze_cons apart, List.mem_cons, List.mem_cons, ih]

@[simp] theorem contains_squeeze (char : Char) (text : Text) :
    (squeeze text).contains char = text.contains char := by
  rw [Bool.eq_iff_iff, List.contains_iff_mem, List.contains_iff_mem, mem_squeeze]

@[simp] theorem all_squeeze (accepted : Char → Bool) (text : Text) :
    (squeeze text).all accepted = text.all accepted := by
  rw [Bool.eq_iff_iff, List.all_eq_true, List.all_eq_true]
  simp only [mem_squeeze]

theorem squeeze_of_not_mem {text : Text} (visible : ' ' ∉ text) : squeeze text = text := by
  induction text with
  | nil => rfl
  | cons char rest ih =>
      simp only [List.mem_cons, not_or] at visible
      rw [squeeze_cons_of_ne (Ne.symm visible.1), ih visible.2]

/-- A text without spaces is the normal form of itself alone. -/
theorem squeeze_eq_iff {text target : Text} (visible : ' ' ∉ target) :
    squeeze text = target ↔ text = target := by
  constructor
  · intro same
    have alsoVisible : ' ' ∉ text := by
      rw [← mem_squeeze, same]
      exact visible
    rw [← same, squeeze_of_not_mem alsoVisible]
  · rintro rfl
    exact squeeze_of_not_mem visible

theorem beq_squeeze (target : Text) (visible : ' ' ∉ target) (text : Text) :
    (squeeze text == target) = (text == target) := by
  rw [Bool.eq_iff_iff, beq_iff_eq, beq_iff_eq, squeeze_eq_iff visible]

@[simp] theorem dropWhile_squeeze (dropped : Char → Bool) (text : Text) :
    (squeeze text).dropWhile dropped = squeeze (text.dropWhile dropped) := by
  induction text using squeeze_induction with
  | nil => rfl
  | double rest ih =>
      rw [squeeze_double, ih]
      cases space : dropped ' ' with
      | true => simp [space]
      | false => simp [space]
  | single char rest apart ih =>
      rw [squeeze_cons apart]
      cases drops : dropped char with
      | true => simp [drops, ih]
      | false => simp [drops, squeeze_cons apart]

@[simp] theorem takeWhile_squeeze (taken : Char → Bool) (text : Text) :
    (squeeze text).takeWhile taken = squeeze (text.takeWhile taken) := by
  induction text using squeeze_induction with
  | nil => rfl
  | double rest ih =>
      rw [squeeze_double, ih]
      cases space : taken ' ' with
      | true => simp [space]
      | false => simp [space]
  | single char rest apart ih =>
      rw [squeeze_cons apart]
      cases takes : taken char with
      | true =>
          have stillApart : char = ' ' → (rest.takeWhile taken).head? ≠ some ' ' := by
            intro isSpace more
            apply apart isSpace
            cases rest with
            | nil => simp at more
            | cons next others =>
                cases nextTaken : taken next <;> simp_all
          simp only [List.takeWhile_cons, takes, if_true, ih, squeeze_cons stillApart]
      | false => simp [takes]

/-- What ends before a space holds none. -/
theorem takeWhile_squeeze_of_stops (taken : Char → Bool) (stops : taken ' ' = false)
    (text : Text) : (squeeze text).takeWhile taken = text.takeWhile taken := by
  rw [takeWhile_squeeze, squeeze_of_not_mem]
  intro member
  rw [List.mem_takeWhile_imp member] at stops
  cases stops

/-! ## Joined texts -/

theorem squeeze_cons_congr (char : Char) {left right : Text} (same : squeeze left = squeeze right) :
    squeeze (char :: left) = squeeze (char :: right) := by
  have first : left.head? = right.head? := by
    rw [← head?_squeeze left, same, head?_squeeze]
  rw [squeeze, squeeze, first, same]

@[simp] theorem squeeze_squeeze (text : Text) : squeeze (squeeze text) = squeeze text := by
  induction text using squeeze_induction with
  | nil => rfl
  | double rest ih => simpa using ih
  | single char rest apart ih =>
      rw [squeeze_cons apart, squeeze_cons (by simpa using apart), ih]

theorem squeeze_append_congr {left left' right right' : Text}
    (before : squeeze left = squeeze left') (after : squeeze right = squeeze right') :
    squeeze (left ++ right) = squeeze (left' ++ right') := by
  have behind : ∀ text : Text, squeeze (text ++ right) = squeeze (text ++ right') := by
    intro text
    induction text with
    | nil => exact after
    | cons char rest ih => exact squeeze_cons_congr char ih
  have ahead : ∀ text : Text, squeeze (squeeze text ++ right') = squeeze (text ++ right') := by
    intro text
    induction text using squeeze_induction with
    | nil => rfl
    | double rest ih => simpa using ih
    | single char rest apart ih =>
        rw [squeeze_cons apart]
        exact squeeze_cons_congr char ih
  rw [behind left, ← ahead left, before, ahead left']

/-- The last character stays unless it is a space after another one. -/
theorem squeeze_concat {text : Text} {char : Char}
    (apart : char = ' ' → text.getLast? ≠ some ' ') :
    squeeze (text ++ [char]) = squeeze text ++ [char] := by
  induction text with
  | nil => exact squeeze_cons (by simp)
  | cons first rest ih =>
      have later := ih (by
        intro isSpace last
        apply apart isSpace
        rw [List.getLast?_cons, last]
        rfl)
      by_cases isDouble : first = ' ' ∧ (rest ++ [char]).head? = some ' '
      · obtain ⟨rfl, more⟩ := isDouble
        cases rest with
        | nil =>
            obtain rfl : char = ' ' := by simpa using more
            exact absurd rfl (apart rfl)
        | cons next others =>
            obtain rfl : next = ' ' := by simpa using more
            rw [List.cons_append, List.cons_append, squeeze_double, squeeze_double]
            exact later
      · have single : first = ' ' → (rest ++ [char]).head? ≠ some ' ' :=
          fun isSpace more => isDouble ⟨isSpace, more⟩
        have singleRest : first = ' ' → rest.head? ≠ some ' ' := by
          intro isSpace more
          apply single isSpace
          cases rest <;> simp_all
        rw [List.cons_append, squeeze_cons single, later, squeeze_cons singleRest]
        rfl

theorem squeeze_concat_double {text : Text} (last : text.getLast? = some ' ') :
    squeeze (text ++ [' ']) = squeeze text := by
  induction text with
  | nil => simp at last
  | cons first rest ih =>
      cases rest with
      | nil =>
          obtain rfl : first = ' ' := by simpa using last
          rfl
      | cons next others =>
          have later := ih (by simpa using last)
          exact squeeze_cons_congr first later

@[simp] theorem squeeze_reverse (text : Text) : squeeze text.reverse = (squeeze text).reverse := by
  induction text using squeeze_induction with
  | nil => rfl
  | double rest ih =>
      rw [squeeze_double, ← ih, List.reverse_cons, squeeze_concat_double]
      simp
  | single char rest apart ih =>
      rw [squeeze_cons apart, List.reverse_cons, List.reverse_cons, ← ih]
      exact squeeze_concat (by simpa using apart)

/-! ## Blanks -/

@[simp] theorem trimLeft_squeeze (text : Text) :
    trimLeft (squeeze text) = squeeze (trimLeft text) :=
  dropWhile_squeeze isBlank text

@[simp] theorem trimRight_squeeze (text : Text) :
    trimRight (squeeze text) = squeeze (trimRight text) := by
  rw [trimRight, trimRight, ← squeeze_reverse, dropWhile_squeeze, squeeze_reverse]

@[simp] theorem trim_squeeze (text : Text) : trim (squeeze text) = squeeze (trim text) := by
  rw [trim, trim, trimLeft_squeeze, trimRight_squeeze]

theorem trimLeft_append (blanks : Text) {text : Text} (blank : ∀ char ∈ blanks, isBlank char = true)
    (visible : ∀ char ∈ text.head?, isBlank char = false) : trimLeft (blanks ++ text) = text := by
  rw [trimLeft, List.dropWhile_append_of_pos blank]
  cases text with
  | nil => rfl
  | cons char rest => exact List.dropWhile_cons_of_neg (by simp [visible char rfl])

theorem not_mem_of_isBlankText {char : Char} (visible : isBlank char = false) {text : Text}
    (blank : isBlankText text = true) : char ∉ text := by
  intro inside
  rw [List.all_eq_true.mp blank char inside] at visible
  cases visible

theorem isBlankText_append (before after : Text) :
    isBlankText (before ++ after) = (isBlankText before && isBlankText after) :=
  List.all_append

theorem isBlankText_spaces (count : Nat) : isBlankText (List.replicate count ' ') = true := by
  rw [isBlankText, List.all_eq_true]
  intro char member
  rw [List.eq_of_mem_replicate member]
  rfl

theorem trimLeft_of_visible {text : Text} (visible : ∀ char ∈ text.head?, isBlank char = false) :
    trimLeft text = text :=
  trimLeft_append [] (by simp) visible

theorem trimLeft_cons_of_visible {char : Char} (visible : isBlank char = false) (rest : Text) :
    trimLeft (char :: rest) = char :: rest :=
  List.dropWhile_cons_of_neg (by simp [visible])

theorem gap?_append {gap : Text} (nonempty : gap ≠ []) (blank : isBlankText gap = true)
    (text : Text) : gap? (gap ++ text) = some (trimLeft text) := by
  cases gap with
  | nil => exact absurd rfl nonempty
  | cons char rest =>
      rw [isBlankText, List.all_cons, Bool.and_eq_true] at blank
      rw [List.cons_append, gap?, if_pos blank.1, trimLeft, trimLeft,
        List.dropWhile_append_of_pos (List.all_eq_true.mp blank.2)]

@[simp] theorem after?_append (beginning text : Text) :
    after? beginning (beginning ++ text) = some text := by
  induction beginning with
  | nil => rfl
  | cons char rest ih => simpa [after?] using ih

/-- Blanks at the end of a text are trimmed with those before them. -/
theorem trim_append_of_isBlankText {blanks : Text} (blank : isBlankText blanks = true)
    (text : Text) : trim (text ++ blanks) = trim text := by
  have allBlank : ∀ char ∈ blanks, isBlank char = true := List.all_eq_true.mp blank
  have none : blanks.dropWhile isBlank = [] := List.dropWhile_eq_nil_iff.mpr allBlank
  have right : ∀ text : Text, trimRight (text ++ blanks) = trimRight text := by
    intro text
    rw [trimRight, trimRight, List.reverse_append,
      List.dropWhile_append_of_pos (by simpa using allBlank)]
  rw [trim, trim, trimLeft, List.dropWhile_append]
  split
  · rename_i empty
    rw [List.isEmpty_iff] at empty
    rw [none, trimLeft, empty]
  · exact right _

/-- Trimming leaves a text that begins and ends with visible characters. -/
theorem trim_append_append {before core after : Text} (blankBefore : isBlankText before = true)
    (blankAfter : isBlankText after = true) (begins : ∀ char ∈ core.head?, isBlank char = false)
    (ends : ∀ char ∈ core.getLast?, isBlank char = false) :
    trim (before ++ (core ++ after)) = core := by
  have left : trimLeft (before ++ core) = core :=
    trimLeft_append before (List.all_eq_true.mp blankBefore) begins
  have right : trimRight core = core := by
    rw [trimRight]
    cases reversed : core.reverse with
    | nil => rw [List.reverse_eq_nil_iff.mp reversed]; rfl
    | cons last others =>
        have isLast : core.getLast? = some last := by
          rw [← List.head?_reverse, reversed, List.head?_cons]
        rw [List.dropWhile_cons_of_neg (by simp [ends last isLast]), ← reversed,
          List.reverse_reverse]
  rw [← List.append_assoc, trim_append_of_isBlankText blankAfter, trim, left, right]

@[simp] theorem isBlankText_squeeze (text : Text) : isBlankText (squeeze text) = isBlankText text :=
  all_squeeze isBlank text

@[simp] theorem lastVisible?_squeeze (text : Text) :
    lastVisible? (squeeze text) = lastVisible? text := by
  rw [lastVisible?, lastVisible?, ← squeeze_reverse, dropWhile_squeeze, head?_squeeze]

@[simp] theorem endsWithBackslash_squeeze (text : Text) :
    endsWithBackslash (squeeze text) = endsWithBackslash text := by
  rw [endsWithBackslash, endsWithBackslash, lastVisible?_squeeze]

@[simp] theorem bracketDelta_squeeze (text : Text) :
    bracketDelta (squeeze text) = bracketDelta text := by
  have space : bracketValue ' ' = 0 := rfl
  unfold bracketDelta
  induction text using squeeze_induction with
  | nil => rfl
  | double rest ih => simpa [space] using ih
  | single char rest apart ih =>
      rw [squeeze_cons apart, List.foldr_cons, List.foldr_cons, ih]

/-! ## Readers -/

theorem char?_squeeze (expected : Char) (visible : expected ≠ ' ') (text : Text) :
    char? expected (squeeze text) = (char? expected text).map squeeze := by
  cases text with
  | nil => rfl
  | cons char rest =>
      by_cases found : char = expected
      · subst found
        simp [squeeze_cons_of_ne visible, char?]
      · have first := head?_squeeze (char :: rest)
        cases squeezed : squeeze (char :: rest) with
        | nil => simp [char?, found]
        | cons other others =>
            obtain rfl : other = char := by simpa [squeezed] using first
            simp [char?, found]

theorem after?_squeeze (beginning : Text) (visible : ' ' ∉ beginning) (text : Text) :
    after? beginning (squeeze text) = (after? beginning text).map squeeze := by
  induction beginning generalizing text with
  | nil => rfl
  | cons expected others ih =>
      simp only [List.mem_cons, not_or] at visible
      have reads : ∀ text : Text,
          after? (expected :: others) text = (char? expected text).bind (after? others) := by
        intro text
        cases text with
        | nil => rfl
        | cons char rest =>
            by_cases found : char = expected <;> simp [after?, char?, found]
      rw [reads, reads, char?_squeeze _ (Ne.symm visible.1)]
      cases char? expected text with
      | none => rfl
      | some rest => exact ih visible.2 rest

theorem startsWith_squeeze (beginning : Text) (visible : ' ' ∉ beginning) (text : Text) :
    startsWith beginning (squeeze text) = startsWith beginning text := by
  rw [startsWith, startsWith, after?_squeeze _ visible, Option.isSome_map]

private theorem gap?_eq (text : Text) :
    gap? text = if text.head?.any isBlank then some (trimLeft text) else none := by
  cases text with
  | nil => rfl
  | cons char rest =>
      cases blank : isBlank char with
      | true => simp [gap?, trimLeft, blank]
      | false => simp [gap?, blank]

@[simp] theorem gap?_squeeze (text : Text) : gap? (squeeze text) = (gap? text).map squeeze := by
  rw [gap?_eq, gap?_eq, head?_squeeze, trimLeft_squeeze]
  split <;> rfl

/-- A word and the blanks after it are read as they are from the normal form. -/
theorem afterGap_squeeze (beginning : Text) (visible : ' ' ∉ beginning) (text : Text) :
    (after? beginning (squeeze text)).bind gap? =
      ((after? beginning text).bind gap?).map squeeze := by
  rw [after?_squeeze _ visible]
  cases after? beginning text with
  | none => rfl
  | some rest => exact gap?_squeeze rest

@[simp] theorem atWordEnd_squeeze (text : Text) : atWordEnd (squeeze text) = atWordEnd text := by
  rw [atWordEnd, atWordEnd, head?_squeeze]

private theorem filter_map_squeeze {accepted : Text → Bool}
    (blind : ∀ text, accepted (squeeze text) = accepted text) (read : Option Text) :
    (read.map squeeze).filter accepted = (read.filter accepted).map squeeze := by
  cases read with
  | none => rfl
  | some rest => cases found : accepted rest <;> simp [Option.filter, blind, found]

theorem word?_squeeze (word : String) (visible : ' ' ∉ word.toList) (text : Text) :
    word? word (squeeze text) = (word? word text).map squeeze := by
  rw [word?, word?, after?_squeeze _ visible, filter_map_squeeze atWordEnd_squeeze]

theorem skipWord_squeeze (word : String) (visible : ' ' ∉ word.toList) (text : Text) :
    skipWord word (squeeze text) = squeeze (skipWord word text) := by
  rw [skipWord, skipWord, afterGap_squeeze _ visible, Option.getD_map]

@[simp] theorem assignSign?_squeeze (text : Text) :
    assignSign? (squeeze text) = (assignSign? text).map squeeze := by
  rw [assignSign?, assignSign?, trimLeft_squeeze, char?_squeeze _ (by decide),
    filter_map_squeeze fun rest => by rw [head?_squeeze]]

theorem ne_space_of_isNameStart {char : Char} (starts : isNameStart char = true) : char ≠ ' ' := by
  rintro rfl
  exact absurd starts (by decide)

@[simp] theorem name?_squeeze (text : Text) :
    name? (squeeze text) = (name? text).map (Prod.map id squeeze) := by
  cases text with
  | nil => rfl
  | cons char rest =>
      cases starts : isNameStart char with
      | true =>
          rw [squeeze_cons_of_ne (ne_space_of_isNameStart starts)]
          simp [name?, starts, takeWhile_squeeze_of_stops isWordChar rfl]
      | false =>
          have first := head?_squeeze (char :: rest)
          cases squeezed : squeeze (char :: rest) with
          | nil => simp [name?, starts]
          | cons other others =>
              obtain rfl : other = char := by simpa [squeezed] using first
              simp [name?, starts]

/-- What is read on from a text that was read is blind to spacing, if that further reading is. -/
theorem bind_map_squeeze {α : Type} {next : Text → Option α}
    (blind : ∀ rest, next (squeeze rest) = next rest) (read : Option Text) :
    (read.map squeeze).bind next = read.bind next := by
  cases read with
  | none => rfl
  | some rest => exact blind rest

theorem bind_name?_squeeze {α : Type} {next : Text × Text → Option α}
    (blind : ∀ name rest, next (name, squeeze rest) = next (name, rest)) (text : Text) :
    (name? (squeeze text)).bind next = (name? text).bind next := by
  rw [name?_squeeze]
  cases name? text with
  | none => rfl
  | some pair => exact blind pair.1 pair.2

@[simp] theorem firstWord_squeeze (text : Text) : firstWord (squeeze text) = firstWord text := by
  rw [firstWord, firstWord, trimLeft_squeeze,
    takeWhile_squeeze_of_stops isWordChar rfl]

/-! ## Words -/

private theorem map_text_ofTextFrom_squeeze (position other : Nat) (current text : Text) :
    (Word.ofTextFrom position current (squeeze text)).map Word.text =
      (Word.ofTextFrom other current text).map Word.text := by
  have space : isWordChar ' ' = false := rfl
  induction text using squeeze_induction generalizing position other current with
  | nil => cases current <;> rfl
  | double rest ih =>
      have shifted : (Word.ofTextFrom (other + 1) [] rest).map Word.text =
          (Word.ofTextFrom (other + 1 + 1) [] rest).map Word.text := by
        simpa [Word.ofTextFrom, space] using (ih 0 other []).symm.trans (ih 0 (other + 1) [])
      rw [squeeze_double, ih position other current]
      cases current <;> simp [Word.ofTextFrom, space, shifted]
  | single char rest apart ih =>
      rw [squeeze_cons apart]
      cases isWord : isWordChar char with
      | true => simp [Word.ofTextFrom, isWord, ih _ (other + 1)]
      | false =>
          cases current <;> simp [Word.ofTextFrom, isWord, ih _ (other + 1)]

@[simp] theorem map_text_words_squeeze (text : Text) :
    (words (squeeze text)).map Word.text = (words text).map Word.text :=
  map_text_ofTextFrom_squeeze 0 0 [] text

theorem map_text_names (text : Text) :
    (names text).map Word.text =
      ((words text).map Word.text).filter fun word => word.head?.any isNameStart := by
  rw [names, List.filter_map]
  rfl

@[simp] theorem map_text_names_squeeze (text : Text) :
    (names (squeeze text)).map Word.text = (names text).map Word.text := by
  rw [map_text_names, map_text_words_squeeze, map_text_names]

/-! ## Pieces -/

/-- What holds of some rest of a text, whatever its spacing, holds of some rest of its normal
form. -/
theorem any_suffixes_squeeze {holds : Text → Bool}
    (blind : ∀ text, holds (squeeze text) = holds text) (text : Text) :
    (suffixes (squeeze text)).any holds = (suffixes text).any holds := by
  induction text using squeeze_induction with
  | nil => rfl
  | double rest ih =>
      have same : holds (' ' :: ' ' :: rest) = holds (' ' :: rest) := by
        rw [← blind, squeeze_double, blind]
      rw [squeeze_double, ih, suffixes, suffixes]
      simp [same, suffixes]
  | single char rest apart ih =>
      have here : holds (char :: squeeze rest) = holds (char :: rest) := by
        rw [← squeeze_cons apart, blind]
      rw [squeeze_cons apart, suffixes, suffixes, List.any_cons, List.any_cons, here, ih]

theorem map_squeeze_modifyHead (char : Char) {left right : List Text}
    (same : left.map squeeze = right.map squeeze) :
    (left.modifyHead (char :: ·)).map squeeze = (right.modifyHead (char :: ·)).map squeeze := by
  cases left with
  | nil =>
      obtain rfl : right = [] := by simpa using same.symm
      rfl
  | cons first others =>
      cases right with
      | nil => simp at same
      | cons second further =>
          simp only [List.map_cons, List.cons.injEq] at same
          simp [squeeze_cons_congr char same.1, same.2]

private theorem splitOn_cons (separator char : Char) (rest : Text) :
    splitOn separator (char :: rest) =
      if char = separator then [] :: splitOn separator rest
      else (splitOn separator rest).modifyHead (char :: ·) := by
  rw [splitOn_eq, splitOn_eq, List.splitOn_cons_eq_if_modifyHead]
  simp

/-- Cutting at a visible character gives pieces of the same normal form. -/
theorem map_squeeze_splitOn {separator : Char} (visible : separator ≠ ' ') (text : Text) :
    (splitOn separator (squeeze text)).map squeeze = (splitOn separator text).map squeeze := by
  induction text using squeeze_induction with
  | nil => rfl
  | double rest ih =>
      rw [squeeze_double, ih, splitOn_cons, splitOn_cons, splitOn_cons, if_neg visible.symm,
        if_neg visible.symm]
      cases splitOn separator rest <;> simp
  | single char rest apart ih =>
      rw [squeeze_cons apart, splitOn_cons, splitOn_cons]
      split
      · simp [ih]
      · exact map_squeeze_modifyHead char ih

/-- Joining pieces of the same normal forms gives texts of the same normal form. -/
theorem squeeze_join_congr (separator : Text) {left right : List Text}
    (same : left.map squeeze = right.map squeeze) :
    squeeze (join separator left) = squeeze (join separator right) := by
  induction left generalizing right with
  | nil =>
      obtain rfl : right = [] := by simpa using same.symm
      rfl
  | cons first others ih =>
      cases right with
      | nil => simp at same
      | cons second further =>
          simp only [List.map_cons, List.cons.injEq] at same
          have later := ih same.2
          cases others with
          | nil =>
              obtain rfl : further = [] := by simpa using same.2.symm
              simpa [join] using same.1
          | cons next pieces =>
              cases further with
              | nil => simp at same
              | cons other rest =>
                  exact squeeze_append_congr (squeeze_append_congr same.1 rfl) later

end NotebookLint.Text
