import NotebookLint.Lexical.Words
import NotebookLint.Proofs.TextLines

/-! The words of a text stand where they say, and each of them is a maximal run of word
characters. -/

set_option autoImplicit false

namespace NotebookLint

theorem not_isWordChar_of_isBlank {char : Char} (blank : isBlank char = true) :
    isWordChar char = false := by
  have codes : ∀ code ∈ [0x9, 0xA, 0xB, 0xC, 0xD, 0x1C, 0x1D, 0x1E, 0x1F, 0x20, 0x85, 0xA0, 0x1680,
      0x2000, 0x2001, 0x2002, 0x2003, 0x2004, 0x2005, 0x2006, 0x2007, 0x2008, 0x2009, 0x200A, 0x2028,
      0x2029, 0x202F, 0x205F, 0x3000], isWordChar (Char.ofNat code) = false := by
    decide +kernel
  rw [← Char.ofNat_toNat char]
  apply codes
  simp only [isBlank, Bool.or_eq_true, Bool.and_eq_true, decide_eq_true_eq, beq_iff_eq] at blank
  simp only [List.mem_cons, List.not_mem_nil, or_false]
  omega

theorem not_isBlank_of_isWordChar {char : Char} (word : isWordChar char = true) :
    isBlank char = false := by
  by_contra blank
  rw [not_isWordChar_of_isBlank (by simpa using blank)] at word
  cases word

namespace Word

/-- A word at its place: a maximal run of word characters of the text. -/
structure StandsIn (word : Word) (text : Text) : Prop where
  nonempty : word.text ≠ []
  isWord : ∀ char ∈ word.text, isWordChar char = true
  split : ∃ before after, text = before ++ word.text ++ after ∧ before.length = word.start ∧
    (∀ char ∈ after.head?, isWordChar char = false)

private theorem standsIn_of_mem_ofTextFrom (before current text : Text) {word : Word}
    (letters : ∀ char ∈ current, isWordChar char = true)
    (member : word ∈ ofTextFrom (before.length + current.length) current text) :
    word.StandsIn (before ++ current.reverse ++ text) := by
  induction text generalizing before current with
  | nil =>
      simp only [ofTextFrom] at member
      split at member
      · simp at member
      · rename_i started
        rw [List.mem_singleton] at member
        subst member
        refine ⟨by simpa using started, fun char inside => letters char (by simpa using inside),
          before, [], rfl, by simp, by simp⟩
  | cons char rest ih =>
      simp only [ofTextFrom] at member
      split at member
      · rename_i isLetter
        have grown : ∀ other ∈ char :: current, isWordChar other = true := by
          simpa [isLetter] using letters
        have found := ih before (char :: current) grown
          (by simpa [Nat.add_assoc] using member)
        simpa using found
      · rename_i noLetter
        have isOther : isWordChar char = false := by simpa using noLetter
        split at member
        · rename_i unstarted
          obtain rfl : current = [] := by simpa using unstarted
          have found := ih (before ++ [char]) [] (by simp) (by simpa using member)
          simpa using found
        · rename_i started
          rcases List.mem_cons.mp member with rfl | later
          · exact ⟨by simpa using started,
              fun other inside => letters other (by simpa using inside),
              before, char :: rest, rfl, by simp, by simpa using isOther⟩
          · have found := ih (before ++ current.reverse ++ [char]) [] (by simp)
              (by simpa [Nat.add_assoc] using later)
            simpa using found

end Word

namespace Text

theorem standsIn_of_mem_words {text : Text} {word : Word} (member : word ∈ words text) :
    word.StandsIn text := by
  simpa using Word.standsIn_of_mem_ofTextFrom [] [] text (by simp) member

theorem map_text_ofTextFrom (position other : Nat) (current text : Text) :
    (Word.ofTextFrom position current text).map Word.text =
      (Word.ofTextFrom other current text).map Word.text := by
  induction text generalizing position other current with
  | nil => cases current <;> rfl
  | cons char rest ih =>
      simp only [Word.ofTextFrom]
      split
      · exact ih _ _ _
      · split
        · exact ih _ _ _
        · rw [List.map_cons, List.map_cons, ih]

private theorem map_text_ofTextFrom_append (position : Nat) (current before : Text) {char : Char}
    (ends : isWordChar char = false) (after : Text) :
    (Word.ofTextFrom position current (before ++ char :: after)).map Word.text =
      (Word.ofTextFrom position current before).map Word.text ++ (words after).map Word.text := by
  rw [words]
  induction before generalizing position current with
  | nil =>
      cases current with
      | nil => simpa [Word.ofTextFrom, ends] using map_text_ofTextFrom (position + 1) 0 [] after
      | cons last others =>
          simpa [Word.ofTextFrom, ends] using map_text_ofTextFrom (position + 1) 0 [] after
  | cons first rest ih =>
      simp only [List.cons_append, Word.ofTextFrom]
      split
      · exact ih _ _
      · split
        · exact ih _ _
        · rw [List.map_cons, List.map_cons, ih, List.cons_append]

/-- A character that is part of no word ends the words before it. -/
theorem map_text_words_append {char : Char} (ends : isWordChar char = false)
    (before after : Text) :
    (words (before ++ char :: after)).map Word.text =
      (words before).map Word.text ++ (words after).map Word.text :=
  map_text_ofTextFrom_append 0 [] before ends after

theorem words_of_separators {text : Text} (separators : ∀ char ∈ text, isWordChar char = false) :
    (words text).map Word.text = [] := by
  induction text with
  | nil => rfl
  | cons char rest ih =>
      rw [← List.nil_append (char :: rest),
        map_text_words_append (separators char List.mem_cons_self) [] rest,
        ih fun other member => separators other (List.mem_cons_of_mem _ member)]
      rfl

theorem map_text_words_append_separators {separators : Text}
    (ends : ∀ char ∈ separators, isWordChar char = false) (text : Text) :
    (words (text ++ separators)).map Word.text = (words text).map Word.text := by
  cases separators with
  | nil => rw [List.append_nil]
  | cons char rest =>
      rw [map_text_words_append (ends char List.mem_cons_self),
        words_of_separators fun other member => ends other (List.mem_cons_of_mem _ member),
        List.append_nil]

theorem map_text_words_separators_append {separators : Text}
    (ends : ∀ char ∈ separators, isWordChar char = false) (text : Text) :
    (words (separators ++ text)).map Word.text = (words text).map Word.text := by
  induction separators with
  | nil => rfl
  | cons char rest ih =>
      have later := ih fun other member => ends other (List.mem_cons_of_mem _ member)
      rw [List.cons_append, ← List.nil_append (char :: (rest ++ text)),
        map_text_words_append (ends char List.mem_cons_self), later]
      rfl

/-- A gap that is part of no word ends the words before it. -/
theorem map_text_words_append_gap {gap : Text} (nonempty : gap ≠ [])
    (ends : ∀ char ∈ gap, isWordChar char = false) (before after : Text) :
    (words (before ++ (gap ++ after))).map Word.text =
      (words before).map Word.text ++ (words after).map Word.text := by
  cases gap with
  | nil => exact absurd rfl nonempty
  | cons char rest =>
      obtain ⟨first, others⟩ := List.forall_mem_cons.mp ends
      rw [List.cons_append, map_text_words_append first, map_text_words_separators_append others]

/-- The words of a text are those of its lines. -/
theorem map_text_words_lines (text : Text) :
    (words text).map Word.text = (lines text).flatMap fun line => (words line).map Word.text := by
  have joined : ∀ pieces : List Text, (words (ofLines pieces)).map Word.text =
      pieces.flatMap fun piece => (words piece).map Word.text := by
    intro pieces
    induction pieces with
    | nil => rfl
    | cons piece rest ih =>
        cases rest with
        | nil => simp [ofLines, join]
        | cons next others =>
            have isBreak : isWordChar '\n' = false := by decide
            rw [ofLines, join, List.append_assoc, List.singleton_append,
              map_text_words_append isBreak, List.flatMap_cons, ← ih]
            rfl
  rw [← joined, ofLines_lines]

private theorem map_text_ofTextFrom_word (position : Nat) (current : Text) {word : Text}
    (nonempty : word ≠ []) (letters : ∀ char ∈ word, isWordChar char = true) :
    (Word.ofTextFrom position current word).map Word.text = [current.reverse ++ word] := by
  induction word generalizing position current with
  | nil => exact absurd rfl nonempty
  | cons char rest ih =>
      obtain ⟨letter, others⟩ := List.forall_mem_cons.mp letters
      rw [Word.ofTextFrom, if_pos letter]
      cases rest with
      | nil => simp [Word.ofTextFrom]
      | cons next further => rw [ih _ _ (List.cons_ne_nil _ _) others]; simp

/-- A text of word characters is its own only word. -/
theorem words_of_word {word : Text} (nonempty : word ≠ [])
    (letters : ∀ char ∈ word, isWordChar char = true) :
    (words word).map Word.text = [word] :=
  map_text_ofTextFrom_word 0 [] nonempty letters

theorem eq_cons_of_char? {expected : Char} {text rest : Text}
    (read : char? expected text = some rest) : text = expected :: rest := by
  cases text with
  | nil => cases read
  | cons char others =>
      rw [char?] at read
      split at read
      · rename_i same
        rw [same, Option.some.inj read]
      · cases read

/-- Reading a name stops where its word ends. -/
theorem name?_append {name : Text} (isStart : name.head?.any isNameStart = true)
    (letters : ∀ char ∈ name, isWordChar char = true) {after : Text}
    (ended : ∀ char ∈ after.head?, isWordChar char = false) :
    name? (name ++ after) = some (name, after) := by
  cases name with
  | nil => simp at isStart
  | cons first rest =>
      have start : isNameStart first = true := by simpa using isStart
      have restLetters : ∀ char ∈ rest, isWordChar char = true :=
        fun char inside => letters char (by simp [inside])
      have taken : after.takeWhile isWordChar = [] := by
        cases after with
        | nil => rfl
        | cons next further => simp [ended next (by simp)]
      have dropped : after.dropWhile isWordChar = after := by
        cases after with
        | nil => rfl
        | cons next further => simp [ended next (by simp)]
      simp [name?, start, List.takeWhile_append_of_pos restLetters,
        List.dropWhile_append_of_pos restLetters, taken, dropped]

end Text

end NotebookLint
