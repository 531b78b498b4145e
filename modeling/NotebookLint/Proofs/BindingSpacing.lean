import NotebookLint.Names.Target
import NotebookLint.Proofs.Spacing
import NotebookLint.Proofs.Words

/-! The binding patterns of a line are blind to its spacing: a line and its normal form bind the
same names. -/

set_option autoImplicit false

namespace NotebookLint.Names

open Text

/-! ## Assignments -/

theorem skipChar_squeeze (expected : Char) (visible : expected ≠ ' ') (text : Text) :
    skipChar expected (squeeze text) = squeeze (skipChar expected text) := by
  rw [skipChar, skipChar, char?_squeeze _ visible, Option.getD_map]

@[simp] theorem target?_squeeze (text : Text) :
    target? (squeeze text) = (target? text).map (Prod.map id squeeze) := by
  rw [target?, target?, skipChar_squeeze _ (by decide), name?_squeeze]

def nextTarget? (text : Text) : Option (Text × Text) :=
  (char? ',' (trimLeft text)).bind fun rest => target? (trimLeft rest)

private theorem nextTarget?_squeeze (text : Text) :
    nextTarget? (squeeze text) = (nextTarget? text).map (Prod.map id squeeze) := by
  rw [nextTarget?, nextTarget?, trimLeft_squeeze, char?_squeeze _ (by decide)]
  cases char? ',' (trimLeft text) with
  | none => rfl
  | some rest => simp

theorem furtherTargets_succ (fuel : Nat) (text : Text) :
    furtherTargets (fuel + 1) text =
      match nextTarget? text with
      | some (name, rest) => (name :: (furtherTargets fuel rest).1, (furtherTargets fuel rest).2)
      | none => ([], text) := rfl

private theorem furtherTargets_squeeze (fuel : Nat) (text : Text) :
    furtherTargets fuel (squeeze text) = Prod.map id squeeze (furtherTargets fuel text) := by
  induction fuel generalizing text with
  | zero => rfl
  | succ fuel ih =>
      rw [furtherTargets_succ, furtherTargets_succ, nextTarget?_squeeze]
      cases nextTarget? text with
      | none => rfl
      | some read => simp [ih]

/-! Every target takes characters, so any fuel that exceeds the length of the text is enough. -/

private theorem length_trimLeft_le (text : Text) : (trimLeft text).length ≤ text.length :=
  (List.dropWhile_sublist _).length_le

private theorem length_lt_of_char? {expected : Char} {text rest : Text}
    (read : char? expected text = some rest) : rest.length < text.length := by
  rw [eq_cons_of_char? read, List.length_cons]
  exact Nat.lt_succ_self _

private theorem length_skipChar_le (expected : Char) (text : Text) :
    (skipChar expected text).length ≤ text.length := by
  unfold skipChar
  cases read : char? expected text with
  | none => simp
  | some rest => exact (length_lt_of_char? read).le

private theorem length_lt_of_target? {text name rest : Text}
    (read : target? text = some (name, rest)) : rest.length < text.length := by
  have start := length_skipChar_le '*' text
  unfold target? at read
  cases skipped : skipChar '*' text with
  | nil => simp [skipped, name?] at read
  | cons char others =>
      rw [skipped] at read start
      simp only [name?] at read
      split at read
      · cases read
        have shorter := (List.dropWhile_sublist isWordChar (l := others)).length_le
        simp only [List.length_cons] at start
        omega
      · cases read

theorem length_lt_of_nextTarget? {text name rest : Text}
    (read : nextTarget? text = some (name, rest)) : rest.length < text.length := by
  obtain ⟨following, comma, target⟩ := Option.bind_eq_some_iff.mp read
  have first := length_lt_of_char? comma
  have second := length_lt_of_target? target
  have before := length_trimLeft_le text
  have between := length_trimLeft_le following
  omega

private theorem furtherTargets_nil (fuel : Nat) : furtherTargets fuel [] = ([], []) := by
  cases fuel <;> rfl

private theorem furtherTargets_fuel {fuel other : Nat} {text : Text} (enough : text.length ≤ fuel)
    (alsoEnough : text.length ≤ other) : furtherTargets fuel text = furtherTargets other text := by
  induction fuel generalizing other text with
  | zero =>
      obtain rfl : text = [] := List.eq_nil_of_length_eq_zero (Nat.le_zero.mp enough)
      rw [furtherTargets_nil, furtherTargets_nil]
  | succ fuel ih =>
      cases other with
      | zero =>
          obtain rfl : text = [] := List.eq_nil_of_length_eq_zero (Nat.le_zero.mp alsoEnough)
          rw [furtherTargets_nil, furtherTargets_nil]
      | succ other =>
          rw [furtherTargets_succ, furtherTargets_succ]
          cases read : nextTarget? text with
          | none => rfl
          | some pair =>
              have shorter := length_lt_of_nextTarget? read
              have same : furtherTargets fuel pair.2 = furtherTargets other pair.2 :=
                ih (by omega) (by omega)
              simp only [same]

private theorem furtherTargets_length_squeeze (text : Text) :
    furtherTargets (squeeze text).length (squeeze text) =
      Prod.map id squeeze (furtherTargets text.length text) := by
  rw [furtherTargets_fuel (Nat.le_refl _) (length_squeeze_le text), furtherTargets_squeeze]

/-- The end of a group of targets: an optional comma and parenthesis, and the equals sign. -/
def afterGroup? (text : Text) : Option Text :=
  assignSign? (skipChar ')' (trimLeft (skipChar ',' (trimLeft text))))

theorem targetGroup?_eq (text : Text) :
    targetGroup? text =
      (target? (trimLeft (skipChar '(' (trimLeft text)))).bind fun first =>
        (afterGroup? (furtherTargets first.2.length first.2).2).map fun rest =>
          (first.1 :: (furtherTargets first.2.length first.2).1, rest) := by
  simp only [targetGroup?, Option.bind_eq_bind, Option.map_eq_bind]
  rfl

@[simp] theorem targetGroup?_squeeze (text : Text) :
    targetGroup? (squeeze text) = (targetGroup? text).map (Prod.map id squeeze) := by
  have ending : ∀ rest, afterGroup? (squeeze rest) = (afterGroup? rest).map squeeze := by
    intro rest
    simp only [afterGroup?, trimLeft_squeeze, skipChar_squeeze ',' (by decide),
      skipChar_squeeze ')' (by decide), assignSign?_squeeze]
  rw [targetGroup?_eq, targetGroup?_eq, trimLeft_squeeze, skipChar_squeeze _ (by decide),
    trimLeft_squeeze, target?_squeeze]
  cases target? (trimLeft (skipChar '(' (trimLeft text))) with
  | none => rfl
  | some first =>
      simp only [Option.map_some, Option.bind_some, Prod.map_snd, furtherTargets_length_squeeze,
        ending]
      cases afterGroup? (furtherTargets first.2.length first.2).2 <;> rfl

private theorem length_furtherTargets_le (fuel : Nat) (text : Text) :
    (furtherTargets fuel text).2.length ≤ text.length := by
  induction fuel generalizing text with
  | zero => exact Nat.le_refl _
  | succ fuel ih =>
      rw [furtherTargets_succ]
      cases read : nextTarget? text with
      | none => exact Nat.le_refl _
      | some pair =>
          have shorter := length_lt_of_nextTarget? read
          have later := ih pair.2
          simp only
          omega

private theorem length_lt_of_afterGroup? {text rest : Text} (read : afterGroup? text = some rest) :
    rest.length < text.length := by
  obtain ⟨signed, -⟩ := Option.filter_eq_some_iff.mp read
  calc rest.length
    _ < (trimLeft (skipChar ')' (trimLeft (skipChar ',' (trimLeft text))))).length :=
        length_lt_of_char? signed
    _ ≤ (skipChar ')' (trimLeft (skipChar ',' (trimLeft text)))).length := length_trimLeft_le _
    _ ≤ (trimLeft (skipChar ',' (trimLeft text))).length := length_skipChar_le _ _
    _ ≤ (skipChar ',' (trimLeft text)).length := length_trimLeft_le _
    _ ≤ (trimLeft text).length := length_skipChar_le _ _
    _ ≤ text.length := length_trimLeft_le _

theorem length_lt_of_targetGroup? {text rest : Text} {names : List Text}
    (read : targetGroup? text = some (names, rest)) : rest.length < text.length := by
  rw [targetGroup?_eq] at read
  obtain ⟨first, target, sign⟩ := Option.bind_eq_some_iff.mp read
  obtain ⟨after, ending, equal⟩ := Option.map_eq_some_iff.mp sign
  obtain ⟨-, rfl⟩ := Prod.mk.inj equal
  calc after.length
    _ < (furtherTargets first.2.length first.2).2.length := length_lt_of_afterGroup? ending
    _ ≤ first.2.length := length_furtherTargets_le first.2.length first.2
    _ ≤ (trimLeft (skipChar '(' (trimLeft text))).length := (length_lt_of_target? target).le
    _ ≤ (skipChar '(' (trimLeft text)).length := length_trimLeft_le _
    _ ≤ (trimLeft text).length := length_skipChar_le _ _
    _ ≤ text.length := length_trimLeft_le _

private theorem chainedTargets_fuel {fuel other : Nat} {text : Text} (enough : text.length < fuel)
    (alsoEnough : text.length < other) :
    chainedTargets fuel text = chainedTargets other text := by
  induction fuel generalizing other text with
  | zero => exact absurd enough (Nat.not_lt_zero _)
  | succ fuel ih =>
      cases other with
      | zero => exact absurd alsoEnough (Nat.not_lt_zero _)
      | succ other =>
          simp only [chainedTargets]
          cases read : targetGroup? text with
          | none => rfl
          | some pair =>
              have shorter := length_lt_of_targetGroup? read
              have same : chainedTargets fuel pair.2 = chainedTargets other pair.2 :=
                ih (by omega) (by omega)
              simp only [same]

private theorem chainedTargets_squeeze (fuel : Nat) (text : Text) :
    chainedTargets fuel (squeeze text) = chainedTargets fuel text := by
  induction fuel generalizing text with
  | zero => rfl
  | succ fuel ih =>
      simp only [chainedTargets, targetGroup?_squeeze]
      cases targetGroup? text with
      | none => rfl
      | some pair => simp [ih]

@[simp] theorem annotated?_squeeze (line : Text) : annotated? (squeeze line) = annotated? line := by
  simp only [annotated?, trimLeft_squeeze, Option.bind_eq_bind]
  apply bind_name?_squeeze
  intro name rest
  rw [trimLeft_squeeze, char?_squeeze _ (by decide)]
  apply bind_map_squeeze
  intro annotation
  rw [head?_squeeze, isBlankText_squeeze]

@[simp] theorem assignmentTargets_squeeze (line : Text) :
    assignmentTargets (squeeze line) = assignmentTargets line := by
  have bound : (squeeze line).length < line.length + 1 := Nat.lt_succ_of_le (length_squeeze_le line)
  rw [assignmentTargets, assignmentTargets, annotated?_squeeze,
    chainedTargets_fuel (Nat.lt_succ_self _) bound, chainedTargets_squeeze]

@[simp] theorem startsStatement_squeeze (line : Text) :
    startsStatement (squeeze line) = startsStatement line := by
  rw [startsStatement, startsStatement, firstWord_squeeze]

@[simp] theorem className?_squeeze (line : Text) : className? (squeeze line) = className? line := by
  rw [className?, className?, trimLeft_squeeze, afterGap_squeeze _ (by decide)]
  cases (after? "class".toList (trimLeft line)).bind gap? with
  | none => rfl
  | some rest =>
      simp only [Option.map_some, Option.bind_some, name?_squeeze]
      cases name? rest <;> rfl

private theorem walrusFrom_space (skipped : Bool) (rest : Text) :
    walrusFrom skipped (' ' :: rest) = walrusFrom false rest := by
  cases skipped <;> rfl

private theorem walrusFrom_squeeze (skipped : Bool) (line : Text) :
    walrusFrom skipped (squeeze line) = walrusFrom skipped line := by
  induction line using squeeze_induction generalizing skipped with
  | nil => rfl
  | double rest ih =>
      rw [squeeze_double, ih, walrusFrom_space, walrusFrom_space, walrusFrom_space]
  | single char rest apart ih =>
      rw [squeeze_cons apart, walrusFrom, walrusFrom, ih, dropWhile_squeeze, trimLeft_squeeze,
        startsWith_squeeze _ (by decide), takeWhile_squeeze_of_stops isWordChar rfl]

@[simp] theorem walrusTargets_squeeze (line : Text) :
    walrusTargets (squeeze line) = walrusTargets line :=
  walrusFrom_squeeze false line

@[simp] theorem bareNames_squeeze (text : Text) : bareNames (squeeze text) = bareNames text := by
  rw [bareNames, bareNames, map_text_names_squeeze]

@[simp] theorem scopeDeclaration_squeeze (line : Text) :
    scopeDeclaration (squeeze line) = scopeDeclaration line := by
  simp only [scopeDeclaration, trimLeft_squeeze,
    afterGap_squeeze "global".toList (by decide),
    afterGap_squeeze "nonlocal".toList (by decide)]
  cases (after? "global".toList (trimLeft line)).bind gap? with
  | some rest => exact bareNames_squeeze rest
  | none =>
      cases (after? "nonlocal".toList (trimLeft line)).bind gap? with
      | some rest => exact bareNames_squeeze rest
      | none => rfl

/-! ## Loops, aliases and anonymous functions

These are read from a line in one pass that goes on after what it read last. -/

/-- A pass over a line: at every place it asks `found?`, and goes on after what that has read. The
flags say whether a word may start at a place. -/
private structure LineScan (scan : Bool → Text → List Text)
    (found? : Bool → Text → Option (List Text × Bool × Text)) : Prop where
  nil : ∀ atWordStart, scan atWordStart [] = []
  cons : ∀ atWordStart char rest, scan atWordStart (char :: rest) =
    match found? atWordStart (char :: rest) with
    | some (read, next, after) => read ++ scan next after
    | none => scan (!isWordChar char) rest
  space : ∀ atWordStart rest, found? atWordStart (' ' :: rest) = none
  shorter : ∀ atWordStart text read next after,
    found? atWordStart text = some (read, next, after) → after.length < text.length

/-- A pass finds the same in the normal form of a line, if what it asks is blind to spacing. -/
private theorem LineScan.squeeze {scan : Bool → Text → List Text}
    {found? : Bool → Text → Option (List Text × Bool × Text)} (lineScan : LineScan scan found?)
    (view : Text → Text)
    (blind : ∀ atWordStart text, found? atWordStart (Text.squeeze text) =
      (found? atWordStart text).map fun (read, next, after) =>
        (read.map view, next, Text.squeeze after))
    (atWordStart : Bool) (text : Text) :
    scan atWordStart (Text.squeeze text) = (scan atWordStart text).map view := by
  have space : ∀ atWordStart rest, scan atWordStart (' ' :: rest) = scan true rest := by
    intro atWordStart rest
    rw [lineScan.cons, lineScan.space]
    rfl
  induction size : text.length using Nat.strong_induction_on generalizing text atWordStart with
  | _ length ih =>
      match text with
      | [] => simp [lineScan.nil]
      | char :: rest =>
          have bound : rest.length < length := by simp [← size]
          by_cases isDouble : char = ' ' ∧ rest.head? = some ' '
          · obtain ⟨rfl, more⟩ := isDouble
            obtain ⟨others, rfl⟩ := List.head?_eq_some_iff.mp more
            rw [squeeze_double, ih _ bound atWordStart (' ' :: others) rfl, space, space, space]
          · have single : Text.squeeze (char :: rest) = char :: Text.squeeze rest :=
              squeeze_cons fun isSpace more => isDouble ⟨isSpace, more⟩
            have asked := blind atWordStart (char :: rest)
            rw [single] at asked ⊢
            rw [lineScan.cons, lineScan.cons, asked]
            cases found : found? atWordStart (char :: rest) with
            | none => exact ih _ bound _ _ rfl
            | some reading =>
                obtain ⟨read, next, after⟩ := reading
                have later := lineScan.shorter _ _ _ _ _ found
                simp only [Option.map_some, List.map_append]
                rw [ih _ (size ▸ later) next after rfl]

/-- Passing over characters that were read already. -/
private theorem scan_passed (scan : Bool → Nat → Text → List Text)
    (pass : ∀ atWordStart passed char rest,
      scan atWordStart (passed + 1) (char :: rest) = scan (!isWordChar char) passed rest)
    (atWordStart : Bool) (skipped : Text) (last : Char) (after : Text) :
    scan atWordStart (skipped.length + 1) (skipped ++ last :: after) =
      scan (!isWordChar last) 0 after := by
  induction skipped generalizing atWordStart with
  | nil => exact pass atWordStart 0 last after
  | cons char others ih =>
      rw [List.cons_append, List.length_cons, pass]
      exact ih _

theorem eq_append_of_after? {beginning text after : Text}
    (read : after? beginning text = some after) : text = beginning ++ after := by
  induction beginning generalizing text with
  | nil => exact Option.some.inj read
  | cons expected others ih =>
      cases text with
      | nil => simp [after?] at read
      | cons char rest =>
          simp only [after?] at read
          split at read
          · rename_i found
            rw [found, ih read]
            rfl
          · cases read

private theorem eq_append_of_word? {word : String} {text after : Text}
    (read : word? word text = some after) : text = word.toList ++ after := by
  obtain ⟨found, -⟩ := Option.filter_eq_some_iff.mp read
  exact eq_append_of_after? found

theorem exists_eq_append_trimLeft (text : Text) :
    ∃ blanks, text = blanks ++ trimLeft text :=
  ⟨text.takeWhile isBlank, (List.takeWhile_append_dropWhile).symm⟩

/-! ### Loops -/

private theorem beforeIn?_cons (char : Char) (rest : Text) :
    beforeIn? (char :: rest) =
      match if isBlank char then word? "in" (trimLeft rest) else none with
      | some after => some ([], after)
      | none => (beforeIn? rest).map fun pair => (char :: pair.1, pair.2) := by
  delta beforeIn?
  rfl

private theorem head?_of_beforeIn? {text before after : Text}
    (read : beforeIn? text = some (before, after)) (space : before.head? = some ' ') :
    text.head? = some ' ' := by
  cases text with
  | nil => cases read
  | cons char rest =>
      rw [beforeIn?_cons] at read
      generalize (if isBlank char then word? "in" (trimLeft rest) else none) = found at read
      cases found with
      | some => cases read; simp at space
      | none =>
          obtain ⟨pair, -, equal⟩ := Option.map_eq_some_iff.mp read
          cases equal
          simpa using space

private theorem beforeIn?_squeeze (text : Text) :
    beforeIn? (squeeze text) = (beforeIn? text).map (Prod.map squeeze squeeze) := by
  induction text using squeeze_induction with
  | nil => rfl
  | double rest ih =>
      have trimmed : trimLeft (' ' :: rest) = trimLeft rest := rfl
      rw [squeeze_double, ih, beforeIn?_cons ' ' (' ' :: rest), beforeIn?_cons ' ' rest, trimmed,
        if_pos (by decide)]
      cases word? "in" (trimLeft rest) with
      | some after => rfl
      | none => cases beforeIn? rest <;> simp
  | single char rest apart ih =>
      have asked : (if isBlank char then (word? "in" (trimLeft rest)).map squeeze else none) =
          (if isBlank char then word? "in" (trimLeft rest) else none).map squeeze := by
        split <;> rfl
      rw [squeeze_cons apart, beforeIn?_cons, beforeIn?_cons, ih, trimLeft_squeeze,
        word?_squeeze "in" (by decide), asked]
      generalize (if isBlank char then word? "in" (trimLeft rest) else none) = found
      cases found with
      | some after => rfl
      | none =>
          cases read : beforeIn? rest with
          | none => rfl
          | some pair =>
              have stillApart : char = ' ' → pair.1.head? ≠ some ' ' :=
                fun isSpace more => apart isSpace (head?_of_beforeIn? read more)
              simp [squeeze_cons stillApart]

private theorem not_isBlank_of_gap? {text rest : Text} {char : Char}
    (read : gap? text = some (char :: rest)) : isBlank char = false := by
  cases text with
  | nil => cases read
  | cons first others =>
      simp only [gap?] at read
      split at read
      · have trimmed : trimLeft others = char :: rest := Option.some.inj read
        have stops := List.head?_dropWhile_not isBlank others
        rw [show others.dropWhile isBlank = char :: rest from trimmed] at stops
        simpa using stops
      · cases read

@[simp] theorem loopTargets?_squeeze (text : Text) :
    loopTargets? (squeeze text) = (loopTargets? text).map (Prod.map squeeze squeeze) := by
  unfold loopTargets?
  rw [gap?_squeeze]
  cases read : gap? text with
  | none => rfl
  | some following =>
      cases following with
      | nil => rfl
      | cons char rest =>
          have visible : char ≠ ' ' := by
            rintro rfl
            exact absurd (not_isBlank_of_gap? read) (by decide)
          simp only [Option.map_some, Option.bind_eq_bind, Option.bind_some,
            squeeze_cons_of_ne visible, beforeIn?_squeeze]
          cases beforeIn? rest <;> simp [squeeze_cons_of_ne visible]

private theorem exists_of_beforeIn? {text before after : Text}
    (read : beforeIn? text = some (before, after)) : ∃ skipped, text = skipped ++ 'n' :: after := by
  induction text generalizing before with
  | nil => cases read
  | cons char rest ih =>
      rw [beforeIn?_cons] at read
      cases found : (if isBlank char then word? "in" (trimLeft rest) else none) with
      | some ending =>
          rw [found] at read
          cases read
          split at found
          · obtain ⟨blanks, split⟩ := exists_eq_append_trimLeft rest
            refine ⟨char :: (blanks ++ ['i']), ?_⟩
            rw [split, eq_append_of_word? found]
            simp
          · cases found
      | none =>
          rw [found] at read
          obtain ⟨pair, later, equal⟩ := Option.map_eq_some_iff.mp read
          cases equal
          obtain ⟨skipped, split⟩ := ih later
          exact ⟨char :: skipped, by rw [split, List.cons_append]⟩

theorem exists_of_gap? {text rest : Text} (read : gap? text = some rest) :
    ∃ blanks, text = blanks ++ rest := by
  cases text with
  | nil => cases read
  | cons char others =>
      simp only [gap?] at read
      split at read
      · cases read
        obtain ⟨blanks, split⟩ := exists_eq_append_trimLeft others
        exact ⟨char :: blanks, by rw [List.cons_append, ← split]⟩
      · cases read

private def loopAt? (atWordStart : Bool) (text : Text) : Option (Text × Text) :=
  if atWordStart then (after? "for".toList text).bind loopTargets? else none

/-- A loop is read from its first letter to the last one of its word `in`. -/
private theorem exists_of_loopAt? {atWordStart : Bool} {text targets after : Text}
    (read : loopAt? atWordStart text = some (targets, after)) :
    ∃ skipped, text = 'f' :: (skipped ++ 'n' :: after) := by
  unfold loopAt? at read
  split at read
  · obtain ⟨following, word, loop⟩ := Option.bind_eq_some_iff.mp read
    unfold loopTargets? at loop
    obtain ⟨start, gap, rest⟩ := Option.bind_eq_some_iff.mp loop
    cases start with
    | nil => cases rest
    | cons char others =>
        obtain ⟨pair, before, equal⟩ := Option.map_eq_some_iff.mp rest
        cases equal
        obtain ⟨blanks, blank⟩ := exists_of_gap? gap
        obtain ⟨skipped, split⟩ := exists_of_beforeIn? before
        refine ⟨"or".toList ++ blanks ++ char :: skipped, ?_⟩
        rw [eq_append_of_after? word, blank, split]
        simp
  · cases read

private theorem loopTargetsFrom_cons (atWordStart : Bool) (char : Char) (rest : Text) :
    loopTargetsFrom atWordStart 0 (char :: rest) =
      match loopAt? atWordStart (char :: rest) with
      | some (targets, after) =>
          targets :: loopTargetsFrom (!isWordChar char) (rest.length - after.length) rest
      | none => loopTargetsFrom (!isWordChar char) 0 rest := by
  delta loopTargetsFrom
  rfl

private theorem lineScan_loopTargetsFrom :
    LineScan (fun atWordStart text => loopTargetsFrom atWordStart 0 text) fun atWordStart text =>
      (loopAt? atWordStart text).map fun (targets, after) => ([targets], false, after) where
  nil _ := rfl
  cons atWordStart char rest := by
    rw [loopTargetsFrom_cons]
    cases read : loopAt? atWordStart (char :: rest) with
    | none => rfl
    | some pair =>
        obtain ⟨targets, after⟩ := pair
        obtain ⟨skipped, split⟩ := exists_of_loopAt? read
        obtain ⟨rfl, rfl⟩ := List.cons.inj split
        have passed : (skipped ++ 'n' :: after).length - after.length = skipped.length + 1 := by
          simp only [List.length_append, List.length_cons]
          omega
        have later := scan_passed loopTargetsFrom (fun _ _ _ _ => rfl)
          (!isWordChar 'f') skipped 'n' after
        simp only [Option.map_some, passed, later]
        rfl
  space atWordStart rest := by cases atWordStart <;> rfl
  shorter atWordStart text read next after found := by
    obtain ⟨⟨targets, rest⟩, loop, equal⟩ := Option.map_eq_some_iff.mp found
    cases equal
    obtain ⟨skipped, rfl⟩ := exists_of_loopAt? loop
    simp only [List.length_cons, List.length_append]
    omega

private theorem loopAt?_squeeze (atWordStart : Bool) (text : Text) :
    loopAt? atWordStart (squeeze text) =
      (loopAt? atWordStart text).map (Prod.map squeeze squeeze) := by
  unfold loopAt?
  split
  · rw [after?_squeeze _ (by decide)]
    cases after? "for".toList text with
    | none => rfl
    | some rest => exact loopTargets?_squeeze rest
  · rfl

@[simp] theorem loopNames_squeeze (line : Text) : loopNames (squeeze line) = loopNames line := by
  have targets : loopTargetsFrom true 0 (squeeze line) =
      (loopTargetsFrom true 0 line).map squeeze :=
    lineScan_loopTargetsFrom.squeeze squeeze (fun atWordStart text => by
      rw [loopAt?_squeeze]
      cases loopAt? atWordStart text <;> rfl) true line
  rw [loopNames, loopNames, targets, List.flatMap_map]
  simp only [bareNames_squeeze]

/-! ### Aliases -/

theorem isWordChar_of_isNameStart {char : Char} (starts : isNameStart char = true) :
    isWordChar char = true := by
  have ascii : char.toNat < 0x80 := by
    simp only [isNameStart, isAsciiLetter, Bool.or_eq_true, Bool.and_eq_true, decide_eq_true_eq,
      beq_iff_eq, Char.le_def, UInt32.le_iff_toNat_le] at starts
    rcases starts with (⟨-, small⟩ | ⟨-, small⟩) | rfl
    · exact Nat.lt_of_le_of_lt small (by decide)
    · exact Nat.lt_of_le_of_lt small (by decide)
    · decide
  simp only [isNameStart, Bool.or_eq_true] at starts
  rw [isWordChar, if_pos ascii]
  rcases starts with letter | underscore
  · rw [letter]
    rfl
  · rw [underscore, Bool.or_true]

theorem exists_of_isName {name : Text} (named : isName name = true) :
    ∃ first others, name = first :: others ∧ isNameStart first = true ∧
      ∀ char ∈ name, isWordChar char = true := by
  cases name with
  | nil => cases named
  | cons first others =>
      rw [isName, Bool.and_eq_true, List.all_eq_true] at named
      obtain ⟨starts, letters⟩ := named
      exact ⟨first, others, rfl, starts,
        List.forall_mem_cons.mpr ⟨isWordChar_of_isNameStart starts, letters⟩⟩

theorem visible_of_isName {name : Text} (named : isName name = true) (rest : Text) :
    ∀ char ∈ (name ++ rest).head?, isBlank char = false := by
  obtain ⟨first, others, rfl, -, letters⟩ := exists_of_isName named
  rintro char ⟨⟩
  exact not_isBlank_of_isWordChar (letters first List.mem_cons_self)

theorem skipChar_of_isName {expected : Char} (special : isNameStart expected = false)
    {name : Text} (named : isName name = true) (rest : Text) :
    skipChar expected (name ++ rest) = name ++ rest := by
  obtain ⟨first, others, rfl, starts, -⟩ := exists_of_isName named
  have differs : first ≠ expected := by
    rintro rfl
    rw [starts] at special
    cases special
  simp [skipChar, char?, differs]

theorem exists_of_name? {text name after : Text} (read : name? text = some (name, after)) :
    ∃ skipped last, isWordChar last = true ∧ text = skipped ++ last :: after := by
  cases text with
  | nil => cases read
  | cons char rest =>
      simp only [name?] at read
      split at read
      · rename_i starts
        cases read
        have split := List.takeWhile_append_dropWhile (p := isWordChar) (l := rest)
        rcases List.eq_nil_or_concat (rest.takeWhile isWordChar) with none | ⟨front, last, more⟩
        · refine ⟨[], char, isWordChar_of_isNameStart starts, ?_⟩
          rw [none, List.nil_append] at split
          rw [split, List.nil_append]
        · have member : last ∈ rest.takeWhile isWordChar := by simp [more]
          refine ⟨char :: front, last, List.mem_takeWhile_imp member, ?_⟩
          rw [more] at split
          simpa using split.symm
      · cases read

private def aliasAt? (atWordStart : Bool) (text : Text) : Option (Text × Text) :=
  if atWordStart then asAlias? text else none

/-- An alias is read from its first letter to the last one of its name. -/
private theorem exists_of_aliasAt? {atWordStart : Bool} {text name after : Text}
    (read : aliasAt? atWordStart text = some (name, after)) :
    ∃ skipped last, isWordChar last = true ∧ text = 'a' :: (skipped ++ last :: after) := by
  unfold aliasAt? at read
  split at read
  · obtain ⟨start, word, named⟩ := Option.bind_eq_some_iff.mp read
    obtain ⟨following, as, gap⟩ := Option.bind_eq_some_iff.mp word
    obtain ⟨blanks, blank⟩ := exists_of_gap? gap
    obtain ⟨skipped, last, isWord, split⟩ := exists_of_name? named
    refine ⟨'s' :: blanks ++ skipped, last, isWord, ?_⟩
    rw [eq_append_of_after? as, blank, split]
    simp
  · cases read

private theorem aliasesFrom_cons (atWordStart : Bool) (char : Char) (rest : Text) :
    aliasesFrom atWordStart 0 (char :: rest) =
      match aliasAt? atWordStart (char :: rest) with
      | some (name, after) =>
          name :: aliasesFrom (!isWordChar char) (rest.length - after.length) rest
      | none => aliasesFrom (!isWordChar char) 0 rest := by
  delta aliasesFrom
  rfl

private theorem lineScan_aliasesFrom :
    LineScan (fun atWordStart text => aliasesFrom atWordStart 0 text) fun atWordStart text =>
      (aliasAt? atWordStart text).map fun (name, after) => ([name], false, after) where
  nil _ := rfl
  cons atWordStart char rest := by
    rw [aliasesFrom_cons]
    cases read : aliasAt? atWordStart (char :: rest) with
    | none => rfl
    | some pair =>
        obtain ⟨name, after⟩ := pair
        obtain ⟨skipped, last, isWord, split⟩ := exists_of_aliasAt? read
        obtain ⟨rfl, rfl⟩ := List.cons.inj split
        have passed : (skipped ++ last :: after).length - after.length = skipped.length + 1 := by
          simp only [List.length_append, List.length_cons]
          omega
        have later := scan_passed aliasesFrom (fun _ _ _ _ => rfl)
          (!isWordChar 'a') skipped last after
        simp only [Option.map_some, passed, later, isWord]
        rfl
  space atWordStart rest := by cases atWordStart <;> rfl
  shorter atWordStart text read next after found := by
    obtain ⟨⟨name, rest⟩, named, equal⟩ := Option.map_eq_some_iff.mp found
    cases equal
    obtain ⟨skipped, last, -, rfl⟩ := exists_of_aliasAt? named
    simp only [List.length_cons, List.length_append]
    omega

private theorem aliasAt?_squeeze (atWordStart : Bool) (text : Text) :
    aliasAt? atWordStart (squeeze text) =
      (aliasAt? atWordStart text).map (Prod.map id squeeze) := by
  unfold aliasAt?
  split
  · rw [asAlias?, asAlias?, afterGap_squeeze _ (by decide)]
    cases (after? "as".toList text).bind gap? with
    | none => rfl
    | some rest => exact name?_squeeze rest
  · rfl

private theorem aliasesFrom_squeeze (atWordStart : Bool) (line : Text) :
    aliasesFrom atWordStart 0 (squeeze line) = aliasesFrom atWordStart 0 line := by
  have aliases := lineScan_aliasesFrom.squeeze id (fun atWordStart text => by
    rw [aliasAt?_squeeze]
    cases aliasAt? atWordStart text <;> simp) atWordStart line
  rwa [List.map_id] at aliases

@[simp] theorem contextAliases_squeeze (line : Text) :
    contextAliases (squeeze line) = contextAliases line := by
  rw [contextAliases, contextAliases, trimLeft_squeeze, skipWord_squeeze _ (by decide),
    word?_squeeze _ (by decide), Option.isSome_map, aliasesFrom_squeeze]

@[simp] theorem exceptionAlias?_squeeze (line : Text) :
    exceptionAlias? (squeeze line) = exceptionAlias? line := by
  rw [exceptionAlias?, exceptionAlias?, trimLeft_squeeze, word?_squeeze _ (by decide)]
  cases word? "except" (trimLeft line) with
  | none => rfl
  | some rest => exact congrArg List.head? (aliasesFrom_squeeze false rest)

/-! ### Anonymous functions -/

/-- The parameters of the anonymous function that begins at a place of a line, with what follows
their colon; without a colon there is nothing more to read. -/
private def lambdaAt? (atWordStart : Bool) (text : Text) : Option (List Text × Bool × Text) :=
  (if atWordStart then word? "lambda" text else none).map fun after =>
    if after.contains ':' then
      ([after.takeWhile fun char => char != ':'], true,
        (after.dropWhile fun char => char != ':').tail)
    else ([], true, [])

private theorem lambdaParametersFrom_cons (atWordStart : Bool) (char : Char) (rest : Text) :
    lambdaParametersFrom atWordStart 0 (char :: rest) =
      match if atWordStart then word? "lambda" (char :: rest) else none with
      | some after =>
          if after.contains ':' then
            (after.takeWhile fun char => char != ':') ::
              lambdaParametersFrom (!isWordChar char)
                ("ambda".length + (after.takeWhile fun char => char != ':').length + 1) rest
          else []
      | none => lambdaParametersFrom (!isWordChar char) 0 rest := by
  delta lambdaParametersFrom
  rfl

private theorem eq_append_of_contains {after : Text} (colon : after.contains ':' = true) :
    after = (after.takeWhile fun char => char != ':') ++
      ':' :: (after.dropWhile fun char => char != ':').tail := by
  have split := List.takeWhile_append_dropWhile (p := fun char : Char => char != ':') (l := after)
  have stops := List.head?_dropWhile_not (fun char : Char => char != ':') after
  cases following : after.dropWhile fun char => char != ':' with
  | nil =>
      rw [List.dropWhile_eq_nil_iff] at following
      rw [List.contains_iff_mem] at colon
      exact absurd (following ':' colon) (by decide)
  | cons char rest =>
      rw [following] at split stops
      obtain rfl : char = ':' := by simpa using stops
      exact split.symm

private theorem eq_of_lambdaAt? {atWordStart : Bool} {text after : Text}
    (read : (if atWordStart then word? "lambda" text else none) = some after) :
    text = 'l' :: ("ambda".toList ++ after) := by
  split at read
  · rw [eq_append_of_word? read]
    simp
  · cases read

private theorem lineScan_lambdaParametersFrom :
    LineScan (fun atWordStart text => lambdaParametersFrom atWordStart 0 text) lambdaAt? where
  nil _ := rfl
  cons atWordStart char rest := by
    rw [lambdaParametersFrom_cons, lambdaAt?]
    cases read : (if atWordStart then word? "lambda" (char :: rest) else none) with
    | none => rfl
    | some after =>
        obtain ⟨rfl, rfl⟩ := List.cons.inj (eq_of_lambdaAt? read)
        cases colon : after.contains ':' with
        | false => simp only [colon, Option.map_some, Bool.false_eq_true, if_false]; rfl
        | true =>
            have cut := eq_append_of_contains colon
            have later := scan_passed lambdaParametersFrom (fun _ _ _ _ => rfl)
              (!isWordChar 'l') ("ambda".toList ++ after.takeWhile fun char => char != ':') ':'
              (after.dropWhile fun char => char != ':').tail
            rw [List.append_assoc, ← cut, List.length_append] at later
            simp only [colon, Option.map_some, if_true]
            exact congrArg (_ :: ·) later
  space atWordStart rest := by cases atWordStart <;> rfl
  shorter atWordStart text read next after found := by
    obtain ⟨following, word, equal⟩ := Option.map_eq_some_iff.mp found
    rw [eq_of_lambdaAt? word]
    simp only [List.length_cons, List.length_append]
    split at equal
    · cases equal
      have bound : (following.dropWhile fun char => char != ':').length ≤ following.length :=
        (List.dropWhile_sublist _).length_le
      rw [List.length_tail]
      omega
    · cases equal
      simp

private theorem lambdaAt?_squeeze (atWordStart : Bool) (text : Text) :
    lambdaAt? atWordStart (squeeze text) =
      (lambdaAt? atWordStart text).map fun (read, next, after) =>
        (read.map squeeze, next, squeeze after) := by
  have asked : (if atWordStart then word? "lambda" (squeeze text) else none) =
      (if atWordStart then word? "lambda" text else none).map squeeze := by
    split
    · exact word?_squeeze _ (by decide) text
    · rfl
  rw [lambdaAt?, lambdaAt?, asked]
  cases (if atWordStart then word? "lambda" text else none) with
  | none => rfl
  | some after =>
      cases colon : after.contains ':' with
      | false =>
          simp only [Option.map_some, contains_squeeze, colon, Bool.false_eq_true, if_false]
          rfl
      | true =>
          have stops := List.head?_dropWhile_not (fun char : Char => char != ':') after
          have tail : squeeze (after.dropWhile fun char => char != ':').tail =
              (squeeze (after.dropWhile fun char => char != ':')).tail := by
            cases following : after.dropWhile fun char => char != ':' with
            | nil => rfl
            | cons char rest =>
                rw [following] at stops
                obtain rfl : char = ':' := by simpa using stops
                rw [squeeze_cons_of_ne (by decide), List.tail_cons, List.tail_cons]
          simp only [Option.map_some, contains_squeeze, colon, if_true, takeWhile_squeeze,
            dropWhile_squeeze, tail]
          rfl

theorem lambdaParameters_squeeze (line : Text) :
    lambdaParameters (squeeze line) = (lambdaParameters line).map squeeze :=
  lineScan_lambdaParametersFrom.squeeze squeeze lambdaAt?_squeeze true line

end NotebookLint.Names
