import NotebookLint.Names.Signature
import NotebookLint.Proofs.BindingSpacing

/-! Function signatures are blind to spacing: the functions of a text and the names of their
parameters are the same in its normal form, wherever the spaces stand. -/

set_option autoImplicit false

namespace NotebookLint.Names

open Text

/-! ## Parameter lists -/

/-- The bracket depth after a character of a parameter list. -/
def parameterDepth (depth : Int) (char : Char) : Int :=
  if isOpener char then depth + 1 else if isCloser char then depth - 1 else depth

theorem splitParametersFrom_step (depth : Int) (current : Text) (char : Char)
    (rest : Text) :
    splitParametersFrom depth current (char :: rest) =
      if char = ',' ∧ parameterDepth depth char = 0 then
        current.reverse :: splitParametersFrom (parameterDepth depth char) [] rest
      else splitParametersFrom (parameterDepth depth char) (char :: current) rest := by
  have step : splitParametersFrom depth current (char :: rest) =
      if char == ',' && parameterDepth depth char == 0 then
        current.reverse :: splitParametersFrom (parameterDepth depth char) [] rest
      else splitParametersFrom (parameterDepth depth char) (char :: current) rest := rfl
  rw [step]
  simp

private theorem splitParametersFrom_current (depth : Int) (current text : Text) :
    splitParametersFrom depth current text =
      (splitParametersFrom depth [] text).modifyHead (current.reverse ++ ·) := by
  induction text generalizing depth current with
  | nil => simp [splitParametersFrom]
  | cons char rest ih =>
      rw [splitParametersFrom_step, splitParametersFrom_step]
      split
      · simp
      · rw [ih _ (char :: current), ih _ [char], List.modifyHead_modifyHead]
        simp [Function.comp_def]

private theorem splitParametersFrom_cons (depth : Int) (char : Char) (rest : Text) :
    splitParametersFrom depth [] (char :: rest) =
      if char = ',' ∧ parameterDepth depth char = 0 then
        [] :: splitParametersFrom (parameterDepth depth char) [] rest
      else (splitParametersFrom (parameterDepth depth char) [] rest).modifyHead (char :: ·) := by
  rw [splitParametersFrom_step, splitParametersFrom_current _ [char] rest]
  rfl

private theorem map_squeeze_splitParametersFrom (depth : Int) (text : Text) :
    (splitParametersFrom depth [] (squeeze text)).map squeeze =
      (splitParametersFrom depth [] text).map squeeze := by
  have noComma : ¬ (' ' = ',' ∧ parameterDepth depth ' ' = 0) :=
    fun both => absurd both.1 (by decide)
  have level : ∀ depth, parameterDepth depth ' ' = depth := fun _ => rfl
  induction text using squeeze_induction generalizing depth with
  | nil => rfl
  | double rest ih =>
      rw [squeeze_double, ih depth noComma, splitParametersFrom_cons, splitParametersFrom_cons,
        splitParametersFrom_cons]
      simp only [level] at noComma ⊢
      rw [if_neg noComma, if_neg noComma]
      cases splitParametersFrom depth [] rest <;> simp
  | single char rest apart ih =>
      have later := ih (parameterDepth depth char) (fun both => absurd both.1 (by decide))
      rw [squeeze_cons apart, splitParametersFrom_cons, splitParametersFrom_cons]
      split
      · simp [later]
      · exact map_squeeze_modifyHead char later

theorem isName_eq (text : Text) :
    Text.isName text = (text.head?.any isNameStart && text.all isWordChar) := by
  cases text with
  | nil => rfl
  | cons char rest =>
      cases starts : isNameStart char with
      | false => simp [Text.isName, starts]
      | true => simp [Text.isName, starts, isWordChar_of_isNameStart starts]

theorem isName_squeeze (text : Text) : Text.isName (squeeze text) = Text.isName text := by
  rw [isName_eq, isName_eq, head?_squeeze, all_squeeze]

theorem squeeze_of_isName {text : Text} (isName : Text.isName text = true) :
    squeeze text = text := by
  apply squeeze_of_not_mem
  intro member
  rw [isName_eq, Bool.and_eq_true, List.all_eq_true] at isName
  exact absurd (isName.2 ' ' member) (by decide)

@[simp] theorem parameterName?_squeeze (parameter : Text) :
    parameterName? (squeeze parameter) = parameterName? parameter := by
  simp only [parameterName?, takeWhile_squeeze, trim_squeeze, dropWhile_squeeze, isName_squeeze]
  generalize trim _ = name
  cases isName : Text.isName name with
  | false => simp
  | true => rw [squeeze_of_isName isName]

@[simp] theorem parameterNames_squeeze (list : Text) :
    parameterNames (squeeze list) = parameterNames list := by
  have blind : parameterName? ∘ squeeze = parameterName? := funext parameterName?_squeeze
  have pieces := map_squeeze_splitParametersFrom 0 list
  calc parameterNames (squeeze list)
    _ = ((splitParametersFrom 0 [] (squeeze list)).map squeeze).filterMap parameterName? := by
        rw [List.filterMap_map, blind]
        rfl
    _ = ((splitParametersFrom 0 [] list).map squeeze).filterMap parameterName? := by rw [pieces]
    _ = parameterNames list := by
        rw [List.filterMap_map, blind]
        rfl

/-! ### A space at the end of a list -/

private theorem takeWhile_concat_space (taken : Char → Bool) (text : Text) :
    (text ++ [' ']).takeWhile taken = text.takeWhile taken ∨
      (text ++ [' ']).takeWhile taken = text.takeWhile taken ++ [' '] := by
  rw [List.takeWhile_append]
  split
  · rename_i whole
    have all : text.takeWhile taken = text := (List.takeWhile_prefix _).eq_of_length whole
    cases space : taken ' ' with
    | true => exact .inr (by simp [space, all])
    | false => exact .inl (by simp [space, all])
  · exact .inl rfl

private theorem parameterName?_concat_space (parameter : Text) :
    parameterName? (parameter ++ [' ']) = parameterName? parameter := by
  have trimmed : ∀ text : Text, trim (text ++ [' ']) = trim text :=
    trim_append_of_isBlankText (by decide)
  simp only [parameterName?]
  rcases takeWhile_concat_space (fun char => char != '=') parameter with same | padded
  · rw [same]
  · rw [padded]
    rcases takeWhile_concat_space (fun char => char != ':')
      (parameter.takeWhile fun char => char != '=') with same | alsoPadded
    · rw [same]
    · rw [alsoPadded, trimmed]

/-- The pieces of a list with a space after it have at most that space more. -/
private theorem forall₂_splitParametersFrom_concat (depth : Int) (text : Text) :
    List.Forall₂ (fun padded piece => padded = piece ∨ padded = piece ++ [' '])
      (splitParametersFrom depth [] (text ++ [' '])) (splitParametersFrom depth [] text) := by
  induction text generalizing depth with
  | nil => exact .cons (.inr rfl) .nil
  | cons char rest ih =>
      have later := ih (parameterDepth depth char)
      rw [List.cons_append, splitParametersFrom_cons, splitParametersFrom_cons]
      split
      · exact .cons (.inl rfl) later
      · generalize splitParametersFrom (parameterDepth depth char) [] (rest ++ [' ']) = padded
          at later ⊢
        generalize splitParametersFrom (parameterDepth depth char) [] rest = pieces at later ⊢
        cases later with
        | nil => exact .nil
        | cons first others =>
            rcases first with rfl | rfl
            · exact .cons (.inl rfl) others
            · exact .cons (.inr rfl) others

private theorem parameterNames_concat_space (list : Text) :
    parameterNames (list ++ [' ']) = parameterNames list := by
  have pieces := forall₂_splitParametersFrom_concat 0 list
  unfold parameterNames splitParameters
  generalize splitParametersFrom 0 [] (list ++ [' ']) = padded at pieces ⊢
  generalize splitParametersFrom 0 [] list = bare at pieces ⊢
  induction pieces with
  | nil => rfl
  | cons first others ih =>
      rcases first with rfl | rfl
      · simp only [List.filterMap_cons, ih]
      · simp only [List.filterMap_cons, parameterName?_concat_space, ih]

/-! ## Headers -/

@[simp] theorem skipSpaces_squeeze (text : Text) :
    skipSpaces (squeeze text) = squeeze (skipSpaces text) :=
  dropWhile_squeeze isSpaceOrTab text

theorem spaces?_eq (text : Text) :
    spaces? text = if text.head?.any isSpaceOrTab then some (skipSpaces text) else none := by
  cases text with
  | nil => rfl
  | cons char rest =>
      cases blank : isSpaceOrTab char with
      | true => simp [spaces?, skipSpaces, blank]
      | false => simp [spaces?, blank]

private theorem afterSpaces_squeeze (beginning : Text) (visible : ' ' ∉ beginning) (text : Text) :
    (after? beginning (squeeze text)).bind spaces? =
      ((after? beginning text).bind spaces?).map squeeze := by
  rw [after?_squeeze _ visible]
  cases after? beginning text with
  | none => rfl
  | some rest =>
      simp only [Option.map_some, Option.bind_some, spaces?_eq, head?_squeeze, skipSpaces_squeeze]
      split <;> rfl

theorem functionHeader?_squeeze (text : Text) :
    functionHeader? (squeeze text) = (functionHeader? text).map (Prod.map id squeeze) := by
  simp only [functionHeader?, Option.bind_eq_bind, skipSpaces_squeeze,
    afterSpaces_squeeze "async".toList (by decide), Option.getD_map,
    afterSpaces_squeeze "def".toList (by decide)]
  cases (after? "def".toList
      (((after? "async".toList (skipSpaces text)).bind spaces?).getD (skipSpaces text))).bind
      spaces? with
  | none => rfl
  | some rest =>
      simp only [Option.map_some, Option.bind_some, name?_squeeze]
      cases name? rest with
      | none => rfl
      | some pair =>
          simp only [Option.map_some, Option.bind_some, Prod.map_snd, Prod.map_fst,
            skipSpaces_squeeze, char?_squeeze '(' (by decide)]
          cases char? '(' (skipSpaces pair.2) <;> rfl

/-- A character before the closer either is that closer or goes into the text before it. -/
theorem beforeCloser?_cons (depth : Nat) (char : Char) :
    (∀ rest, beforeCloser? depth (char :: rest) = some []) ∨
      ∃ inner, ∀ rest,
        beforeCloser? depth (char :: rest) = (beforeCloser? inner rest).map (char :: ·) := by
  cases opens : isOpener char with
  | true => exact .inr ⟨depth + 1, fun rest => by simp [beforeCloser?, opens]⟩
  | false =>
      cases closes : isCloser char with
      | false => exact .inr ⟨depth, fun rest => by simp [beforeCloser?, opens, closes]⟩
      | true =>
          cases depth with
          | zero => exact .inl fun rest => by simp [beforeCloser?, opens, closes]
          | succ outer => exact .inr ⟨outer, fun rest => by simp [beforeCloser?, opens, closes]⟩

private theorem beforeCloser?_space (depth : Nat) (rest : Text) :
    beforeCloser? depth (' ' :: rest) = (beforeCloser? depth rest).map (' ' :: ·) := by
  cases depth <;> rfl

private theorem head?_of_beforeCloser? {depth : Nat} {text before : Text}
    (read : beforeCloser? depth text = some before) (space : before.head? = some ' ') :
    text.head? = some ' ' := by
  cases text with
  | nil => cases depth <;> cases read
  | cons char rest =>
      rcases beforeCloser?_cons depth char with closes | ⟨inner, goesOn⟩
      · rw [closes] at read
        cases read
        simp at space
      · rw [goesOn] at read
        obtain ⟨later, -, rfl⟩ := Option.map_eq_some_iff.mp read
        simpa using space

theorem beforeCloser?_squeeze (depth : Nat) (text : Text) :
    beforeCloser? depth (squeeze text) = (beforeCloser? depth text).map squeeze := by
  induction text using squeeze_induction generalizing depth with
  | nil => cases depth <;> rfl
  | double rest ih =>
      rw [squeeze_double, ih, beforeCloser?_space depth (' ' :: rest), beforeCloser?_space]
      cases beforeCloser? depth rest <;> simp
  | single char rest apart ih =>
      rw [squeeze_cons apart]
      rcases beforeCloser?_cons depth char with closes | ⟨inner, goesOn⟩
      · rw [closes, closes]
        rfl
      · rw [goesOn, goesOn, ih]
        cases read : beforeCloser? inner rest with
        | none => rfl
        | some before =>
            have stillApart : char = ' ' → before.head? ≠ some ' ' :=
              fun isSpace more => apart isSpace (head?_of_beforeCloser? read more)
            simp [squeeze_cons stillApart]

/-- Without a closer the last character of a list is lost; if that is a space, it makes no
difference. -/
private theorem parameterNames_dropLast_squeeze (text : Text) :
    parameterNames (squeeze text).dropLast = parameterNames text.dropLast := by
  rcases List.eq_nil_or_concat text with rfl | ⟨front, last, rfl⟩
  · rfl
  · rw [List.concat_eq_append, List.dropLast_concat]
    by_cases double : last = ' ' ∧ front.getLast? = some ' '
    · obtain ⟨rfl, more⟩ := double
      have ends : (squeeze front).getLast? = some ' ' := by
        rw [← List.head?_reverse, ← squeeze_reverse, head?_squeeze, List.head?_reverse, more]
      rw [squeeze_concat_double more, ← parameterNames_concat_space,
        List.dropLast_append_getLast? _ ends, parameterNames_squeeze]
    · have apart : last = ' ' → front.getLast? ≠ some ' ' :=
        fun isSpace more => double ⟨isSpace, more⟩
      rw [squeeze_concat apart, List.dropLast_concat, parameterNames_squeeze]

private theorem parameterNames_parameterText_squeeze (text : Text) :
    parameterNames (parameterText (squeeze text)) = parameterNames (parameterText text) := by
  rw [parameterText, parameterText, beforeCloser?_squeeze]
  cases beforeCloser? 0 text with
  | some before => exact parameterNames_squeeze before
  | none => exact parameterNames_dropLast_squeeze text

/-! ## Signatures -/

private def namesOfSignature (signature : Text × Text) : List Text :=
  signature.1 :: parameterNames signature.2

/-- The function that begins here, if a line does. -/
def signatureAt (atLineStart : Bool) (text : Text) : List (Text × Text) :=
  if atLineStart then
    (functionHeader? text).toList.map fun header => (header.1, parameterText header.2)
  else []

theorem signaturesFrom_cons (atLineStart : Bool) (char : Char) (rest : Text) :
    signaturesFrom atLineStart (char :: rest) =
      signatureAt atLineStart (char :: rest) ++ signaturesFrom (char == '\n') rest := rfl

private theorem map_signatureAt_squeeze (atLineStart : Bool) (text : Text) :
    (signatureAt atLineStart (squeeze text)).map namesOfSignature =
      (signatureAt atLineStart text).map namesOfSignature := by
  unfold signatureAt
  split
  · rw [functionHeader?_squeeze]
    cases functionHeader? text with
    | none => rfl
    | some header => simp [namesOfSignature, parameterNames_parameterText_squeeze]
  · rfl

private theorem map_signaturesFrom_squeeze (atLineStart : Bool) (text : Text) :
    (signaturesFrom atLineStart (squeeze text)).map namesOfSignature =
      (signaturesFrom atLineStart text).map namesOfSignature := by
  induction text using squeeze_induction generalizing atLineStart with
  | nil => rfl
  | double rest ih =>
      have here : signatureAt atLineStart (' ' :: ' ' :: rest) =
          signatureAt atLineStart (' ' :: rest) := rfl
      rw [squeeze_double, ih, signaturesFrom_cons atLineStart ' ' (' ' :: rest), here]
      rfl
  | single char rest apart ih =>
      have here := map_signatureAt_squeeze atLineStart (char :: rest)
      rw [squeeze_cons apart] at here ⊢
      rw [signaturesFrom_cons, signaturesFrom_cons, List.map_append, List.map_append, here, ih]

/-- The names that the functions of a text introduce are those of its normal form. -/
theorem flatMap_signatures_squeeze (text : Text) :
    ((signatures (squeeze text)).flatMap fun (name, parameters) =>
        name :: parameterNames parameters) =
      (signatures text).flatMap fun (name, parameters) => name :: parameterNames parameters := by
  have named := map_signaturesFrom_squeeze true text
  have flat := congrArg List.flatten named
  rwa [← List.flatMap_def, ← List.flatMap_def] at flat

end NotebookLint.Names
