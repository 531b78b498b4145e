import NotebookLint.Proofs.AlikeLines
import NotebookLint.Rules.MissingReturn

/-! The functions of a cell and the spacing of its lines. Lines that differ in the spaces at their
end hold functions with the same names, decorators and lines, whose bodies have the same normal
forms, and whether a function lacks a return depends on no more than that. -/

set_option autoImplicit false

namespace NotebookLint.MissingReturn

open Text

/-! ## Headers -/

private theorem decorator?_squeeze (line : Text) : decorator? (squeeze line) = decorator? line := by
  simp only [decorator?, trimLeft_squeeze, char?_squeeze '@' (by decide)]
  cases char? '@' (trimLeft line) with
  | none => rfl
  | some rest =>
      have name := takeWhile_squeeze_of_stops
        (fun char => isWordChar char || char == '.') rfl (trimLeft rest)
      simp only [Option.map_some, Option.bind_eq_bind, Option.bind_some, trimLeft_squeeze, name,
        head?_squeeze]

private def headerName? (line : Text) : Option Text :=
  ((after? "def".toList (skipWord "async" (trimLeft line))).bind gap?).bind fun rest =>
    (name? rest).bind fun pair => (char? '(' (trimLeft pair.2)).map fun _ => pair.1

private theorem header?_eq_map (line : Text) :
    header? line = (headerName? line).map fun name => (line.takeWhile isBlank, name) := by
  simp only [header?, headerName?, Option.bind_eq_bind, Option.map_eq_bind, Option.bind_assoc,
    Function.comp_def, Option.bind_some]
  rfl

private theorem headerName?_squeeze (line : Text) :
    headerName? (squeeze line) = headerName? line := by
  rw [headerName?, headerName?, trimLeft_squeeze, skipWord_squeeze _ (by decide),
    afterGap_squeeze _ (by decide)]
  apply bind_map_squeeze
  intro rest
  apply bind_name?_squeeze
  intro name following
  rw [trimLeft_squeeze, char?_squeeze _ (by decide), Option.map_map]
  rfl

private theorem headerName?_of_isBlankText {line : Text} (blank : isBlankText line = true) :
    headerName? line = none := by
  have empty : trimLeft line = [] :=
    List.dropWhile_eq_nil_iff.mpr (List.all_eq_true.mp blank)
  rw [headerName?, empty]
  rfl

/-- A header has the same margin and name whatever the spaces at the end of its line. -/
private theorem header?_eq {left right : Text} (same : Repadded left right) :
    header? left = header? right := by
  rw [header?_eq_map, header?_eq_map, ← same.eq_of_blind _ headerName?_squeeze]
  cases blank : isBlankText left with
  | true => rw [headerName?_of_isBlankText blank]; rfl
  | false => rw [same.takeWhile_eq blank fun _ isBlank => isBlank]

/-! ## Bodies -/

private theorem afterColon?_squeeze (text : Text) :
    afterColon? (squeeze text) = (afterColon? text).map squeeze := by
  simp only [afterColon?, trimLeft_squeeze, after?_squeeze ['-', '>'] (by decide)]
  cases after? ['-', '>'] (trimLeft text) with
  | none => exact char?_squeeze _ (by decide) _
  | some result =>
      simp only [Option.map_some, dropWhile_squeeze]
      exact char?_squeeze _ (by decide) _

private theorem inlineBody?_squeeze (line : Text) :
    inlineBody? (squeeze line) = (inlineBody? line).map squeeze := by
  induction line using squeeze_induction with
  | nil => rfl
  | double rest ih =>
      rw [squeeze_double, ih]
      rfl
  | single char rest apart ih =>
      have asked : (if char == ')' then (afterColon? rest).map squeeze else none) =
          (if char == ')' then afterColon? rest else none).map squeeze := by
        split <;> rfl
      rw [squeeze_cons apart, inlineBody?, inlineBody?, afterColon?_squeeze, asked, ih]
      cases (if char == ')' then afterColon? rest else none) <;> rfl

private theorem afterHeader_repadded {left right : Text} (same : Repadded left right)
    {leftRest rightRest : List Text} (rest : List.Forall₂ Repadded leftRest rightRest)
    (depth : Int) :
    Repadded (afterHeader depth left leftRest).1 (afterHeader depth right rightRest).1 ∧
      List.Forall₂ Repadded (afterHeader depth left leftRest).2
        (afterHeader depth right rightRest).2 := by
  induction rest generalizing depth left right with
  | nil => exact ⟨same, .nil⟩
  | @cons first second firsts seconds line lines ih =>
      rw [afterHeader, afterHeader]
      split
      · rw [line.eq_of_blind _ bracketDelta_squeeze]
        exact ih line _
      · exact ⟨same, .cons line lines⟩

private theorem map_squeeze_bodyLines {left right : Text} (same : Repadded left right)
    {leftRest rightRest : List Text} (rest : List.Forall₂ Repadded leftRest rightRest)
    (indent : Nat) :
    (bodyLines indent left leftRest).map squeeze =
      (bodyLines indent right rightRest).map squeeze := by
  have inline : ∀ text, (((inlineBody? (squeeze text)).filter fun body =>
        !isBlankText body).map squeeze).toList =
      (((inlineBody? text).filter fun body => !isBlankText body).map squeeze).toList := by
    intro text
    rw [inlineBody?_squeeze]
    cases inlineBody? text with
    | none => rfl
    | some body => cases blank : isBlankText body <;> simp [Option.filter, blank]
  have first := same.eq_of_blind (fun text =>
    (((inlineBody? text).filter fun body => !isBlankText body).map squeeze).toList) inline
  simp only [bodyLines, List.map_append, Option.toList_map] at first ⊢
  rw [first]
  congr 1
  induction rest with
  | nil => rfl
  | @cons one other firsts seconds line lines ih =>
      have taken : (isBlankText one || indentWidth standardTabWidth one > indent) =
          (isBlankText other || indentWidth standardTabWidth other > indent) := by
        rw [← line.eq_of_blind _ isBlankText_squeeze]
        cases blank : isBlankText one with
        | true => rfl
        | false => rw [line.indentWidth_eq blank]
      rw [List.takeWhile_cons, List.takeWhile_cons, taken]
      split
      · rw [List.map_cons, List.map_cons, line.squeeze_eq, ih]
      · rfl

/-! ## Functions -/

namespace Function

/-- A function with its body in normal form. -/
private def squeezed (function : Function) : Function :=
  { function with body := function.body.map squeeze }

private theorem hasReturn_squeezed (function : Function) :
    function.squeezed.hasReturn = function.hasReturn := by
  have yields : ∀ line, ((words (squeeze line)).any fun word => word.text == "yield".toList) =
      (words line).any fun word => word.text == "yield".toList := by
    intro line
    have texts := congrArg (·.any fun text => text == "yield".toList) (map_text_words_squeeze line)
    simpa only [List.any_map, Function.comp_def] using texts
  simp only [hasReturn, squeezed, List.any_map, Function.comp_def, trimLeft_squeeze,
    word?_squeeze "return" (by decide), Option.isSome_map, yields]

private theorem isStubLine_squeeze (line : Text) : isStubLine (squeeze line) = isStubLine line := by
  simp only [isStubLine, trim_squeeze, all_squeeze, beq_squeeze "pass".toList (by decide),
    beq_squeeze "...".toList (by decide),
    startsWith_squeeze "raise".toList (by decide)]

private theorem isStub_squeezed (function : Function) :
    function.squeezed.isStub = function.isStub := by
  simp only [isStub, squeezed, List.all_map, Function.comp_def, isStubLine_squeeze]

private theorem any_congr {names : List Text} {first second : Text → Bool}
    (same : ∀ name ∈ names, first name = second name) : names.any first = names.any second := by
  induction names with
  | nil => rfl
  | cons name others ih =>
      rw [List.any_cons, List.any_cons, same name (by simp),
        ih fun other inside => same other (by simp [inside])]

private theorem startsComputation_squeeze (text : Text) :
    startsComputation (squeeze text) = startsComputation text := by
  have results : ∀ name ∈ resultNames, ' ' ∉ name := by decide
  have operators : ∀ operator ∈ updateOperators, ' ' ∉ operator := by decide
  rw [startsComputation, startsComputation]
  congr 1
  · apply any_congr
    intro name member
    rw [after?_squeeze _ (results name member)]
    cases after? name text <;> simp
  · apply any_congr
    intro operator member
    exact startsWith_squeeze _ (operators operator member) text

private theorem looksComputing_squeezed (function : Function) :
    function.squeezed.looksComputing = function.looksComputing := by
  have idempotent : squeeze ∘ squeeze = squeeze := funext squeeze_squeeze
  have joined : squeeze (ofLines (function.body.map squeeze)) = squeeze (ofLines function.body) :=
    squeeze_join_congr ['\n'] (by rw [List.map_map, idempotent])
  have computes : (suffixes (ofLines (function.body.map squeeze))).any startsComputation =
      (suffixes (ofLines function.body)).any startsComputation := by
    rw [← any_suffixes_squeeze startsComputation_squeeze, joined,
      any_suffixes_squeeze startsComputation_squeeze]
  rw [looksComputing, looksComputing, ← computes]
  rfl

private theorem lacksReturn_squeezed (function : Function) :
    function.squeezed.lacksReturn = function.lacksReturn := by
  rw [lacksReturn, lacksReturn, hasReturn_squeezed, isStub_squeezed, looksComputing_squeezed]
  rfl

end Function

private theorem map_squeezed_functionsFrom {left right : List Text}
    (same : List.Forall₂ Repadded left right) (number : Nat) (decorators : List Text) :
    (functionsFrom number decorators left).map Function.squeezed =
      (functionsFrom number decorators right).map Function.squeezed := by
  induction same generalizing number decorators with
  | nil => rfl
  | @cons first second firsts seconds line lines ih =>
      rw [functionsFrom, functionsFrom, line.eq_of_blind _ decorator?_squeeze, header?_eq line,
        line.eq_of_blind _ isBlankText_squeeze, line.eq_of_blind _ bracketDelta_squeeze]
      cases decorator? second with
      | some decorator => exact ih _ _
      | none =>
          cases header? second with
          | none => exact ih _ _
          | some header =>
              obtain ⟨headerEnd, following⟩ := afterHeader_repadded line lines (bracketDelta second)
              have body := map_squeeze_bodyLines headerEnd following
                (indentWidth standardTabWidth header.1)
              simp only [List.map_cons, Function.squeezed, body, ih]

/-- Texts whose lines differ in the spaces at their end have the same findings. -/
theorem findings_eq_of_repadded {left right : Text}
    (same : List.Forall₂ Repadded (lines (blanked left)) (lines (blanked right))) :
    findings left = findings right := by
  have fromSqueezed : ∀ source, findings source =
      (((functions source).map Function.squeezed).filter Function.lacksReturn).map
        fun function => ⟨.missingReturn function.name, function.line, none⟩ := by
    intro source
    have lacking : Function.lacksReturn ∘ Function.squeezed = Function.lacksReturn :=
      funext Function.lacksReturn_squeezed
    rw [findings, List.filter_map, List.map_map, lacking]
    rfl
  rw [fromSqueezed, fromSqueezed, functions, functions, map_squeezed_functionsFrom same]

end NotebookLint.MissingReturn
