import NotebookLint.Definitions.Scope
import NotebookLint.Imports.Binding
import NotebookLint.Names.Usage
import NotebookLint.Proofs.Spacing

/-! Imports and definitions are blind to spacing: an import statement binds the same names and a
header defines the same function or class in the normal form of its lines. -/

set_option autoImplicit false

namespace NotebookLint

open Text

namespace Import

/-! ## Headers -/

theorem fromHeader?_squeeze (line : Text) :
    fromHeader? (squeeze line) = (fromHeader? line).map (Prod.map id squeeze) := by
  simp only [fromHeader?, trimLeft_squeeze,
    afterGap_squeeze "from".toList (by decide)]
  cases (after? "from".toList (trimLeft line)).bind gap? with
  | none => rfl
  | some rest =>
      have module : (squeeze rest).takeWhile (fun char => !isBlank char) =
          rest.takeWhile fun char => !isBlank char := takeWhile_squeeze_of_stops _ rfl rest
      simp only [Option.map_some, Option.bind_eq_bind, Option.bind_some, module, dropWhile_squeeze,
        gap?_squeeze]
      split
      · rfl
      · cases gap? (rest.dropWhile fun char => !isBlank char) with
        | none => rfl
        | some following =>
            simp only [Option.map_some, Option.bind_some,
              afterGap_squeeze "import".toList (by decide)]
            cases (after? "import".toList following).bind gap? <;> rfl

theorem plainHeader?_squeeze (line : Text) :
    plainHeader? (squeeze line) = (plainHeader? line).map squeeze := by
  rw [plainHeader?, plainHeader?, trimLeft_squeeze, afterGap_squeeze _ (by decide)]

/-! ## Member lists -/

private theorem throughParenthesis_map_squeeze (following : List Text) :
    throughParenthesis (following.map squeeze) = (throughParenthesis following).map squeeze := by
  induction following with
  | nil => rfl
  | cons line rest ih =>
      rw [List.map_cons, throughParenthesis, throughParenthesis, contains_squeeze, ih]
      split <;> rfl

private theorem dropLast_trimRight_squeeze {piece : Text}
    (continues : endsWithBackslash piece = true) :
    (trimRight (squeeze piece)).dropLast = squeeze (trimRight piece).dropLast := by
  have last : (piece.reverse.dropWhile isBlank).head? = some '\\' := by
    simpa [endsWithBackslash, lastVisible?] using continues
  obtain ⟨before, split⟩ := List.head?_eq_some_iff.mp last
  have ends : trimRight piece = before.reverse ++ ['\\'] := by
    rw [trimRight, split, List.reverse_cons]
  rw [trimRight_squeeze, ends, squeeze_concat (fun same => absurd same (by decide)),
    List.dropLast_concat,
    List.dropLast_concat]

private theorem backslashPieces_map_squeeze (piece : Text) (following : List Text) :
    backslashPieces (squeeze piece) (following.map squeeze) =
      (backslashPieces piece following).map squeeze := by
  induction following generalizing piece with
  | nil => rfl
  | cons next rest ih =>
      rw [List.map_cons, backslashPieces, backslashPieces, endsWithBackslash_squeeze]
      split
      · rename_i continues
        rw [dropLast_trimRight_squeeze continues, ih, List.map_cons]
      · rfl

private theorem squeeze_memberList (list : Text) (following : List Text) :
    squeeze (memberList (squeeze list) (following.map squeeze)) =
      squeeze (memberList list following) := by
  have idempotent : squeeze ∘ squeeze = squeeze := funext squeeze_squeeze
  rw [memberList, memberList, trimLeft_squeeze, head?_squeeze, contains_squeeze,
    throughParenthesis_map_squeeze, backslashPieces_map_squeeze]
  split
  · exact squeeze_join_congr [' '] (by simp [idempotent])
  · exact squeeze_join_congr [' '] (by simp [idempotent])

/-- A member list with spaces for its parentheses. -/
private def bareList (list : Text) : Text :=
  list.map fun char => if char == '(' || char == ')' then ' ' else char

private theorem squeeze_bareList_squeeze (list : Text) :
    squeeze (bareList (squeeze list)) = squeeze (bareList list) := by
  induction list using squeeze_induction with
  | nil => rfl
  | double rest ih =>
      rw [squeeze_double, ih]
      simp [bareList]
  | single char rest apart ih =>
      rw [squeeze_cons apart]
      exact squeeze_cons_congr _ ih

private theorem map_squeeze_members (list : Text) :
    (members (squeeze list)).map squeeze = (members list).map squeeze := by
  have trimmed : squeeze ∘ trim = trim ∘ squeeze := funext fun text => (trim_squeeze text).symm
  have pieces : ∀ text, (splitOn ',' text).map (squeeze ∘ trim) =
      ((splitOn ',' (squeeze text)).map squeeze).map trim := by
    intro text
    rw [map_squeeze_splitOn (by decide), trimmed, List.map_map]
  calc (members (squeeze list)).map squeeze
    _ = (splitOn ',' (bareList (squeeze list))).map (squeeze ∘ trim) := by
        rw [members, List.map_map]
        rfl
    _ = (splitOn ',' (bareList list)).map (squeeze ∘ trim) := by
        rw [pieces, squeeze_bareList_squeeze, ← pieces]
    _ = (members list).map squeeze := by
        rw [members, List.map_map]
        rfl

/-! ## Members -/

private theorem alias?_squeeze (rest : Text) : alias? (squeeze rest) = alias? rest := by
  simp only [alias?, isEmpty_squeeze, gap?_squeeze, Option.bind_eq_bind, Option.bind_assoc]
  split
  · rfl
  · apply bind_map_squeeze
    intro start
    rw [after?_squeeze _ (by decide)]
    apply bind_map_squeeze
    intro following
    rw [gap?_squeeze]
    apply bind_map_squeeze
    intro named
    apply bind_name?_squeeze
    intro name ending
    rw [isEmpty_squeeze]

private theorem memberName?_squeeze (member : Text) :
    memberName? (squeeze member) = memberName? member := by
  simp only [memberName?, Option.bind_eq_bind]
  apply bind_name?_squeeze
  intro name rest
  rw [alias?_squeeze]

private theorem moduleName?_squeeze (member : Text) :
    moduleName? (squeeze member) = moduleName? member := by
  have module := takeWhile_squeeze_of_stops
    (fun char => isWordChar char || char == '.') rfl member
  simp only [moduleName?, head?_squeeze, module, dropWhile_squeeze, alias?_squeeze]

/-- What is read from the members of a list does not depend on its spacing. -/
private theorem filterMap_members_congr {read : Text → Option ImportBinding}
    (blind : ∀ member, read (squeeze member) = read member) {list other : Text}
    (same : squeeze list = squeeze other) :
    (members list).filterMap read = (members other).filterMap read := by
  have readSqueezed : read ∘ squeeze = read := funext blind
  have fromNormalForm : ∀ list, (members list).filterMap read =
      ((members (squeeze list)).map squeeze).filterMap read := by
    intro list
    rw [map_squeeze_members, List.filterMap_map, readSqueezed]
  rw [fromNormalForm, same, ← fromNormalForm]

/-- The bindings of a line with the given number and blanked text. -/
private def bindings (number : Nat) (clean : Text) (following : List Text) : List ImportBinding :=
  lineBindings ⟨number, [], clean, false, none⟩ following

private theorem bindings_squeeze (number : Nat) (clean : Text) (following : List Text) :
    bindings number (squeeze clean) (following.map squeeze) = bindings number clean following := by
  simp only [bindings, lineBindings, fromHeader?_squeeze, plainHeader?_squeeze]
  cases fromHeader? clean with
  | some header =>
      apply filterMap_members_congr _ (squeeze_memberList header.2 following)
      intro member
      by_cases star : member = ['*']
      · rw [star]
        rfl
      · have notStar : squeeze member ≠ ['*'] := fun same =>
          star ((squeeze_eq_iff (by decide)).mp same)
        simp only [beq_iff_eq, star, notStar, if_false, memberName?_squeeze]
  | none =>
      cases plainHeader? clean with
      | none => rfl
      | some list =>
          exact filterMap_members_congr (fun member => by rw [moduleName?_squeeze])
            (squeeze_squeeze list)

/-- Lines with the same number and the same normal form bind the same names, before lines of the
same normal forms. -/
theorem lineBindings_congr {left right : SourceLine} (number : left.number = right.number)
    (clean : squeeze left.clean = squeeze right.clean) {leftFollowing rightFollowing : List Text}
    (following : leftFollowing.map squeeze = rightFollowing.map squeeze) :
    lineBindings left leftFollowing = lineBindings right rightFollowing := by
  change bindings left.number left.clean _ = bindings right.number right.clean _
  rw [← bindings_squeeze, number, clean, following, bindings_squeeze]

end Import

/-! ## Definitions -/

namespace Definition

theorem function?_squeeze (line : Text) : function? (squeeze line) = function? line := by
  simp only [function?, trimLeft_squeeze, Option.bind_eq_bind,
    afterGap_squeeze "async".toList (by decide), Option.getD_map, Option.isSome_map,
    afterGap_squeeze "def".toList (by decide)]
  apply bind_map_squeeze
  intro rest
  apply bind_name?_squeeze
  intro name following
  rw [trimLeft_squeeze, char?_squeeze _ (by decide)]
  exact bind_map_squeeze (fun _ => rfl) _

theorem class?_squeeze (line : Text) : class? (squeeze line) = class? line := by
  simp only [class?, trimLeft_squeeze, Option.bind_eq_bind,
    afterGap_squeeze "class".toList (by decide)]
  apply bind_map_squeeze
  intro rest
  apply bind_name?_squeeze
  intro name following
  rw [trimLeft_squeeze, head?_squeeze]

@[simp] theorem ofLine?_squeeze (number : Nat) (line : Text) :
    ofLine? number (squeeze line) = ofLine? number line := by
  rw [ofLine?, ofLine?, function?_squeeze, class?_squeeze]

@[simp] theorem decorator?_squeeze (line : Text) : decorator? (squeeze line) = decorator? line := by
  simp only [decorator?, trimLeft_squeeze, char?_squeeze '@' (by decide)]
  cases char? '@' (trimLeft line) with
  | none => rfl
  | some rest =>
      have name := takeWhile_squeeze_of_stops
        (fun char => isWordChar char || char == '.') rfl (trimLeft rest)
      simp only [Option.map_some, Option.bind_eq_bind, Option.bind_some, trimLeft_squeeze, name]

end Definition

@[simp] theorem Names.startsImport_squeeze (line : Text) :
    startsImport (squeeze line) = startsImport line := by
  simp only [startsImport, trimLeft_squeeze,
    afterGap_squeeze "import".toList (by decide),
    afterGap_squeeze "from".toList (by decide), Option.isSome_map]

end NotebookLint
