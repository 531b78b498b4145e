import Mathlib.Data.List.Nodup
import NotebookLint.Proofs.FindingPlaces
import NotebookLint.Proofs.LineAssignments
import NotebookLint.Proofs.ReportPlaces

/-! Every bracket is accounted for. The bracket rule makes pairs of openers and closers of one kind
and reports what is left over. No bracket is in two pairs, reported twice, or both in a pair and
reported, and the pairs are properly nested. -/

set_option autoImplicit false

namespace NotebookLint.UnclosedBrackets

/-! ## The brackets of a text -/

namespace Bracket

/-- Whether a bracket comes before another one in the text of both. -/
def Before (left right : Bracket) : Prop :=
  left.line < right.line ∨ left.line = right.line ∧ left.column < right.column

/-- Whether a bracket stands in a text on its line and in its column. -/
def StandsIn (text : Text) (bracket : Bracket) : Prop :=
  (isOpener bracket.char || isCloser bracket.char) = true ∧
    ∃ row start, bracket.line = row + 1 ∧ bracket.column = start + 1 ∧
      (Text.lines text)[row]?.bind (·[start]?) = some bracket.char

/-- Whether a bracket stands in lines of which the first begins in the given column. -/
def HasPlace (line column : Nat) (lines : List Text) (bracket : Bracket) : Prop :=
  ∃ row start, bracket.line = line + row ∧
    bracket.column = (if row = 0 then column else 1) + start ∧
    lines[row]?.bind (·[start]?) = some bracket.char

theorem Before.asymm {left right : Bracket} (before : left.Before right) : ¬ right.Before left := by
  unfold Before at *
  omega

theorem Before.ne {left right : Bracket} (before : left.Before right) : left ≠ right := by
  rintro rfl
  exact before.asymm before

theorem hasPlace_break {line column : Nat} {lines : List Text} {bracket : Bracket} :
    bracket.HasPlace line column ([] :: lines) ↔ bracket.HasPlace (line + 1) 1 lines := by
  constructor
  · rintro ⟨row, start, onLine, inColumn, found⟩
    cases row with
    | zero => simp at found
    | succ row => exact ⟨row, start, by omega, by simpa using inColumn, by simpa using found⟩
  · rintro ⟨row, start, onLine, inColumn, found⟩
    exact ⟨row + 1, start, by omega, by simpa using inColumn, by simpa using found⟩

/-- The first character of a line has the given place, and all others keep theirs. -/
theorem hasPlace_cons {line column : Nat} {char : Char} {first : Text} {others : List Text}
    {bracket : Bracket} :
    bracket.HasPlace line column ((char :: first) :: others) ↔
      bracket = ⟨char, line, column⟩ ∨ bracket.HasPlace line (column + 1) (first :: others) := by
  constructor
  · rintro ⟨row, start, onLine, inColumn, found⟩
    cases row with
    | succ row => exact .inr ⟨row + 1, start, onLine, inColumn, found⟩
    | zero =>
        cases start with
        | zero =>
            left
            obtain ⟨_, _, _⟩ := bracket
            simp_all
        | succ start => exact .inr ⟨0, start, onLine, by simp at inColumn ⊢; omega, found⟩
  · rintro (rfl | ⟨row, start, onLine, inColumn, found⟩)
    · exact ⟨0, 0, rfl, rfl, rfl⟩
    · cases row with
      | succ row => exact ⟨row + 1, start, onLine, inColumn, found⟩
      | zero => exact ⟨0, start + 1, onLine, by simp at inColumn ⊢; omega, found⟩

end Bracket

/-- The brackets of a text whose first line begins in the given column. -/
theorem mem_bracketsFrom_iff {line column : Nat} {text : Text} {bracket : Bracket} :
    bracket ∈ bracketsFrom line column text ↔
      (isOpener bracket.char || isCloser bracket.char) = true ∧
        bracket.HasPlace line column (Text.lines text) := by
  induction text generalizing line column with
  | nil =>
      simp only [bracketsFrom, List.not_mem_nil, Text.lines_nil, false_iff, not_and]
      rintro - ⟨row, start, -, -, found⟩
      cases row <;> simp at found
  | cons char rest ih =>
      rw [bracketsFrom]
      by_cases isBreak : char = '\n'
      · subst isBreak
        rw [if_pos (beq_self_eq_true _), ih, Text.lines_cons_break, Bracket.hasPlace_break]
      · have visible : (char == '\n') = false := by simpa using isBreak
        obtain ⟨first, others, split⟩ := List.exists_cons_of_ne_nil (Text.lines_ne_nil rest)
        rw [visible, Text.lines_cons_of_ne isBreak, split, List.modifyHead_cons,
          Bracket.hasPlace_cons, ← split, and_or_left, ← ih]
        by_cases isBracket : (isOpener char || isCloser char) = true
        · rw [if_neg Bool.false_ne_true, if_pos isBracket, List.mem_cons]
          refine or_congr_left ⟨?_, And.right⟩
          rintro rfl
          exact ⟨isBracket, rfl⟩
        · rw [if_neg Bool.false_ne_true, if_neg isBracket]
          refine (or_iff_right ?_).symm
          rintro ⟨found, rfl⟩
          exact isBracket found

theorem mem_brackets_iff {source : Text} {bracket : Bracket} :
    bracket ∈ brackets source ↔ bracket.StandsIn (hideLiterals source) := by
  rw [brackets, mem_bracketsFrom_iff]
  simp only [Bracket.StandsIn, Bracket.HasPlace, ite_self, Nat.add_comm 1]

/-- Brackets are listed in the order of the text. -/
theorem pairwise_bracketsFrom (line column : Nat) (text : Text) :
    (bracketsFrom line column text).Pairwise Bracket.Before := by
  induction text generalizing line column with
  | nil => exact .nil
  | cons char rest ih =>
      rw [bracketsFrom]
      split
      · exact ih _ _
      · split
        · refine .cons ?_ (ih _ _)
          intro later member
          obtain ⟨-, row, start, onLine, inColumn, -⟩ := mem_bracketsFrom_iff.mp member
          change line < later.line ∨ line = later.line ∧ column < later.column
          cases row with
          | zero =>
              simp only [if_true] at inColumn
              omega
          | succ row => omega
        · exact ih _ _

/-! ## Matching -/

/-- Whether a finding names a bracket and has its place. -/
structure IsAbout (finding : Finding) (bracket : Bracket) : Prop where
  line : finding.line = bracket.line
  column : finding.column = some bracket.column
  named : finding.problem.offender? = some [bracket.char]

/-- How brackets that follow unclosed openers, innermost first, are put into pairs and reported. A
closer of the innermost opener's kind makes a pair with it. Any other closer is reported and leaves
the openers alone, and the openers that are left at the end are reported. -/
inductive Matching : (unclosed brackets : List Bracket) → (pairs : List (Bracket × Bracket)) →
    (reported : List Bracket) → Prop
  | done {unclosed : List Bracket} : Matching unclosed [] [] unclosed.reverse
  | opener {unclosed rest reported : List Bracket} {pairs : List (Bracket × Bracket)}
      {bracket : Bracket} (opens : isOpener bracket.char = true)
      (later : Matching (bracket :: unclosed) rest pairs reported) :
      Matching unclosed (bracket :: rest) pairs reported
  | pair {outer rest reported : List Bracket} {pairs : List (Bracket × Bracket)}
      {opener closer : Bracket} (kind : closerOf opener.char = closer.char)
      (later : Matching outer rest pairs reported) :
      Matching (opener :: outer) (closer :: rest) ((opener, closer) :: pairs) reported
  | report {unclosed rest reported : List Bracket} {pairs : List (Bracket × Bracket)}
      {closer : Bracket}
      (unmatched : ∀ opener ∈ unclosed.head?, closerOf opener.char ≠ closer.char)
      (later : Matching unclosed rest pairs reported) :
      Matching unclosed (closer :: rest) pairs (closer :: reported)

/-- The findings of the rule are about the brackets that matching reports. -/
theorem exists_matching (unclosed brackets : List Bracket) :
    ∃ pairs reported, Matching unclosed brackets pairs reported ∧
      List.Forall₂ IsAbout (matchFrom unclosed brackets) reported := by
  induction brackets generalizing unclosed with
  | nil =>
      refine ⟨[], unclosed.reverse, .done, ?_⟩
      rw [matchFrom, List.forall₂_map_left_iff, List.forall₂_same]
      exact fun opener _ => ⟨rfl, rfl, rfl⟩
  | cons bracket rest ih =>
      simp only [matchFrom]
      split
      · rename_i opens
        obtain ⟨pairs, reported, matching, about⟩ := ih (bracket :: unclosed)
        exact ⟨pairs, reported, .opener opens matching, about⟩
      · cases unclosed with
        | nil =>
            obtain ⟨pairs, reported, matching, about⟩ := ih []
            exact ⟨pairs, bracket :: reported, .report (by simp) matching,
              .cons ⟨rfl, rfl, rfl⟩ about⟩
        | cons opener outer =>
            dsimp only
            split
            · rename_i kind
              obtain ⟨pairs, reported, matching, about⟩ := ih outer
              exact ⟨(opener, bracket) :: pairs, reported, .pair (eq_of_beq kind) matching, about⟩
            · rename_i otherKind
              obtain ⟨pairs, reported, matching, about⟩ := ih (opener :: outer)
              have unmatched : ∀ innermost ∈ (opener :: outer).head?,
                  closerOf innermost.char ≠ bracket.char := by
                simpa using otherKind
              exact ⟨pairs, bracket :: reported, .report unmatched matching,
                .cons ⟨rfl, rfl, rfl⟩ about⟩

namespace Matching

variable {unclosed brackets reported : List Bracket} {pairs : List (Bracket × Bracket)}

/-- Matching neither loses nor repeats a bracket. -/
theorem perm (matching : Matching unclosed brackets pairs reported) :
    (pairs.flatMap (fun pair => [pair.1, pair.2]) ++ reported).Perm (unclosed ++ brackets) := by
  induction matching with
  | done =>
      rw [List.flatMap_nil, List.nil_append, List.append_nil]
      exact List.reverse_perm _
  | @opener unclosed rest _ _ bracket _ _ ih =>
      have moved : (unclosed ++ bracket :: rest).Perm (bracket :: (unclosed ++ rest)) :=
        List.perm_middle
      exact ih.trans moved.symm
  | @pair outer rest _ _ opener closer _ _ ih =>
      have moved : (outer ++ closer :: rest).Perm (closer :: (outer ++ rest)) := List.perm_middle
      exact ((ih.cons closer).cons opener).trans (moved.symm.cons opener)
  | @report unclosed rest _ _ closer _ _ ih =>
      have moved : (unclosed ++ closer :: rest).Perm (closer :: (unclosed ++ rest)) :=
        List.perm_middle
      exact (List.perm_middle.trans (ih.cons closer)).trans moved.symm

/-- A pair is an opener with a closer of its kind. -/
theorem closes_of_mem (matching : Matching unclosed brackets pairs reported)
    (openers : ∀ opener ∈ unclosed, isOpener opener.char = true) :
    ∀ pair ∈ pairs, isOpener pair.1.char = true ∧ pair.2.char = closerOf pair.1.char := by
  induction matching with
  | done => simp
  | opener opens _ ih => exact ih (List.forall_mem_cons.mpr ⟨opens, openers⟩)
  | pair kind _ ih =>
      obtain ⟨innermost, outer⟩ := List.forall_mem_cons.mp openers
      exact List.forall_mem_cons.mpr ⟨⟨innermost, kind.symm⟩, ih outer⟩
  | report _ _ ih => exact ih openers

/-- The closer of a pair comes from the text, and its opener may have been unclosed before. -/
theorem mem_of_mem (matching : Matching unclosed brackets pairs reported) :
    ∀ pair ∈ pairs, (pair.1 ∈ unclosed ∨ pair.1 ∈ brackets) ∧ pair.2 ∈ brackets := by
  induction matching with
  | done => simp
  | opener _ _ ih =>
      intro pair member
      obtain ⟨opener, closer⟩ := ih pair member
      refine ⟨?_, List.mem_cons_of_mem _ closer⟩
      simp only [List.mem_cons] at opener ⊢
      tauto
  | pair _ _ ih =>
      refine List.forall_mem_cons.mpr ⟨by simp, ?_⟩
      intro pair member
      obtain ⟨opener, closer⟩ := ih pair member
      exact ⟨opener.imp (List.mem_cons_of_mem _) (List.mem_cons_of_mem _),
        List.mem_cons_of_mem _ closer⟩
  | report _ _ ih =>
      intro pair member
      obtain ⟨opener, closer⟩ := ih pair member
      exact ⟨opener.imp_right (List.mem_cons_of_mem _), List.mem_cons_of_mem _ closer⟩

/-- Pairs are made in the order of their closers, and each opens before it closes and crosses no
other pair: what is between its brackets has been paired or reported when it is made. -/
theorem nested (matching : Matching unclosed brackets pairs reported)
    (ordered : (unclosed.reverse ++ brackets).Pairwise Bracket.Before) :
    (∀ pair ∈ pairs, pair.1.Before pair.2) ∧
      ∀ pair ∈ pairs, ∀ other ∈ pairs,
        ¬ (pair.1.Before other.1 ∧ other.1.Before pair.2 ∧ pair.2.Before other.2) := by
  induction matching with
  | done => simp
  | opener _ _ ih => exact ih (by simpa using ordered)
  | @pair outer rest _ later opener closer _ matching ih =>
      have split : (opener :: outer).reverse ++ closer :: rest =
          outer.reverse ++ opener :: closer :: rest := by simp
      rw [split, List.pairwise_append, List.pairwise_cons, List.pairwise_cons] at ordered
      obtain ⟨outerOrdered, ⟨afterOpener, afterCloser, restOrdered⟩, across⟩ := ordered
      have inside := ih (List.pairwise_append.mpr ⟨outerOrdered, restOrdered, fun first member
        second within => across first member second (by simp [within])⟩)
      have opensFirst : opener.Before closer := afterOpener closer (by simp)
      have known := matching.mem_of_mem
      refine ⟨List.forall_mem_cons.mpr ⟨opensFirst, inside.1⟩, ?_⟩
      -- The opener of a later pair is outside this one, and so is its closer.
      have opensOutside : ∀ pair ∈ later, ¬ (opener.Before pair.1 ∧ pair.1.Before closer) := by
        rintro pair member ⟨afterwards, before⟩
        rcases (known pair member).1 with isOuter | inRest
        · exact afterwards.asymm (across pair.1 (by simpa using isOuter) opener (by simp))
        · exact before.asymm (afterCloser pair.1 inRest)
      have closesOutside : ∀ pair ∈ later, ¬ pair.2.Before closer := fun pair member before =>
        before.asymm (afterCloser pair.2 (known pair member).2)
      rintro pair member other otherMember ⟨opensLater, opensBefore, closesLater⟩
      rcases List.mem_cons.mp member with rfl | isLater
      · rcases List.mem_cons.mp otherMember with rfl | otherLater
        · exact opensLater.ne rfl
        · exact opensOutside other otherLater ⟨opensLater, opensBefore⟩
      · rcases List.mem_cons.mp otherMember with rfl | otherLater
        · exact closesOutside pair isLater closesLater
        · exact inside.2 pair isLater other otherLater ⟨opensLater, opensBefore, closesLater⟩
  | @report unclosed rest _ _ closer _ _ ih =>
      refine ih (ordered.sublist ?_)
      exact (List.sublist_cons_self closer rest).append_left unclosed.reverse

end Matching

/-! ## Reports -/

namespace Bracket

/-- The place of a bracket decides which one it is. -/
theorem StandsIn.eq_of_place {text : Text} {left right : Bracket} (leftStands : left.StandsIn text)
    (rightStands : right.StandsIn text) (sameLine : left.line = right.line)
    (sameColumn : left.column = right.column) : left = right := by
  obtain ⟨-, leftRow, leftStart, leftLine, leftColumn, leftFound⟩ := leftStands
  obtain ⟨-, row, start, line, column, found⟩ := rightStands
  obtain rfl : leftRow = row := by omega
  obtain rfl : leftStart = start := by omega
  have sameChar : left.char = right.char := Option.some.inj (leftFound.symm.trans found)
  cases left
  cases right
  simp_all

/-- Whether a diagnostic has the place of a bracket, in a cell that begins `offset` lines into the
notebook. -/
def isPlaceOf (offset : Int) (bracket : Bracket) (diagnostic : Diagnostic) : Bool :=
  diagnostic.line == bracket.line + offset && diagnostic.column == some (bracket.column : Int)

end Bracket

/-- Pairs and diagnostics account for the brackets of a text. -/
structure Accounts (text : Text) (offset : Int) (pairs : List (Bracket × Bracket))
    (diagnostics : List Diagnostic) : Prop where
  /-- A bracket is either in one pair or has one diagnostic, and it has no more than that. -/
  once : ∀ bracket : Bracket, bracket.StandsIn text →
    (pairs.countP fun pair => pair.1 = bracket ∨ pair.2 = bracket) +
      diagnostics.countP (bracket.isPlaceOf offset) = 1
  paired : ∀ pair ∈ pairs, pair.1.StandsIn text ∧ pair.2.StandsIn text
  closes : ∀ pair ∈ pairs, isOpener pair.1.char = true ∧ pair.2.char = closerOf pair.1.char
  opensFirst : ∀ pair ∈ pairs, pair.1.Before pair.2
  uncrossed : ∀ pair ∈ pairs, ∀ other ∈ pairs,
    ¬ (pair.1.Before other.1 ∧ other.1.Before pair.2 ∧ pair.2.Before other.2)
  /-- Every diagnostic names a bracket and has its place. -/
  reported : ∀ diagnostic ∈ diagnostics, ∃ bracket : Bracket, bracket.StandsIn text ∧
    bracket.isPlaceOf offset diagnostic = true ∧
    diagnostic.problem.offender? = some [bracket.char]
  silent : diagnostics = [] ↔ text.Nested

/-- The number of pairs with a given bracket, if the two brackets of each pair differ. -/
theorem count_flatMap_pairs {pairs : List (Bracket × Bracket)}
    (differ : ∀ pair ∈ pairs, pair.1 ≠ pair.2) (bracket : Bracket) :
    (pairs.flatMap fun pair => [pair.1, pair.2]).count bracket =
      pairs.countP fun pair => pair.1 = bracket ∨ pair.2 = bracket := by
  induction pairs with
  | nil => rfl
  | cons pair rest ih =>
      obtain ⟨apart, others⟩ := List.forall_mem_cons.mp differ
      rw [List.flatMap_cons, List.count_append, ih others, List.countP_cons]
      by_cases first : pair.1 = bracket
      · have notSecond : pair.2 ≠ bracket := fun second => apart (first.trans second.symm)
        simp [first, notSecond, Nat.add_comm]
      · by_cases second : pair.2 = bracket
        · simp [first, second, Nat.add_comm]
        · simp [first, second]

/-- A bracket has as many diagnostics as it is reported times. -/
theorem countP_isPlaceOf {text : Text} {findings : List Finding} {reported : List Bracket}
    (about : List.Forall₂ IsAbout findings reported)
    (stand : ∀ bracket ∈ reported, bracket.StandsIn text) {bracket : Bracket}
    (stands : bracket.StandsIn text) (rule : String) (offset : Int) :
    (findings.map (Finding.toDiagnostic rule offset)).countP (bracket.isPlaceOf offset) =
      reported.count bracket := by
  induction about with
  | nil => rfl
  | @cons finding subject _ _ named _ ih =>
      obtain ⟨here, others⟩ := List.forall_mem_cons.mp stand
      have samePlace : bracket.isPlaceOf offset (finding.toDiagnostic rule offset) =
          (subject == bracket) := by
        rw [Bool.eq_iff_iff, beq_iff_eq]
        simp only [Bracket.isPlaceOf, Finding.toDiagnostic, named.line, named.column,
          Bool.and_eq_true, beq_iff_eq, Option.map_some, Option.some.injEq]
        constructor
        · rintro ⟨line, column⟩
          exact here.eq_of_place stands (by omega) (Int.ofNat.inj column)
        · rintro rfl
          exact ⟨rfl, rfl⟩
      rw [List.map_cons, List.countP_cons, List.count_cons, ih others, samePlace]

/-- The bracket rule accounts for every bracket of every cell. -/
theorem exists_accounts_of_check (memory : Nat) (source : Text) (offset : Int)
    (context : List Text) :
    ∃ pairs diagnostics,
      (BuiltinRule.unclosedBrackets.toRule memory).check source offset context = .ok diagnostics ∧
        Accounts (hideLiterals source) offset pairs diagnostics := by
  obtain ⟨pairs, reported, matching, about⟩ : ∃ pairs reported,
      Matching [] (brackets source) pairs reported ∧
        List.Forall₂ IsAbout (findings source) reported := exists_matching [] (brackets source)
  have ordered : (brackets source).Pairwise Bracket.Before := pairwise_bracketsFrom 1 1 _
  have listed := matching.perm
  rw [List.nil_append] at listed
  obtain ⟨opensFirst, uncrossed⟩ := matching.nested ordered
  have stand : ∀ bracket ∈ reported, bracket.StandsIn (hideLiterals source) := fun bracket member =>
    mem_brackets_iff.mp (listed.mem_iff.mp (List.mem_append_right _ member))
  refine ⟨pairs, (findings source).map (Finding.toDiagnostic "unclosed_brackets" offset), rfl, ?_⟩
  refine ⟨?_, ?_, matching.closes_of_mem (by simp), opensFirst, uncrossed, ?_, ?_⟩
  · intro bracket stands
    rw [← count_flatMap_pairs fun pair member => (opensFirst pair member).ne,
      countP_isPlaceOf about stand stands, ← List.count_append, listed.count_eq]
    have distinct : (brackets source).Nodup := ordered.imp Bracket.Before.ne
    exact List.nodup_iff_count_eq_one.mp distinct bracket (mem_brackets_iff.mpr stands)
  · intro pair member
    obtain ⟨opener, closer⟩ := matching.mem_of_mem pair member
    exact ⟨mem_brackets_iff.mp (opener.resolve_left List.not_mem_nil), mem_brackets_iff.mp closer⟩
  · intro diagnostic member
    obtain ⟨finding, found, rfl⟩ := List.mem_map.mp member
    obtain ⟨bracket, inText, line, column, named⟩ := exists_bracket_of_mem_matchFrom found
    refine ⟨bracket, mem_brackets_iff.mp inText, ?_, ?_⟩
    · simp [Bracket.isPlaceOf, Finding.toDiagnostic, line, column]
    · exact (Problem.offender?_shift offset finding.problem).trans named
  · rw [List.map_eq_nil_iff, findings, brackets, matchFrom_eq_nil_iff, List.map_nil,
      Text.nested_iff_closes]

end NotebookLint.UnclosedBrackets
