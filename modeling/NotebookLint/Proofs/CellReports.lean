import NotebookLint.Engine.Lint
import NotebookLint.Rules.Builtin

/-! What the built-in rules report on a cell, apart from the place of the cell in its notebook. The
offset and the index of a cell place its findings and decide nothing else: not what is found, not
what is suppressed, and not which names the cell makes known. -/

set_option autoImplicit false

namespace NotebookLint

theorem Problem.severity_shift (lines : Int) (problem : Problem) :
    (problem.shift lines).severity = problem.severity := by
  cases problem <;> rfl

/-- A finding under the name of the rule that made it. -/
structure RuleFinding where
  rule : String
  finding : Finding
  deriving DecidableEq, Repr

namespace RuleFinding

/-- The finding as it is reported on a cell with the given offset and index. -/
def place (offset : Int) (cellIndex : Option Int) (found : RuleFinding) : Diagnostic :=
  (found.finding.toDiagnostic found.rule offset).placeIn found.rule offset cellIndex

@[simp] theorem cellIndex_place (offset : Int) (cellIndex : Option Int) (found : RuleFinding) :
    (found.place offset cellIndex).cellIndex = cellIndex := rfl

/-- Whether suppressions hide a finding. -/
def isHidden (suppressions : Suppression.Suppressions) (found : RuleFinding) : Bool :=
  suppressions.cell.any (Coverage.covers found.rule) ||
    suppressions.lines.any fun entry =>
      found.finding.line == entry.1 && entry.2.covers found.rule

theorem silences_place (suppressions : Suppression.Suppressions) (offset : Int)
    (cellIndex : Option Int) (found : RuleFinding) :
    suppressions.silences offset (found.place offset cellIndex) = found.isHidden suppressions := by
  have sameLine : ∀ line : Nat,
      ((found.finding.line : Int) + offset == line + offset) = (found.finding.line == line) := by
    intro line
    rw [Bool.eq_iff_iff, beq_iff_eq, beq_iff_eq]
    omega
  simp only [Suppression.Suppressions.silences, place, Diagnostic.placeIn, Finding.toDiagnostic,
    sameLine, isHidden]

end RuleFinding

namespace BuiltinRule

/-- What a rule finds in a cell, which is nothing if it cannot check it. -/
def foundIn (memory : Nat) (text : Text) (context : List Text) (rule : BuiltinRule) :
    List RuleFinding :=
  if (rule.fault? memory text).isSome then []
  else (rule.findings text context).map (RuleFinding.mk rule.name)

/-- The names that a rule makes known, which are none if it cannot check the cell. -/
def knownFrom (memory : Nat) (text : Text) (rule : BuiltinRule) : List Text :=
  if (rule.fault? memory text).isSome then [] else rule.definedNames text

theorem runRule_toRule (memory : Nat) (request : Lint.Request) (rule : BuiltinRule) :
    (∃ fault, Lint.runRule request (rule.toRule memory) = .error fault ∧
        rule.foundIn memory request.text request.context = [] ∧
        rule.knownFrom memory request.text = []) ∨
      Lint.runRule request (rule.toRule memory) =
        .ok ((rule.foundIn memory request.text request.context).map
            (RuleFinding.place request.offset request.cellIndex),
          rule.knownFrom memory request.text) := by
  cases faulty : rule.fault? memory request.text with
  | some fault =>
      left
      refine ⟨fault, ?_, ?_, ?_⟩
      · simp [Lint.runRule, toRule, faulty, bind, Except.bind]
      · simp [foundIn, faulty]
      · simp [knownFrom, faulty]
  | none =>
      right
      simp only [Lint.runRule, toRule, faulty, bind, Except.bind, pure, Except.pure, foundIn,
        knownFrom, Option.isSome_none, Bool.false_eq_true, if_false, List.map_map]
      rfl

end BuiltinRule

namespace Lint

/-- What rules find in a cell and its comments do not suppress. -/
def reports (memory : Nat) (rules : List BuiltinRule) (text : Text) (context : List Text) :
    List RuleFinding :=
  (rules.flatMap (BuiltinRule.foundIn memory text context)).filter fun found =>
    !found.isHidden (Suppression.ofSource text)

def namesIn (memory : Nat) (rules : List BuiltinRule) (text : Text) : List Text :=
  rules.flatMap (BuiltinRule.knownFrom memory text)

/-- Before suppressions, the reports on a cell are what its rules find in it. -/
theorem runRules_toRule (memory : Nat) (request : Request) (rules : List BuiltinRule) :
    (runRules request (rules.map (BuiltinRule.toRule memory))).diagnostics =
        (rules.flatMap (BuiltinRule.foundIn memory request.text request.context)).map
          (RuleFinding.place request.offset request.cellIndex) ∧
      (runRules request (rules.map (BuiltinRule.toRule memory))).defined =
        namesIn memory rules request.text := by
  induction rules with
  | nil => exact ⟨rfl, rfl⟩
  | cons rule rest ih =>
      obtain ⟨diagnostics, names⟩ := ih
      simp only [namesIn] at names ⊢
      rw [List.map_cons, List.flatMap_cons, List.flatMap_cons, runRules]
      rcases rule.runRule_toRule memory request with ⟨fault, failed, nothing, noNames⟩ | ran
      · rw [failed, nothing, noNames]
        exact ⟨diagnostics, names⟩
      · rw [ran]
        exact ⟨by rw [List.map_append, ← diagnostics], by rw [← names]⟩

/-- The reports on a cell are its findings, each placed by the offset and the index of the cell. -/
theorem diagnostics_cell (memory : Nat) (rules : List BuiltinRule) (request : Request) :
    (cell (rules.map (BuiltinRule.toRule memory)) request).diagnostics =
      (reports memory rules request.text request.context).map
        (RuleFinding.place request.offset request.cellIndex) := by
  simp only [cell, Suppression.apply, (runRules_toRule memory request rules).1,
    List.filter_map, reports]
  congr 2
  funext found
  simp only [Function.comp_apply, RuleFinding.silences_place]

/-- The names that a cell makes known depend on its text alone. -/
theorem defined_cell (memory : Nat) (rules : List BuiltinRule) (request : Request) :
    (cell (rules.map (BuiltinRule.toRule memory)) request).defined =
      namesIn memory rules request.text :=
  (runRules_toRule memory request rules).2

end Lint

end NotebookLint
