import NotebookLint.Proofs.NotebookRun
import NotebookLint.Rules.Builtin

/-! Rules that fail. A rule that fails on a cell, be it in its reports or in its names, takes no part
in linting that cell: apart from the log, the result is that of the other rules. So an engine lints a
notebook alike without the rules that fail on all of its cells. -/

set_option autoImplicit false

namespace NotebookLint

namespace Rule

/-- Whether a rule fails on a cell, in its reports or in its names. -/
def failsOn (request : Lint.Request) (rule : Rule) : Bool :=
  !(rule.check request.text request.offset request.context).isOk ||
    !(rule.definedNames request.text).isOk

/-- Whether the second list of rules is left when rules that are `removable` are taken out of the
first one, wherever they stand and be it all of them or not. -/
inductive Pruned (removable : Rule → Prop) : List Rule → List Rule → Prop where
  | nil : Pruned removable [] []
  | keep (rule : Rule) {rules kept : List Rule} (rest : Pruned removable rules kept) :
      Pruned removable (rule :: rules) (rule :: kept)
  | remove {rule : Rule} {rules kept : List Rule} (allowed : removable rule)
      (rest : Pruned removable rules kept) : Pruned removable (rule :: rules) kept

theorem Pruned.mono {removable weaker : Rule → Prop} {rules kept : List Rule}
    (pruned : Pruned removable rules kept) (implied : ∀ rule, removable rule → weaker rule) :
    Pruned weaker rules kept := by
  induction pruned with
  | nil => exact .nil
  | keep rule _ ih => exact .keep rule ih
  | remove allowed _ ih => exact .remove (implied _ allowed) ih

theorem pruned_filter (removable : Rule → Bool) (rules : List Rule) :
    Pruned (fun rule => removable rule = true) rules
      (rules.filter fun rule => !removable rule) := by
  induction rules with
  | nil => exact .nil
  | cons rule rest ih =>
      cases removed : removable rule with
      | true => simpa [removed] using Pruned.remove removed ih
      | false => simpa [removed] using Pruned.keep rule ih

end Rule

namespace Lint

/-- What running a rule gives is decided by whether it fails. -/
theorem runRule_cases (request : Request) (rule : Rule) :
    (rule.failsOn request = true ∧ ∃ fault, runRule request rule = .error fault) ∨
      (rule.failsOn request = false ∧ ∃ result, runRule request rule = .ok result) := by
  unfold runRule Rule.failsOn
  cases checked : rule.check request.text request.offset request.context with
  | error fault => exact .inl ⟨rfl, fault, rfl⟩
  | ok found =>
      cases named : rule.definedNames request.text with
      | error fault => exact .inl ⟨rfl, fault, rfl⟩
      | ok names => exact .inr ⟨rfl, _, rfl⟩

theorem runRules_cons_of_fails {request : Request} {rule : Rule}
    (fails : rule.failsOn request = true) (rest : List Rule) :
    runRules request (rule :: rest) =
      { runRules request rest with
        log := .ruleFailed rule.name request.cellIndex :: (runRules request rest).log } := by
  rcases runRule_cases request rule with ⟨-, fault, ran⟩ | ⟨succeeds, -⟩
  · simp only [runRules, ran]
  · rw [fails] at succeeds
    cases succeeds

theorem runRules_cons_of_succeeds {request : Request} {rule : Rule}
    (succeeds : rule.failsOn request = false) :
    ∃ found names, ∀ rest, runRules request (rule :: rest) =
      { runRules request rest with
        diagnostics := found ++ (runRules request rest).diagnostics
        defined := names ++ (runRules request rest).defined } := by
  rcases runRule_cases request rule with ⟨fails, -⟩ | ⟨-, ⟨found, names⟩, ran⟩
  · rw [succeeds] at fails
    cases fails
  · exact ⟨found, names, fun rest => by simp only [runRules, ran]⟩

/-- The log of a cell names the rules that fail on it, in their order, and nothing else. -/
theorem log_runRules (request : Request) (rules : List Rule) :
    (runRules request rules).log =
      (rules.filter (Rule.failsOn request)).map fun rule =>
        .ruleFailed rule.name request.cellIndex := by
  induction rules with
  | nil => rfl
  | cons rule rest ih =>
      cases outcome : rule.failsOn request with
      | true => simp [runRules_cons_of_fails outcome, outcome, ih]
      | false =>
          obtain ⟨found, names, ran⟩ := runRules_cons_of_succeeds outcome
          simp [ran, outcome, ih]

/-- Taking out rules that fail on a cell leaves its reports and its names as they are. -/
theorem runRules_of_pruned {request : Request} {rules kept : List Rule}
    (pruned : Rule.Pruned (fun rule => rule.failsOn request = true) rules kept) :
    (runRules request kept).diagnostics = (runRules request rules).diagnostics ∧
      (runRules request kept).defined = (runRules request rules).defined := by
  induction pruned with
  | nil => exact ⟨rfl, rfl⟩
  | @keep rule rules kept _ ih =>
      obtain ⟨diagnostics, defined⟩ := ih
      cases outcome : rule.failsOn request with
      | true =>
          rw [runRules_cons_of_fails outcome, runRules_cons_of_fails outcome]
          exact ⟨diagnostics, defined⟩
      | false =>
          obtain ⟨found, names, ran⟩ := runRules_cons_of_succeeds outcome
          rw [ran kept, ran rules, diagnostics, defined]
          exact ⟨rfl, rfl⟩
  | remove fails _ ih =>
      rw [runRules_cons_of_fails fails]
      exact ih

theorem cell_of_pruned {request : Request} {rules kept : List Rule}
    (pruned : Rule.Pruned (fun rule => rule.failsOn request = true) rules kept) :
    (cell kept request).diagnostics = (cell rules request).diagnostics ∧
      (cell kept request).defined = (cell rules request).defined := by
  obtain ⟨diagnostics, defined⟩ := runRules_of_pruned pruned
  exact ⟨congrArg (Suppression.apply request.text request.offset) diagnostics, defined⟩

/-- A run over cells is the same without rules that fail on every cell as it is put to them. The
names known so far are generalised, since the cells later in the run get more of them. -/
theorem cellsFrom_of_pruned {rules kept : List Rule} {known : KnownNames}
    {placed : List PlacedCell}
    (pruned : Rule.Pruned (fun rule =>
      ∀ request ∈ requestsFrom rules known placed, rule.failsOn request = true) rules kept) :
    (cellsFrom kept known placed).1.diagnostics = (cellsFrom rules known placed).1.diagnostics ∧
      (cellsFrom kept known placed).2 = (cellsFrom rules known placed).2 := by
  induction placed generalizing known with
  | nil => exact ⟨rfl, rfl⟩
  | cons head rest ih =>
      let request : Request := ⟨head.text, head.offset, known.toList, some head.index⟩
      have here : Rule.Pruned (fun rule => rule.failsOn request = true) rules kept :=
        pruned.mono fun rule fails => fails request List.mem_cons_self
      obtain ⟨diagnostics, defined⟩ := cell_of_pruned here
      obtain ⟨laterDiagnostics, laterKnown⟩ := ih (pruned.mono fun rule fails other member =>
        fails other (List.mem_cons_of_mem request member))
      simp only [cellsFrom]
      rw [diagnostics, defined, laterDiagnostics, laterKnown]
      exact ⟨rfl, rfl⟩

end Lint

namespace Engine

/-- Linting a cell gives what the rules give that do not fail on it, and the others are noted in the
log. Linting a notebook gives the same without any rules that fail on each of its cells. -/
theorem lint_without_failing (engine : Engine) :
    (∀ request : Lint.Request,
      engine.lintCell request =
        { ({ engine with
              rules := engine.rules.filter fun rule => !rule.failsOn request }).lintCell request with
          log := (engine.rules.filter (Rule.failsOn request)).map fun rule =>
            .ruleFailed rule.name request.cellIndex }) ∧
      ∀ (cells : List Cell) (kept : List Rule),
        Rule.Pruned (fun rule =>
            ∀ request ∈ Lint.requestsFrom engine.rules .empty (Cell.placed cells),
              rule.failsOn request = true) engine.rules kept →
          (({ engine with rules := kept }).lintNotebook cells).1.diagnostics =
              (engine.lintNotebook cells).1.diagnostics ∧
            (({ engine with rules := kept }).lintNotebook cells).2.known =
              (engine.lintNotebook cells).2.known := by
  constructor
  · intro request
    obtain ⟨diagnostics, defined⟩ :=
      Lint.cell_of_pruned (Rule.pruned_filter (Rule.failsOn request) engine.rules)
    have logged := Lint.log_runRules request engine.rules
    simp only [lintCell, diagnostics, defined, ← logged]
    rfl
  · intro cells kept pruned
    obtain ⟨diagnostics, known⟩ := Lint.cellsFrom_of_pruned pruned
    exact ⟨congrArg (stableSort Diagnostic.mayPrecede) diagnostics, known⟩

def failing (name message : String) : Rule where
  name := name
  check _ _ _ := .error (.failure message)
  definedNames _ := .ok []

/-- A rule that reports one problem in every cell and then fails to tell the names. -/
def failingNames (name message : String) : Rule where
  name := name
  check _ offset _ := .ok [⟨name, .other .info message, offset + 1, none, none, none⟩]
  definedNames _ := .error (.failure message)

/-- The rule that fails to tell its names has a report for every cell, and none of them is seen. A
rule that fails on one of the cells only has to stay. -/
theorem lint_without_failing_names :
    let memory := 1 <<< 37
    let names := (BuiltinRule.undefinedVariables true).toRule memory
    let wide := (BuiltinRule.indentationErrors BuiltinRule.tabWidthLimit).toRule memory
    let leaking := failingNames "leaking" "no names"
    let engine := start [failing "broken" "no reports", names, leaking, wide]
    let kept := [names, wide]
    let cells : List Cell := [⟨"y = x".toList, none⟩, ⟨[], none⟩]
    (Rule.Pruned (fun rule =>
          ∀ request ∈ Lint.requestsFrom engine.rules .empty (Cell.placed cells),
            rule.failsOn request = true) engine.rules kept ∧
        (engine.lintNotebook cells).1.diagnostics =
          [⟨"undefined_variables", .undefinedName ['x'], 1, some 5, some 0, some 1⟩]) ∧
      (({ engine with rules := kept }).lintNotebook cells).1.diagnostics =
          (engine.lintNotebook cells).1.diagnostics ∧
        (({ engine with rules := kept }).lintNotebook cells).2.known =
          (engine.lintNotebook cells).2.known := by
  intro memory names wide leaking engine kept cells
  have pruned : Rule.Pruned (fun rule =>
      ∀ request ∈ Lint.requestsFrom engine.rules .empty (Cell.placed cells),
        rule.failsOn request = true) engine.rules kept :=
    .remove (fun _ _ => rfl) (.keep names (.remove (fun _ _ => rfl) (.keep wide .nil)))
  exact ⟨⟨pruned, by decide +kernel⟩, (lint_without_failing engine).2 cells kept pruned⟩

end Engine

end NotebookLint
