import Mathlib.Data.List.Forall2
import NotebookLint.Proofs.CellReports

/-! What the line offset of a cell does to the reports on it. It is added to the line of every report
and to every line that a message cites. The names of the cell, the choice and the order of its
reports, their places in the cell and what its comments suppress do not depend on it. -/

set_option autoImplicit false

namespace NotebookLint

namespace Problem

def citedLine? : Problem → Option Int
  | .repeatedDefinition _ _ firstLine => some firstLine
  | .repeatedImport _ firstLine => some firstLine
  | .redefinesVariable _ _ previousLine => some previousLine
  | _ => none

def citingPhrases : List String :=
  ["first defined at line ", "first imported at line ", "previously at line "]

/-- Whether two messages are the same but for the line that each of them cites. -/
def CiteLines (message other : String) (line otherLine : Int) : Prop :=
  ∃ beginning, ∃ phrase ∈ citingPhrases,
    message = beginning ++ phrase ++ toString line ++ ")" ∧
      other = beginning ++ phrase ++ toString otherLine ++ ")"

theorem shift_of_uncited {problem : Problem} (uncited : problem.citedLine? = none) (lines : Int) :
    problem.shift lines = problem := by
  cases problem
  case repeatedDefinition => cases uncited
  case repeatedImport => cases uncited
  case redefinesVariable => cases uncited
  all_goals rfl

theorem shift_zero (problem : Problem) : problem.shift 0 = problem := by
  cases problem
  case repeatedDefinition => simp [shift]
  case repeatedImport => simp [shift]
  case redefinesVariable => simp [shift]
  all_goals rfl

private theorem citeLines_of_phrase {written opening phrase : String}
    (listed : phrase ∈ citingPhrases) (split : written = opening ++ phrase) (beginning : String)
    (line other : Int) :
    CiteLines (beginning ++ written ++ toString line ++ ")")
      (beginning ++ written ++ toString other ++ ")") line other := by
  refine ⟨beginning ++ opening, phrase, listed, ?_, ?_⟩
  · rw [split, ← String.append_assoc]
  · rw [split, ← String.append_assoc]

/-- Shifting a problem rewrites the line that its message cites, and nothing else of it. -/
theorem citeLines_shift {problem : Problem} {line : Int} (cites : problem.citedLine? = some line)
    (lines : Int) :
    CiteLines problem.message (problem.shift lines).message line (line + lines) := by
  cases problem <;> cases cites
  case repeatedDefinition kind name =>
      have split : " (first defined at line " = " (" ++ "first defined at line " := by decide
      exact citeLines_of_phrase (by simp [citingPhrases]) split
        ("Duplicate " ++ kind.label ++ " name " ++ inQuotes name) line (line + lines)
  case repeatedImport name =>
      have split : " (first imported at line " = " (" ++ "first imported at line " := by decide
      exact citeLines_of_phrase (by simp [citingPhrases]) split
        ("Duplicate import of " ++ inQuotes name) line (line + lines)
  case redefinesVariable kind name =>
      have split : " redefines variable (previously at line " =
          " redefines variable (" ++ "previously at line " := by decide
      exact citeLines_of_phrase (by simp [citingPhrases]) split
        (kind.title ++ " " ++ inQuotes name) line (line + lines)

end Problem

namespace Diagnostic

/-- Whether a report differs from another one by lying the given number of lines below it. Lines
within its cell are the same, and a line that its message cites is moved with it. -/
structure MovedBy (lines : Int) (diagnostic moved : Diagnostic) : Prop where
  line : moved.line = diagnostic.line + lines
  rule : moved.rule = diagnostic.rule
  severity : moved.severity = diagnostic.severity
  column : moved.column = diagnostic.column
  cellLine : moved.cellLine = diagnostic.cellLine
  cellIndex : moved.cellIndex = diagnostic.cellIndex
  uncited : diagnostic.problem.citedLine? = none → moved.message = diagnostic.message
  cited : ∀ line, diagnostic.problem.citedLine? = some line →
    Problem.CiteLines diagnostic.message moved.message line (line + lines)

end Diagnostic

/-- Suppressions are counted from the beginning of the cell, so they move with the reports. -/
theorem Suppression.silences_of_movedBy (suppressions : Suppressions) {lines : Int}
    {diagnostic moved : Diagnostic} (translated : diagnostic.MovedBy lines moved) :
    suppressions.silences lines moved = suppressions.silences 0 diagnostic := by
  have sameLine : ∀ number : Nat,
      (moved.line == number + lines) = (diagnostic.line == number + 0) := by
    intro number
    have below := translated.line
    rw [Bool.eq_iff_iff, beq_iff_eq, beq_iff_eq]
    omega
  simp only [Suppressions.silences, translated.rule, sameLine]

/-- The offset of a cell moves what is found in it, and places it in the cell as before. -/
theorem RuleFinding.movedBy_place (offset : Int) (cellIndex : Option Int) (found : RuleFinding) :
    (found.place 0 cellIndex).MovedBy offset (found.place offset cellIndex) := by
  obtain ⟨rule, problem, line, column⟩ := found
  constructor
  case line => simp [place, Diagnostic.placeIn, Finding.toDiagnostic]
  case severity =>
      simp [place, Diagnostic.placeIn, Finding.toDiagnostic, Diagnostic.severity,
        Problem.severity_shift]
  case cellLine => simp [place, Diagnostic.placeIn, Finding.toDiagnostic]
  case uncited =>
      intro uncited
      simp only [place, Diagnostic.placeIn, Finding.toDiagnostic, Diagnostic.message,
        Problem.shift_zero] at uncited ⊢
      rw [Problem.shift_of_uncited uncited]
  case cited =>
      intro line cites
      simp only [place, Diagnostic.placeIn, Finding.toDiagnostic, Diagnostic.message,
        Problem.shift_zero] at cites ⊢
      exact Problem.citeLines_shift cites offset
  all_goals rfl

namespace Engine

/-- A cell at an offset gets the reports that it gets at the beginning of a notebook, in the same
order and each moved down by the offset. It makes the same names known, and its comments suppress
the same of the reports that its rules make. -/
theorem lintCell_offset (memory : Nat) (rules : List BuiltinRule) (text : Text)
    (context : List Text) (cellIndex : Option Int) (offset : Int) :
    let engine := start (rules.map (BuiltinRule.toRule memory))
    let request : Int → Lint.Request := fun lines => ⟨text, lines, context, cellIndex⟩
    (engine.lintCell (request offset)).defined = (engine.lintCell (request 0)).defined ∧
      List.Forall₂ (Diagnostic.MovedBy offset) (engine.lintCell (request 0)).diagnostics
        (engine.lintCell (request offset)).diagnostics ∧
      List.Forall₂ (fun diagnostic moved => diagnostic.MovedBy offset moved ∧
          (Suppression.ofSource text).silences offset moved =
            (Suppression.ofSource text).silences 0 diagnostic)
        (Lint.runRules (request 0) engine.rules).diagnostics
        (Lint.runRules (request offset) engine.rules).diagnostics := by
  intro engine request
  refine ⟨?_, ?_, ?_⟩
  · calc (engine.lintCell (request offset)).defined
      _ = Lint.namesIn memory rules text := Lint.defined_cell memory rules (request offset)
      _ = (engine.lintCell (request 0)).defined := (Lint.defined_cell memory rules (request 0)).symm
  · have reported := fun lines => Lint.diagnostics_cell memory rules (request lines)
    simp only [lintCell, engine, start, reported]
    rw [List.forall₂_map_left_iff, List.forall₂_map_right_iff, List.forall₂_same]
    intro found _
    exact found.movedBy_place offset cellIndex
  · have reported := fun lines => (Lint.runRules_toRule memory (request lines) rules).1
    simp only [engine, start, reported]
    rw [List.forall₂_map_left_iff, List.forall₂_map_right_iff, List.forall₂_same]
    intro found _
    have moved := found.movedBy_place offset cellIndex
    exact ⟨moved, Suppression.silences_of_movedBy _ moved⟩

example :
    let request : Lint.Request :=
      ⟨"def f(): 1\ndef f(): 2\ndef f(): 3  # cellint: noqa".toList, -5, [], none⟩
    ((start [BuiltinRule.duplicateFunctions.toRule (1 <<< 37)]).lintCell request).diagnostics.map
        (fun diagnostic => (diagnostic.line, diagnostic.cellLine, diagnostic.message)) =
      [(-3, some 2, "Duplicate function name 'f' (first defined at line -4)")] := by
  decide +kernel

end Engine

end NotebookLint
