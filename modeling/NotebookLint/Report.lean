import NotebookLint.Diagnostic

/-!
# Reports

Selecting, counting and grouping diagnostics.
-/

set_option autoImplicit false

namespace NotebookLint.Report

def atLeast (least : Severity) (diagnostics : List Diagnostic) : List Diagnostic :=
  diagnostics.filter fun diagnostic => diagnostic.severity.rank ≤ least.rank

def addToGroup {κ α : Type} [BEq κ] (key : κ) (value : α) : List (κ × List α) → List (κ × List α)
  | [] => [(key, [value])]
  | (other, values) :: groups =>
      if other == key then (other, values ++ [value]) :: groups
      else (other, values) :: addToGroup key value groups

/-- Groups values by key; groups and values keep the order in which they first occur. -/
def groupBy {κ α : Type} [BEq κ] (key : α → κ) (values : List α) : List (κ × List α) :=
  values.foldl (fun groups value => addToGroup (key value) value groups) []

def byCell (diagnostics : List Diagnostic) : List (Option Int × List Diagnostic) :=
  groupBy Diagnostic.cellIndex diagnostics

def byRule (diagnostics : List Diagnostic) : List (String × List Diagnostic) :=
  groupBy Diagnostic.rule diagnostics

structure Stats where
  total : Nat
  bySeverity : List (Severity × Nat)
  /-- In the order in which the rules first occur. -/
  byRule : List (String × Nat)
  deriving DecidableEq, Repr

def stats (diagnostics : List Diagnostic) : Stats where
  total := diagnostics.length
  bySeverity := Severity.all.map fun severity =>
    (severity, diagnostics.countP fun diagnostic => diagnostic.severity == severity)
  byRule := (Report.byRule diagnostics).map fun (rule, group) => (rule, group.length)

end NotebookLint.Report
