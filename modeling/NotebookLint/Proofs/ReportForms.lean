import NotebookLint.Command.Check
import NotebookLint.Proofs.Sorting

/-! The two forms of a report. What a JSON report says can be read back: its entries describe the
lines of the text report, in the same order, and its counts are those of the run. -/

set_option autoImplicit false

namespace NotebookLint.Command

open File (Path)

/-- The text line that an entry for a file describes. -/
def describedLine? (file : Text) (entry : Json) : Option String := do
  let cell ← entry.member? "cellIndex"
  let line ← entry.member? "cellLine"
  let rule ← (entry.member? "rule").bind Json.text?
  let severity ← (entry.member? "severity").bind Json.text?
  let message ← (entry.member? "message").bind Json.text?
  let number (value : Json) := (value.integer?.map toString).getD "None"
  let place := s!"{String.ofList file}:cell {number cell}:line {number line}"
  pure s!"{place}: {String.ofList rule} {String.ofList severity} {String.ofList message}"

/-- The text lines that a JSON report describes, file by file. -/
def describedLines (report : Json) : List String :=
  match report.member? "files" with
  | some (.object files) => files.flatMap fun (file, entries) =>
      match entries with
      | .array items => items.filterMap (describedLine? file)
      | _ => []
  | _ => []

/-- The counts of an object, each with its key. -/
def countsIn : Json → List (String × Int)
  | .object members => members.filterMap fun (key, count) =>
      count.integer?.map fun value => (String.ofList key, value)
  | _ => []

/-- The lines about counts that a JSON report describes. -/
def describedCounts (report : Json) : List String :=
  let lines? : Option (List String) := do
    let stats ← report.member? "stats"
    let total ← (stats.member? "total").bind Json.integer?
    let severities ← stats.member? "bySeverity"
    let rules ← stats.member? "byRule"
    let summary := ", ".intercalate
      ((countsIn severities).map fun (label, count) => s!"{count} {label}")
    pure (s!"{total} diagnostics ({summary})" ::
      (countsIn rules).map fun (rule, count) => s!"  {rule}: {count}")
  lines?.getD []

theorem describedLine?_jsonDiagnostic (path : Path) (diagnostic : Diagnostic) :
    describedLine? path.toText (jsonDiagnostic diagnostic) = some (textLine path diagnostic) := by
  have number (value : Option Int) : (jsonNumber value).integer? = value := by
    cases value <;> rfl
  have cell : (jsonDiagnostic diagnostic).member? "cellIndex" =
      some (jsonNumber diagnostic.cellIndex) := rfl
  have line : (jsonDiagnostic diagnostic).member? "cellLine" =
      some (jsonNumber diagnostic.cellLine) := rfl
  have rule : (jsonDiagnostic diagnostic).member? "rule" =
      some (.string diagnostic.rule.toList) := rfl
  have severity : (jsonDiagnostic diagnostic).member? "severity" =
      some (.string diagnostic.severity.label.toList) := rfl
  have message : (jsonDiagnostic diagnostic).member? "message" =
      some (.string diagnostic.message.toList) := rfl
  simp [describedLine?, textLine, cell, line, rule, severity, message, number, Json.text?]

private theorem member?_files (withStats : Bool) (results : List FileResult) :
    (jsonReport withStats results).member? "files" =
      some (.object (results.filterMap fun result =>
        result.diagnostics.map fun diagnostics =>
          (result.path.toText, .array (diagnostics.map jsonDiagnostic)))) := by
  cases withStats <;> rfl

/-- The entries of a JSON report describe the lines of the text report, in the same order. -/
theorem describedLines_jsonReport (withStats : Bool) (results : List FileResult) :
    describedLines (jsonReport withStats results) = textReport false results := by
  have described (path : Path) (diagnostics : List Diagnostic) :
      (diagnostics.map jsonDiagnostic).filterMap (describedLine? path.toText) =
        diagnostics.map (textLine path) := by
    have each : describedLine? path.toText ∘ jsonDiagnostic =
        fun diagnostic => some (textLine path diagnostic) :=
      funext (describedLine?_jsonDiagnostic path)
    rw [List.filterMap_map, each, List.filterMap_eq_map']
  simp only [describedLines, member?_files, textReport, Bool.false_eq_true, if_false,
    List.append_nil]
  induction results with
  | nil => rfl
  | cons result rest ih =>
      cases loaded : result.diagnostics with
      | none => simp [loaded, FileResult.reported, ih]
      | some diagnostics => simp [loaded, FileResult.reported, ih, described]

/-- The counts of a JSON report are those of the text report, the rules perhaps in another order. -/
theorem describedCounts_jsonReport (results : List FileResult) :
    (statsLines (Report.stats (results.flatMap FileResult.reported))).Perm
      (describedCounts (jsonReport true results)) := by
  generalize counted : Report.stats (results.flatMap FileResult.reported) = stats
  have isStats : (jsonReport true results).member? "stats" = some (jsonStats stats) := by
    rw [← counted]
    rfl
  have total : (jsonStats stats).member? "total" = some (.integer stats.total) := rfl
  have severities : (jsonStats stats).member? "bySeverity" =
      some (.object (stats.bySeverity.map fun entry =>
        (entry.1.label.toList, .integer entry.2))) := rfl
  have rules : (jsonStats stats).member? "byRule" =
      some (.object (stats.byRule.map fun entry => (entry.1.toList, .integer entry.2))) := rfl
  have shown (count : Nat) : toString (count : Int) = toString count := rfl
  have read : describedCounts (jsonReport true results) =
      (statsLines stats).head (List.cons_ne_nil _ _) ::
        stats.byRule.map fun entry => s!"  {entry.1}: {entry.2}" := by
    simp only [describedCounts, isStats, total, severities, rules, countsIn, Json.integer?, shown,
      List.filterMap_map, Function.comp_def, Option.bind_eq_bind, Option.bind_some, Option.map_some,
      Option.pure_def, Option.getD_some, List.filterMap_eq_map', List.map_map, String.ofList_toList,
      statsLines, List.head_cons]
  rw [read]
  exact ((stableSort_perm _ _).map _).cons _

end NotebookLint.Command
