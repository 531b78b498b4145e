import NotebookLint.Proofs.FindingPlaces
import NotebookLint.Proofs.NotebookRun

/-! Where the reports on a notebook point. A report belongs to a cell of the notebook, its line in
the notebook and its line in the cell are the same line of text, and its column, if it has one, is
the place of the identifier or bracket that its message names. -/

set_option autoImplicit false

namespace NotebookLint

namespace Problem

@[simp] theorem offender?_shift (lines : Int) (problem : Problem) :
    (problem.shift lines).offender? = problem.offender? := by
  cases problem <;> rfl

/-- A message shows in quotes what the problem names as offending. -/
theorem inQuotes_within_message {problem : Problem} {offender : Text}
    (named : problem.offender? = some offender) :
    (inQuotes offender).toList <:+: problem.message.toList := by
  have quoted : ∀ message before after : String, message = before ++ inQuotes offender ++ after →
      (inQuotes offender).toList <:+: message.toList := by
    rintro message before after rfl
    exact ⟨before.toList, after.toList, by simp⟩
  cases problem <;> cases named
  case undefinedName => exact quoted _ "Undefined variable " "" String.append_empty.symm
  case misspelledName correct =>
      exact quoted _ "Possible capitalization typo: " (" should be " ++ inQuotes correct)
        String.append_assoc
  case unmatchedCloser closer => exact quoted _ "Unmatched closing " "" String.append_empty.symm
  case mismatchedCloser expected found =>
      exact quoted _ ("Mismatched bracket: expected " ++ inQuotes [expected] ++ " but found ") ""
        String.append_empty.symm
  case unclosedOpener opener column =>
      exact quoted _ "Unclosed " (" (opened at column " ++ toString column ++ ")")
        (by simp only [← String.append_assoc]; rfl)

end Problem

namespace Text

/-- A row of one of several texts, counted through all of them. -/
theorem getElem?_flatMap_lines (before : List Text) (text : Text) (after : List Text) {row : Nat}
    (inside : row < lineCount text) :
    ((before ++ text :: after).flatMap lines)[(before.map lineCount).sum + row]? =
      (lines text)[row]? := by
  have skipped : (before.flatMap lines).length = (before.map lineCount).sum := by
    simp [List.length_flatMap, length_lines]
  rw [List.flatMap_append, List.flatMap_cons, ← skipped,
    List.getElem?_append_right (Nat.le_add_right _ _), Nat.add_sub_cancel_left,
    List.getElem?_append_left (by rw [length_lines]; exact inside)]

end Text

namespace Cell

/-- A placed cell lies behind the lines of the cells before it. -/
theorem offset_of_placed_eq {cells : List Cell} {before after : List PlacedCell}
    {cell : PlacedCell} (split : placed cells = before ++ cell :: after) :
    cell.offset = (before.map fun other => Text.lineCount other.text).sum := by
  have texts := map_text_placed cells
  have listed : ((placed cells).map PlacedCell.offset)[before.length]? = some cell.offset := by
    simp [split]
  have inside : before.length < (sorted cells).length := by
    rw [← length_placed, split]
    simp
  rw [map_offset_placed, offsets, getElem?_offsetsFrom 0 _ _ inside, Nat.zero_add] at listed
  have counted : ((sorted cells).take before.length).map lineCount =
      before.map fun other => Text.lineCount other.text := by
    have prefixes := congrArg (fun texts => (texts.take before.length).map Text.lineCount) texts
    simp only [← List.map_take, List.map_map, split, List.take_left] at prefixes
    exact prefixes.symm
  rw [← Option.some.inj listed, counted]

end Cell

namespace Lint

theorem exists_rule_of_mem_runRules {request : Request} {rules : List Rule}
    {diagnostic : Diagnostic} (member : diagnostic ∈ (runRules request rules).diagnostics) :
    ∃ rule ∈ rules, ∃ found names, runRule request rule = .ok (found, names) ∧
      diagnostic ∈ found := by
  induction rules with
  | nil => simp [runRules] at member
  | cons rule rest ih =>
      have later : diagnostic ∈ (runRules request rest).diagnostics →
          ∃ rule' ∈ rule :: rest, ∃ found names, runRule request rule' = .ok (found, names) ∧
            diagnostic ∈ found := by
        intro inRest
        obtain ⟨other, inside, made⟩ := ih inRest
        exact ⟨other, List.mem_cons_of_mem _ inside, made⟩
      simp only [runRules] at member
      split at member
      · rename_i found names ran
        rcases List.mem_append.mp member with here | inRest
        · exact ⟨rule, List.mem_cons_self, found, names, ran, here⟩
        · exact later inRest
      · exact later member

/-- Linting a cell with built-in rules gives nothing but their findings, placed in the notebook. -/
theorem exists_finding_of_mem_cell {memory : Nat} {request : Request} {rules : List BuiltinRule}
    {diagnostic : Diagnostic}
    (member : diagnostic ∈ (cell (rules.map (BuiltinRule.toRule memory)) request).diagnostics) :
    ∃ rule ∈ rules, ∃ finding ∈ rule.findings request.text request.context,
      diagnostic = (finding.toDiagnostic rule.name request.offset).placeIn rule.name request.offset
        request.cellIndex := by
  have reported := (List.mem_filter.mp member).1
  obtain ⟨built, inRules, found, names, ran, inFound⟩ := exists_rule_of_mem_runRules reported
  obtain ⟨rule, isRule, rfl⟩ := List.mem_map.mp inRules
  simp only [runRule, BuiltinRule.toRule] at ran
  cases faulty : rule.fault? memory request.text with
  | some fault => simp [faulty, bind, Except.bind] at ran
  | none =>
      simp only [faulty, bind, Except.bind, pure, Except.pure, Except.ok.injEq,
        Prod.mk.injEq] at ran
      rw [← ran.1] at inFound
      obtain ⟨placed, made, rfl⟩ := List.mem_map.mp inFound
      obtain ⟨finding, isFinding, rfl⟩ := List.mem_map.mp made
      exact ⟨rule, isRule, finding, isFinding, rfl⟩

theorem exists_placed_of_mem_requestsFrom {rules : List Rule} {known : KnownNames}
    {placed : List PlacedCell} {request : Request}
    (member : request ∈ requestsFrom rules known placed) :
    ∃ before cell after, placed = before ++ cell :: after ∧ request.text = cell.text ∧
      request.offset = cell.offset ∧ request.cellIndex = some cell.index := by
  induction placed generalizing known with
  | nil => simp [requestsFrom] at member
  | cons head rest ih =>
      rcases List.mem_cons.mp member with rfl | later
      · exact ⟨[], head, rest, rfl, rfl, rfl, rfl⟩
      · obtain ⟨before, cell, after, rfl, same⟩ := ih later
        exact ⟨head :: before, cell, after, rfl, same⟩

end Lint

namespace Diagnostic

/-- Whether a report points at what its message names, in the given column of a line: at a whole
identifier or at a bracket, depending on its rule. -/
def PointsAt (diagnostic : Diagnostic) (line : Text) (column : Int) : Prop :=
  ∃ (start : Nat) (offender : Text), column = start + 1 ∧
    (Problem.inQuotes offender).toList <:+: diagnostic.message.toList ∧
    diagnostic.problem.offender? = some offender ∧
    ((diagnostic.rule = "undefined_variables" ∨ diagnostic.rule = "capitalization_typos") ∧
        (Text.name? (line.drop start)).map Prod.fst = some offender ∨
      diagnostic.rule = "unclosed_brackets" ∧
        ∃ bracket, offender = [bracket] ∧ (line.drop start).head? = some bracket)

/-- Whether a report lies on a line of a cell that has been placed in a notebook. -/
structure LiesOn (diagnostic : Diagnostic) (cell : PlacedCell) (notebook : Text) (cellLine : Nat)
    (line : Text) : Prop where
  ofCell : diagnostic.cellIndex = some cell.index
  atCellLine : diagnostic.cellLine = some (cellLine : Int)
  offset : (cellLine : Int) = diagnostic.line - cell.offset
  positive : 1 ≤ cellLine
  bounded : cellLine ≤ Text.lineCount cell.text
  inCell : (Text.lines cell.text)[cellLine - 1]? = some line
  inNotebook : (Text.lines notebook)[(diagnostic.line - 1).toNat]? = some line
  pointed : ∀ column, diagnostic.column = some column → diagnostic.PointsAt line column

end Diagnostic

namespace Engine

/-- Every report of the built-in rules on a notebook belongs to one of its cells, which lies behind
the lines of the cells before it. -/
theorem exists_cell_of_mem_lintNotebook (memory : Nat) (rules : List BuiltinRule)
    (cells : List Cell) (diagnostic : Diagnostic)
    (member : diagnostic ∈
      ((start (rules.map (BuiltinRule.toRule memory))).lintNotebook cells).1.diagnostics) :
    ∃ before cell after cellLine line, Cell.placed cells = before ++ cell :: after ∧
      cell.offset = (before.map fun other => Text.lineCount other.text).sum ∧
      diagnostic.LiesOn cell (Text.ofLines ((Cell.placed cells).map PlacedCell.text)) cellLine
        line := by
  rw [diagnostics_lintNotebook, List.mem_mergeSort, List.mem_flatMap] at member
  obtain ⟨request, requested, reported⟩ := member
  obtain ⟨before, cell, after, split, text, offset, index⟩ :=
    Lint.exists_placed_of_mem_requestsFrom requested
  obtain ⟨rule, _, finding, isFinding, rfl⟩ := Lint.exists_finding_of_mem_cell reported
  rw [text] at isFinding
  obtain ⟨⟨positive, bounded⟩, pointed⟩ := BuiltinRule.places isFinding
  have behind := Cell.offset_of_placed_eq split
  obtain ⟨line, found⟩ : ∃ line, (Text.lines cell.text)[finding.line - 1]? = some line :=
    ⟨_, List.getElem?_eq_getElem (by rw [Text.length_lines]; omega)⟩
  refine ⟨before, cell, after, finding.line, line, split, behind, index, ?_, ?_, positive, bounded,
    found, ?_, ?_⟩
  · simp [Diagnostic.placeIn, Finding.toDiagnostic]
  · simp [Diagnostic.placeIn, Finding.toDiagnostic, offset]
  · have nonempty : (Cell.placed cells).map PlacedCell.text ≠ [] := by simp [split]
    have inside : finding.line - 1 < Text.lineCount cell.text := by omega
    have row := Text.getElem?_flatMap_lines (before.map PlacedCell.text) cell.text
      (after.map PlacedCell.text) inside
    have position : ((finding.line : Int) + cell.offset - 1).toNat =
        ((before.map PlacedCell.text).map Text.lineCount).sum + (finding.line - 1) := by
      rw [List.map_map, Function.comp_def, ← behind]
      omega
    rw [Text.lines_ofLines nonempty]
    simp only [Diagnostic.placeIn, Finding.toDiagnostic, offset, position, split, List.map_append,
      List.map_cons]
    rw [row, found]
  · intro column isColumn
    simp only [Diagnostic.PointsAt, Diagnostic.placeIn, Finding.toDiagnostic] at isColumn ⊢
    rcases pointed with ⟨named, name, rawLine, start, offends, onLine, atColumn, reads⟩ |
      ⟨named, bracket, rawLine, start, offends, onLine, atColumn, reads⟩ | bare
    · obtain rfl : line = rawLine := Option.some.inj (found.symm.trans onLine)
      have shifted : (finding.problem.shift request.offset).offender? = some name := by
        rw [Problem.offender?_shift, offends]
      refine ⟨start, name, ?_, Problem.inQuotes_within_message shifted, shifted,
        .inl ⟨named, reads⟩⟩
      rw [atColumn] at isColumn
      simpa using isColumn.symm
    · obtain rfl : line = rawLine := Option.some.inj (found.symm.trans onLine)
      have shifted : (finding.problem.shift request.offset).offender? = some [bracket] := by
        rw [Problem.offender?_shift, offends]
      refine ⟨start, [bracket], ?_, Problem.inQuotes_within_message shifted, shifted,
        .inr ⟨named, bracket, rfl, reads⟩⟩
      rw [atColumn] at isColumn
      simpa using isColumn.symm
    · rw [bare] at isColumn
      cases isColumn

/-- The cell with the smaller index comes first, and the name stands in a replacement field. -/
theorem exists_cell_of_mem_lintNotebook_formatted :
    let cells : List Cell :=
      [⟨"x = f'\x7bPrint\x7d'".toList, some 7⟩, ⟨"a = [\n]".toList, some (-1)⟩]
    let diagnostic : Diagnostic :=
      ⟨"capitalization_typos", .misspelledName "Print".toList "print".toList, 3, some 8, some 7,
        some 1⟩
    let memory := 1 <<< 37
    diagnostic ∈ ((start ([.capitalizationTypos, .unclosedBrackets].map
        (BuiltinRule.toRule memory))).lintNotebook cells).1.diagnostics ∧
      ∃ before cell after cellLine line, Cell.placed cells = before ++ cell :: after ∧
        cell.offset = (before.map fun other => Text.lineCount other.text).sum ∧
        diagnostic.LiesOn cell (Text.ofLines ((Cell.placed cells).map PlacedCell.text)) cellLine
          line := by
  intro cells diagnostic memory
  have member : diagnostic ∈ ((start ([.capitalizationTypos, .unclosedBrackets].map
      (BuiltinRule.toRule memory))).lintNotebook cells).1.diagnostics := by
    decide +kernel
  exact ⟨member, exists_cell_of_mem_lintNotebook memory _ cells diagnostic member⟩

end Engine

end NotebookLint
