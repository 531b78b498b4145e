import NotebookLint.Editor
import NotebookLint.Proofs.CellInsertion
import NotebookLint.Proofs.PercentChunks
import NotebookLint.Proofs.ReportPlaces

/-! Where an editor shows the reports on a document. A report is shown on the line of the document
that is its line of its cell, provided that the cell has a line. A cell without lines, between two
markers or after a last one, can only be reported as empty, and this is shown on the next marker or
past the end. -/

set_option autoImplicit false

namespace NotebookLint

/-- In a numbered notebook a cell has its position for an index. -/
theorem PlacedCell.index_of_numbered_eq {index offset : Nat} {texts : List Text}
    {before after : List PlacedCell} {cell : PlacedCell}
    (split : numbered index offset texts = before ++ cell :: after) :
    cell.index = index + before.length ∧ texts[before.length]? = some cell.text := by
  induction texts generalizing index offset before with
  | nil =>
      have empty := congrArg List.length split
      simp [numbered] at empty
  | cons text rest ih =>
      cases before with
      | nil =>
          obtain ⟨rfl, -⟩ := List.cons.inj split
          simp
      | cons first others =>
          obtain ⟨-, later⟩ := List.cons.inj split
          obtain ⟨position, found⟩ := ih later
          refine ⟨?_, by simpa using found⟩
          rw [position, List.length_cons]
          push_cast
          omega

/-- An empty text is reported as empty, and otherwise not at all. -/
theorem BuiltinRule.eq_of_mem_findings_nil {rule : BuiltinRule} {context : List Text}
    {finding : Finding} (member : finding ∈ rule.findings [] context) :
    rule = .emptyCells ∧ finding = ⟨.trivialCell .empty, 1, none⟩ := by
  cases rule with
  | emptyCells => exact ⟨rfl, List.mem_singleton.mp member⟩
  | importIssues reportUnused => cases reportUnused <;> cases member
  | _ => cases member

namespace Editor

/-- Whether a mark lies on a line of its document that is no marker line, and that is the line with
the given number, counted from one, in the text of a chunk. -/
structure Mark.LiesOn (mark : Mark) (source : Text) (chunk : Percent.Chunk) (cellLine : Nat)
    (line : Text) : Prop where
  counted : 1 ≤ cellLine
  nonnegative : 0 ≤ mark.start.line
  bounded : mark.start.line < Text.lineCount source
  inDocument : (Text.lines source)[mark.start.line.toNat]? = some line
  unmarked : Percent.isMarker line = false
  inCell : (Text.lines chunk.text)[cellLine - 1]? = some line

theorem exists_liesOn {source : Text} {chunk : Percent.Chunk}
    (member : chunk ∈ Percent.chunks source) (nonempty : chunk.lines ≠ []) {cellLine : Nat}
    (positive : 1 ≤ cellLine) (bounded : cellLine ≤ Text.lineCount chunk.text) {mark : Mark}
    (start : mark.start.line = chunk.start + cellLine - 1) :
    ∃ line, mark.LiesOn source chunk cellLine line := by
  have lines := Percent.lines_text member nonempty
  have runs := Percent.runsIn_of_mem_chunks member
  have inside : cellLine - 1 < chunk.lines.length := by
    rw [← lines, Text.length_lines]
    omega
  obtain ⟨line, found⟩ : ∃ line, chunk.lines[cellLine - 1]? = some line :=
    ⟨_, List.getElem?_eq_getElem inside⟩
  have row : mark.start.line.toNat = chunk.start + (cellLine - 1) := by omega
  have inDocument : (Text.lines source)[mark.start.line.toNat]? = some line := by
    rw [row, runs.getElem? inside, found]
  have within := (List.getElem?_eq_some_iff.mp inDocument).1
  rw [Text.length_lines] at within
  obtain ⟨-, -, -, -, unmarked, -⟩ := runs
  refine ⟨line, positive, by omega, by omega, inDocument, ?_, ?_⟩
  · exact unmarked line (List.mem_of_getElem? found)
  · rw [lines, found]

theorem not_liesOn {source : Text} {chunk : Percent.Chunk} (member : chunk ∈ Percent.chunks source)
    (empty : chunk.lines = []) {mark : Mark} (start : mark.start.line = chunk.start)
    (cellLine : Nat) (line : Text) : ¬mark.LiesOn source chunk cellLine line := by
  intro lies
  have row : mark.start.line.toNat = chunk.start + chunk.lines.length := by
    rw [start, empty]
    rfl
  have found := lies.inDocument
  rw [row] at found
  have marker := (Percent.runsIn_of_mem_chunks member).isMarker_behind found
  rw [lies.unmarked] at marker
  cases marker

/-- Every mark is that of a finding in one of the chunks, reported under the chunk's position. -/
theorem exists_finding_of_mem_marks {memory : Nat} {rules : List BuiltinRule} {least : Severity}
    {source : Text} {mark : Mark}
    (member : mark ∈ marks (rules.map (BuiltinRule.toRule memory)) least source) :
    ∃ (position : Nat) (chunk : Percent.Chunk) (rule : BuiltinRule) (context : List Text)
        (finding : Finding) (offset : Int) (diagnostic : Diagnostic),
      (Percent.chunks source)[position]? = some chunk ∧
        finding ∈ rule.findings chunk.text context ∧
        diagnostic = (finding.toDiagnostic rule.name offset).placeIn rule.name offset
          (some (position : Int)) ∧
        diagnostic ∈ ((Engine.start (rules.map (BuiltinRule.toRule memory))).lintNotebook
          (Percent.cells source)).1.diagnostics ∧
        mark = markOf ((Percent.chunks source).map Percent.Chunk.start) diagnostic := by
  obtain ⟨diagnostic, selected, rfl⟩ := List.mem_map.mp member
  have reported := (List.mem_filter.mp selected).1
  have among := reported
  rw [Engine.diagnostics_lintNotebook, List.mem_mergeSort, List.mem_flatMap] at among
  obtain ⟨request, requested, onCell⟩ := among
  obtain ⟨before, cell, after, split, text, -, index⟩ :=
    Lint.exists_placed_of_mem_requestsFrom requested
  obtain ⟨rule, -, finding, isFinding, placed⟩ := Lint.exists_finding_of_mem_cell onCell
  rw [Percent.cells, Cell.placed_numberCells] at split
  obtain ⟨position, found⟩ := PlacedCell.index_of_numbered_eq split
  rw [List.getElem?_map, Option.map_eq_some_iff] at found
  obtain ⟨chunk, isChunk, sameText⟩ := found
  refine ⟨before.length, chunk, rule, request.context, finding, request.offset, diagnostic, isChunk,
    ?_, ?_, reported, rfl⟩
  · rw [sameText, ← text]
    exact isFinding
  · have samePosition : cell.index = (before.length : Int) := by simpa using position
    rw [placed, index, samePosition]

/-- Every mark is that of a report on a cell of the document. It lies on the line of the document
that is the line of the cell exactly if the cell has lines. On a cell without lines, which a marker or
the end of the document follows, nothing but its being empty is reported. -/
theorem exists_chunk_of_mem_marks (memory : Nat) (rules : List BuiltinRule) (least : Severity)
    (source : Text) (mark : Mark)
    (member : mark ∈ marks (rules.map (BuiltinRule.toRule memory)) least source) :
    ∃ (position : Nat) (chunk : Percent.Chunk) (diagnostic : Diagnostic) (cellLine : Nat),
      (Percent.chunks source)[position]? = some chunk ∧
        diagnostic ∈ ((Engine.start (rules.map (BuiltinRule.toRule memory))).lintNotebook
          (Percent.cells source)).1.diagnostics ∧
        mark = markOf ((Percent.chunks source).map Percent.Chunk.start) diagnostic ∧
        diagnostic.cellIndex = some (position : Int) ∧
        diagnostic.cellLine = some (cellLine : Int) ∧
        ((∃ line, mark.LiesOn source chunk cellLine line) ↔ chunk.lines ≠ []) ∧
        (chunk.lines = [] → mark.start.line = chunk.start ∧ diagnostic.rule = "empty_cells" ∧
          diagnostic.problem = .trivialCell .empty ∧
          ∀ line, (Text.lines source)[chunk.start]? = some line →
            Percent.isMarker line = true) := by
  obtain ⟨position, chunk, rule, context, finding, offset, diagnostic, isChunk, isFinding, placed,
    reported, marked⟩ := exists_finding_of_mem_marks member
  obtain ⟨⟨positive, bounded⟩, -⟩ := BuiltinRule.places isFinding
  have inside := List.mem_of_getElem? isChunk
  have cellLine : diagnostic.cellLine = some (finding.line : Int) := by
    rw [placed]
    simp [Diagnostic.placeIn, Finding.toDiagnostic]
  have start : mark.start.line = chunk.start + finding.line - 1 := by
    rw [marked, placed]
    simp [markOf, Diagnostic.placeIn, Finding.toDiagnostic, isChunk]
  have ofEmpty : chunk.lines = [] → rule = .emptyCells ∧ finding = ⟨.trivialCell .empty, 1, none⟩ := by
    intro empty
    apply BuiltinRule.eq_of_mem_findings_nil
    rw [Percent.Chunk.text, empty] at isFinding
    exact isFinding
  have startOfEmpty : chunk.lines = [] → mark.start.line = chunk.start := by
    intro empty
    obtain ⟨-, rfl⟩ := ofEmpty empty
    rw [start]
    simp
  refine ⟨position, chunk, diagnostic, finding.line, isChunk, reported, marked, by rw [placed]; rfl,
    cellLine, ?_, ?_⟩
  · constructor
    · rintro ⟨line, lies⟩ empty
      exact not_liesOn inside empty (startOfEmpty empty) finding.line line lies
    · intro nonempty
      exact exists_liesOn inside nonempty positive bounded start
  · intro empty
    refine ⟨startOfEmpty empty, ?_, ?_, ?_⟩
    · obtain ⟨rfl, -⟩ := ofEmpty empty
      rw [placed]
      rfl
    · obtain ⟨-, rfl⟩ := ofEmpty empty
      rw [placed]
      rfl
    · intro line found
      apply (Percent.runsIn_of_mem_chunks inside).isMarker_behind
      rw [empty]
      exact found

/-- The second cell has one line, which is empty, and it is reported there. -/
theorem exists_chunk_of_mem_marks_blank :
    let rules : List BuiltinRule := [.undefinedVariables false, .emptyCells]
    let source : Text := "x = 1\n# %%\n\n# %% last\ny".toList
    let mark : Mark := ⟨⟨2, 0⟩, ⟨2, 1⟩, "empty_cells Cell is empty", .info⟩
    let memory := 1 <<< 37
    mark ∈ marks (rules.map (BuiltinRule.toRule memory)) .info source ∧
      ∃ (position : Nat) (chunk : Percent.Chunk) (diagnostic : Diagnostic) (cellLine : Nat),
        (Percent.chunks source)[position]? = some chunk ∧
          diagnostic ∈ ((Engine.start (rules.map (BuiltinRule.toRule memory))).lintNotebook
            (Percent.cells source)).1.diagnostics ∧
          mark = markOf ((Percent.chunks source).map Percent.Chunk.start) diagnostic ∧
          diagnostic.cellIndex = some (position : Int) ∧
          diagnostic.cellLine = some (cellLine : Int) ∧
          ((∃ line, mark.LiesOn source chunk cellLine line) ↔ chunk.lines ≠ []) ∧
          (chunk.lines = [] → mark.start.line = chunk.start ∧ diagnostic.rule = "empty_cells" ∧
            diagnostic.problem = .trivialCell .empty ∧
            ∀ line, (Text.lines source)[chunk.start]? = some line →
              Percent.isMarker line = true) := by
  intro rules source mark memory
  have member : mark ∈ marks (rules.map (BuiltinRule.toRule memory)) .info source := by
    decide +kernel
  exact ⟨member, exists_chunk_of_mem_marks memory rules .info source mark member⟩

/-- A cell without lines is marked past the end of the document, or on the marker that follows it. -/
theorem marks_beyond_lines :
    let rules : List Rule := [BuiltinRule.emptyCells.toRule (1 <<< 37)]
    let single : Text := "# %%".toList
    let adjacent : Text := "# %%\n# %%\nx".toList
    (∃ mark ∈ marks rules .info single, ¬mark.start.line < Text.lineCount single) ∧
      ∃ mark ∈ marks rules .info adjacent,
        ((Text.lines adjacent)[mark.start.line.toNat]?).any Percent.isMarker = true := by
  decide +kernel

end Editor

end NotebookLint
