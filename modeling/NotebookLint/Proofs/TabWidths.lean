import NotebookLint.Proofs.BlockStructure

/-! Cells that are indented by tabs alone. A wider tab makes every indent of such a cell deeper by the
same factor, so a run with one width and a run with another open and close the same blocks and report
the same problems. The width matters only where there is no memory for a tab. -/

set_option autoImplicit false

namespace NotebookLint.IndentationErrors

/-! ## Indents made of tabs -/

private theorem eq_tab_of_mem_indent {line : Text} (tabs : ' ' ∉ Text.indent line) {char : Char}
    (inside : char ∈ Text.indent line) : char = '\t' := by
  have known := List.mem_takeWhile_imp inside
  simp only [Bool.or_eq_true, beq_iff_eq] at known
  rcases known with rfl | tab
  · exact absurd inside tabs
  · exact tab

theorem indentWidth_of_tabs {line : Text} (tabs : ' ' ∉ Text.indent line) (tabWidth : Nat) :
    Text.indentWidth tabWidth line = tabWidth * (Text.indent line).length := by
  have onlyTabs : ∀ char ∈ Text.indent line, char = '\t' := fun char => eq_tab_of_mem_indent tabs
  rw [Text.indentWidth]
  generalize Text.indent line = indent at onlyTabs
  induction indent with
  | nil => rfl
  | cons char rest ih =>
      obtain ⟨rfl, later⟩ := List.forall_mem_cons.mp onlyTabs
      rw [List.foldr_cons, ih later, if_pos (beq_self_eq_true _), List.length_cons, Nat.mul_succ,
        Nat.add_comm]

/-- The indent of such a line grows with the width of a tab. -/
theorem indentWidth_eq_mul_of_tabs {line : Text} (tabs : ' ' ∉ Text.indent line) (tabWidth : Nat) :
    Text.indentWidth tabWidth line = tabWidth * Text.indentWidth 1 line := by
  rw [indentWidth_of_tabs tabs, indentWidth_of_tabs tabs, Nat.one_mul]

/-! ## Proportional states -/

namespace State

/-- The state in which every open block is `factor` times as deep. -/
def scale (factor : Nat) (state : State) : State :=
  { state with levels := state.levels.map (factor * ·) }

theorem currentIndent_scale (factor : Nat) (state : State) :
    (state.scale factor).currentIndent = factor * state.currentIndent := by
  unfold currentIndent scale
  cases state.levels <;> simp

theorem scale_pass (factor : Nat) (state : State) (clean : Text) :
    (state.scale factor).pass clean = (state.pass clean).scale factor := rfl

/-- Comparing is blind to a factor that indents and blocks have in common. -/
theorem compare_scale {factor : Nat} (positive : 0 < factor) (state : State) (indent : Nat) :
    (state.scale factor).compare (factor * indent) =
      ((state.compare indent).1, (state.compare indent).2.map (factor * ·)) := by
  have notDeeper : factor * indent ≤ factor * state.currentIndent ↔ indent ≤ state.currentIndent :=
    Nat.mul_le_mul_left_iff positive
  have deeper : factor * indent > factor * state.currentIndent ↔ indent > state.currentIndent :=
    Nat.mul_lt_mul_left positive
  have closed : (state.levels.map (factor * ·)).dropWhile (fun level => level > factor * indent) =
      (state.levels.dropWhile fun level => level > indent).map (factor * ·) := by
    rw [List.dropWhile_map]
    congr 2
    funext level
    simp only [Function.comp_apply, gt_iff_lt, Nat.mul_lt_mul_left positive]
  have innermost : ((state.levels.dropWhile fun level => level > indent).map
        (factor * ·)).headD 0 = factor * indent ↔
      (state.levels.dropWhile fun level => level > indent).headD 0 = indent := by
    cases state.levels.dropWhile fun level => level > indent with
    | nil =>
        rw [List.map_nil, List.headD_nil, eq_comm, Nat.mul_eq_zero, or_iff_right (by omega), eq_comm]
    | cons level rest => exact Nat.mul_left_cancel_iff positive
  have levels : (state.scale factor).levels = state.levels.map (factor * ·) := rfl
  have expects : (state.scale factor).expectsBlock = state.expectsBlock := rfl
  unfold State.compare
  simp only [currentIndent_scale, notDeeper, deeper, levels, expects, closed, innermost]
  split
  · split <;> rfl
  · split <;> rfl

end State

/-- A line reports the same in proportional states and leads to proportional states. -/
theorem step_scale {factor : Nat} (positive : 0 < factor) (dominant : Option IndentStyle)
    (state : State) {line : SourceLine} (tabs : ' ' ∉ Text.indent line.raw) :
    step factor dominant (state.scale factor) line =
      ((step 1 dominant state line).1, (step 1 dominant state line).2.scale factor) := by
  have depth : (state.scale factor).depth = state.depth := rfl
  have continued : (state.scale factor).continued = state.continued := rfl
  simp only [step, State.scale_pass, depth, continued, indentWidth_eq_mul_of_tabs tabs factor,
    State.compare_scale positive]
  split
  · rfl
  · split
    · rfl
    · split <;> rfl

/-- Runs from proportional states have the same findings. -/
theorem findingsFrom_scale {factor : Nat} (positive : 0 < factor) (dominant : Option IndentStyle)
    (state : State) {lines : List SourceLine}
    (tabs : ∀ line ∈ lines, ' ' ∉ Text.indent line.raw) :
    findingsFrom factor dominant (state.scale factor) lines =
      findingsFrom 1 dominant state lines := by
  induction lines generalizing state with
  | nil => rfl
  | cons line rest ih =>
      obtain ⟨first, later⟩ := List.forall_mem_cons.mp tabs
      rw [findingsFrom_cons, findingsFrom_cons, step_scale positive dominant state first,
        ih _ later]

/-- No tab width finds more in a cell without spaces in its indents than another. -/
theorem findings_of_tabs {source : Text} (tabs : ∀ line ∈ Text.lines source, ' ' ∉ Text.indent line)
    {tabWidth : Nat} (positive : 0 < tabWidth) : findings tabWidth source = findings 1 source := by
  have raw : ∀ line ∈ Text.sourceLines source, ' ' ∉ Text.indent line.raw := by
    intro line member
    apply tabs
    rw [← Text.map_raw_sourceLines]
    exact List.mem_map_of_mem member
  exact findingsFrom_scale positive (dominantStyle? (Text.sourceLines source)) .initial raw

/-! ## Checks -/

/-- On a cell without spaces in its indents a check gives the same reports for every tab width, and
none where it measures an indent and a tab cannot be laid out. -/
theorem check_of_tabs {source : Text} (tabs : ∀ line ∈ Text.lines source, ' ' ∉ Text.indent line)
    (offset : Int) (context : List Text) :
    ∃ reported, ∀ memory tabWidth, 0 < tabWidth →
      ((BuiltinRule.indentationErrors tabWidth).toRule memory).check source offset context =
        if measuresIndent source = true ∧
            (memory ≤ tabWidth ∨ BuiltinRule.tabWidthLimit ≤ tabWidth) then
          .error (if BuiltinRule.tabWidthLimit ≤ tabWidth then .tabTooWide else .outOfMemory)
        else .ok reported := by
  refine ⟨(findings 1 source).map (Finding.toDiagnostic
    (BuiltinRule.indentationErrors 1).name offset), fun memory tabWidth positive => ?_⟩
  have found : (BuiltinRule.indentationErrors tabWidth).findings source context =
      findings 1 source := findings_of_tabs tabs positive
  simp only [BuiltinRule.toRule, found, fault?_indentationErrors]
  by_cases fails : measuresIndent source = true ∧
      (memory ≤ tabWidth ∨ BuiltinRule.tabWidthLimit ≤ tabWidth)
  · rw [if_pos fails, if_pos fails]
  · rw [if_neg fails, if_neg fails]
    rfl

/-- A block is closed halfway and another one is missing. -/
theorem check_of_tabs_halfway :
    let source : Text := "if a:\n\t\tb\n\tc\nif d:\ne".toList
    (∀ line ∈ Text.lines source, ' ' ∉ Text.indent line) ∧
      ∃ reported,
        reported.map (fun diagnostic => (diagnostic.line, diagnostic.message)) =
          [(13, "Unindent does not match any outer indentation level"),
            (15, "Expected indented block after colon")] ∧
        ∀ memory tabWidth, 0 < tabWidth →
          ((BuiltinRule.indentationErrors tabWidth).toRule memory).check source 10 [] =
            if measuresIndent source = true ∧
                (memory ≤ tabWidth ∨ BuiltinRule.tabWidthLimit ≤ tabWidth) then
              .error (if BuiltinRule.tabWidthLimit ≤ tabWidth then .tabTooWide else .outOfMemory)
            else .ok reported := by
  intro source
  have tabs : ∀ line ∈ Text.lines source, ' ' ∉ Text.indent line := by decide
  obtain ⟨reported, checked⟩ := check_of_tabs tabs 10 []
  have single := checked 2 1 Nat.one_pos
  rw [if_neg (by decide)] at single
  refine ⟨tabs, reported, ?_, checked⟩
  rw [← Except.ok.inj single]
  decide +kernel

/-- A tab that is wider than a text can be long makes the rule fail even on a cell without tabs. -/
theorem check_ne_of_tabTooWide :
    let source : Text := ['x']
    let memory := 1 <<< 37
    (∀ line ∈ Text.lines source, ' ' ∉ Text.indent line) ∧
      ((BuiltinRule.indentationErrors 1).toRule memory).check source 0 [] = .ok [] ∧
      ((BuiltinRule.indentationErrors (1 <<< 63)).toRule memory).check source 0 [] =
        .error .tabTooWide := by
  decide +kernel

end NotebookLint.IndentationErrors
