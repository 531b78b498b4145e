import NotebookLint.Proofs.FindingPlaces

/-! Scopes and repeated definitions. The scope of a definition is found with a stack, but it is a
matter of indents alone: a definition encloses a line if all lines behind it, up to that line, are
indented deeper. A definition is reported exactly if one before it has the same scope and the same
name, and the report cites the first of those. -/

set_option autoImplicit false

namespace NotebookLint

namespace Definition

/-! ## Scopes by indent -/

def indentOf (line : CodeLine) : Nat :=
  Text.indentWidth standardTabWidth line.clean

/-- The definition that a code line begins, decorated or not. -/
def begunOn? (line : CodeLine) : Option Definition :=
  ofLine? line.number line.clean

/-- The names of the definitions that enclose a line, given the lines before it. A definition encloses
it if every line behind the definition, up to and including the line itself, is indented deeper. -/
def enclosing (line : CodeLine) : List CodeLine → List Text
  | [] => []
  | outer :: between =>
      let inner := enclosing line between
      match begunOn? outer with
      | some definition =>
          if (between ++ [line]).all fun later => indentOf outer < indentOf later then
            definition.name :: inner
          else inner
      | none => inner

/-- The decorators on the lines directly before a line, given the lines before it. -/
def decoratorsBefore (before : List CodeLine) : List Text :=
  ((before.reverse.takeWhile fun line => (decorator? line.clean).isSome).filterMap
    fun line => decorator? line.clean).reverse

/-- What a line yields, given the lines before it: the definition that it begins, unless a decorator
says that the definition is meant to repeat a name. -/
structure IsYielded (before : List CodeLine) (line : CodeLine) (entry : ScopedDefinition) :
    Prop where
  begun : begunOn? line = some entry.definition
  distinct : (decoratorsBefore before).any reusesName = false
  scope : entry.scope = enclosing line before

/-! ## The stack -/

/-- The enclosing definitions behind lines, the innermost first: those whose later lines are all
indented deeper. -/
def openFrames : List CodeLine → List Frame
  | [] => []
  | outer :: between =>
      openFrames between ++
        match begunOn? outer with
        | some definition =>
            if between.all fun later => indentOf outer < indentOf later then
              [⟨indentOf outer, definition.name⟩]
            else []
        | none => []

theorem exists_line_of_mem_openFrames {lines : List CodeLine} {frame : Frame}
    (member : frame ∈ openFrames lines) : ∃ line ∈ lines, frame.indent = indentOf line := by
  induction lines with
  | nil => simp [openFrames] at member
  | cons outer between ih =>
      rcases List.mem_append.mp member with inner | here
      · obtain ⟨line, inside, same⟩ := ih inner
        exact ⟨line, List.mem_cons_of_mem _ inside, same⟩
      · refine ⟨outer, List.mem_cons_self, ?_⟩
        split at here
        · split at here
          · rw [List.mem_singleton] at here
            rw [here]
          · cases here
        · cases here

/-- An inner definition is indented deeper than those around it. -/
theorem pairwise_openFrames (lines : List CodeLine) :
    (openFrames lines).Pairwise fun inner outer => outer.indent < inner.indent := by
  induction lines with
  | nil => exact .nil
  | cons outer between ih =>
      rw [openFrames, List.pairwise_append]
      refine ⟨ih, ?_, ?_⟩
      · split
        · split
          · exact List.pairwise_singleton _ _
          · exact .nil
        · exact .nil
      · intro frame inner around member
        split at member
        · split at member
          · rename_i deeper
            obtain ⟨line, inside, same⟩ := exists_line_of_mem_openFrames inner
            rw [List.mem_singleton] at member
            rw [member, same]
            simpa using List.all_eq_true.mp deeper line inside
          · cases member
        · cases member

private theorem dropWhile_eq_filter {frames : List Frame}
    (nested : frames.Pairwise fun inner outer => outer.indent < inner.indent) (indent : Nat) :
    (frames.dropWhile fun frame => frame.indent ≥ indent) =
      frames.filter fun frame => frame.indent < indent := by
  induction nested with
  | nil => rfl
  | @cons innermost around outer _ ih =>
      by_cases closed : innermost.indent ≥ indent
      · simp [closed, Nat.not_lt.mpr closed, ih]
      · have isOpen : innermost.indent < indent := Nat.lt_of_not_le closed
        have remain : around.filter (fun frame => frame.indent < indent) = around := by
          rw [List.filter_eq_self]
          intro frame member
          exact decide_eq_true (Nat.lt_trans (outer frame member) isOpen)
        simp [closed, isOpen, remain]

/-- A line closes the definitions that are not indented less, and opens the one that it begins. -/
theorem openFrames_concat (before : List CodeLine) (line : CodeLine) :
    openFrames (before ++ [line]) =
      ((begunOn? line).map fun definition => ⟨indentOf line, definition.name⟩).toList ++
        (openFrames before).filter fun frame => frame.indent < indentOf line := by
  induction before with
  | nil => cases begun : begunOn? line <;> simp [openFrames, begun]
  | cons outer between ih =>
      rw [List.cons_append, openFrames, ih, openFrames, List.append_assoc, List.filter_append]
      congr 2
      cases begunOn? outer with
      | none => rfl
      | some definition =>
          by_cases inside : between.all fun later => indentOf outer < indentOf later
          · by_cases deeper : indentOf outer < indentOf line <;> simp [inside, deeper]
          · simp [inside]

/-- The names on the stack that a line leaves there are those of the definitions that enclose it. -/
theorem enclosing_eq (line : CodeLine) (before : List CodeLine) :
    enclosing line before =
      (((openFrames before).filter fun frame => frame.indent < indentOf line).map
        Frame.name).reverse := by
  induction before with
  | nil => rfl
  | cons outer between ih =>
      rw [openFrames, List.filter_append, List.map_append, List.reverse_append, ← ih, enclosing]
      cases begunOn? outer with
      | none => rfl
      | some definition =>
          by_cases inside : between.all fun later => indentOf outer < indentOf later
          · by_cases deeper : indentOf outer < indentOf line <;> simp [inside, deeper]
          · simp [inside]

/-! ## What is yielded -/

@[simp] theorem decoratorsBefore_concat (before : List CodeLine) (line : CodeLine) :
    decoratorsBefore (before ++ [line]) =
      match decorator? line.clean with
      | some decorator => decoratorsBefore before ++ [decorator]
      | none => [] := by
  unfold decoratorsBefore
  rw [List.reverse_append, List.reverse_singleton, List.singleton_append, List.takeWhile_cons]
  cases found : decorator? line.clean with
  | none => rfl
  | some decorator => simp [found]

/-- A line with a decorator begins no definition. -/
theorem ofLine?_of_decorator? {line decorator : Text} (found : decorator? line = some decorator)
    (number : Nat) : ofLine? number line = none := by
  obtain ⟨rest, marked, -⟩ := Option.bind_eq_some_iff.mp found
  have start : Text.trimLeft line = '@' :: rest := Text.eq_cons_of_char? marked
  simp [ofLine?, function?, class?, start, Text.after?]

theorem not_isYielded {line : CodeLine} (begun : begunOn? line = none) (before : List CodeLine)
    (entry : ScopedDefinition) : ¬ IsYielded before line entry := by
  rintro ⟨here, -, -⟩
  rw [begun] at here
  cases here

theorem mem_singleton_iff_isYielded {line : CodeLine} {definition : Definition}
    (begun : begunOn? line = some definition) (before : List CodeLine) (entry : ScopedDefinition) :
    entry ∈ (if (decoratorsBefore before).any reusesName then []
        else [⟨enclosing line before, definition⟩]) ↔ IsYielded before line entry := by
  constructor
  · intro member
    split at member
    · cases member
    · rename_i distinct
      rw [List.mem_singleton] at member
      subst member
      exact ⟨begun, by simpa using distinct, rfl⟩
  · rintro ⟨same, distinct, inScope⟩
    obtain rfl := Option.some.inj (begun.symm.trans same)
    rw [if_neg (by simp [distinct]), List.mem_singleton, ← inScope]

/-- The stack behind some lines and the decorators before a line are all that matters of the lines
before it. -/
theorem mem_scopedFrom_iff (before lines : List CodeLine) (entry : ScopedDefinition) :
    entry ∈ scopedFrom (openFrames before) (decoratorsBefore before) lines ↔
      ∃ middle line after, lines = middle ++ line :: after ∧
        IsYielded (before ++ middle) line entry := by
  induction lines generalizing before with
  | nil => simp [scopedFrom]
  | cons line rest ih =>
      have remaining := dropWhile_eq_filter (pairwise_openFrames before) (indentOf line)
      have frames := openFrames_concat before line
      rw [exists_split_cons (fun before line => IsYielded before line entry), ← ih, frames]
      simp only [scopedFrom]
      rw [← indentOf, remaining]
      cases decorated : decorator? line.clean with
      | some decorator =>
          have begun : begunOn? line = none := ofLine?_of_decorator? decorated line.number
          simp [begun, decorated, not_isYielded begun before entry]
      | none =>
          rw [← begunOn?]
          cases begun : begunOn? line with
          | none => simp [decorated, not_isYielded begun before entry]
          | some definition =>
              have here := mem_singleton_iff_isYielded begun before entry
              rw [enclosing_eq line before] at here
              simp only [decoratorsBefore_concat, decorated, List.mem_append, here,
                Option.map_some, Option.toList_some, List.singleton_append]

/-- Definitions are yielded in the order of their lines. -/
theorem map_line_scopedFrom_sublist (frames : List Frame) (decorators : List Text)
    (lines : List CodeLine) :
    ((scopedFrom frames decorators lines).map fun entry => entry.definition.line).Sublist
      (lines.map fun line => line.number) := by
  induction lines generalizing frames decorators with
  | nil => exact .slnil
  | cons line rest ih =>
      simp only [scopedFrom]
      split
      · exact (ih _ _).cons _
      · split
        · rename_i definition defined
          split
          · exact (ih _ _).cons _
          · rw [List.singleton_append, List.map_cons, line_of_ofLine? defined]
            exact (ih _ _).cons_cons _
        · exact (ih _ _).cons _

end Definition

namespace Text

/-- The statement lines of a cell are some of its lines, in order. -/
theorem map_toSourceLine_statementLines_sublist (source : Text) :
    ((statementLines source).map CodeLine.toSourceLine).Sublist (sourceLines source) :=
  ((List.filter_sublist.trans List.filter_sublist).map _).trans
    (map_toSourceLine_ofLines_sublist 0 _)

/-- The definitions of a cell stand on lines of their own, in order. -/
theorem pairwise_line_definitions (source : Text) :
    (definitions source).Pairwise fun earlier later =>
      earlier.definition.line < later.definition.line := by
  have numbers : ((statementLines source).map fun line => line.number).Pairwise (· < ·) := by
    have ordered := (pairwise_number_sourceLines source).sublist
      (map_toSourceLine_statementLines_sublist source)
    rw [List.pairwise_map] at ordered ⊢
    exact ordered
  rw [← List.pairwise_map]
  exact numbers.sublist (Definition.map_line_scopedFrom_sublist [] [] (statementLines source))

end Text

/-! ## Repeated definitions -/

namespace DuplicateFunctions

/-- The first of some definitions that has the scope and the name of a given one. -/
def firstAlike? (before : List ScopedDefinition) (entry : ScopedDefinition) :
    Option ScopedDefinition :=
  before.find? fun other =>
    other.scope == entry.scope && other.definition.name == entry.definition.name

def repetition (entry first : ScopedDefinition) : Finding where
  problem :=
    .repeatedDefinition entry.definition.kind entry.definition.name first.definition.line
  line := entry.definition.line

theorem repeated_cons (earlier : List ScopedDefinition) (entry : ScopedDefinition)
    (rest : List ScopedDefinition) :
    repeated earlier (entry :: rest) =
      ((firstAlike? earlier.reverse entry).map (repetition entry)).toList ++
        repeated (entry :: earlier) rest := by
  rw [repeated, ← firstAlike?]
  cases firstAlike? earlier.reverse entry <;> rfl

theorem repeated_append (earlier before after : List ScopedDefinition) :
    repeated earlier (before ++ after) =
      repeated earlier before ++ repeated (before.reverse ++ earlier) after := by
  induction before generalizing earlier with
  | nil => rfl
  | cons entry rest ih =>
      rw [List.cons_append, repeated_cons, repeated_cons, ih, List.append_assoc]
      simp

/-- The findings on the line of a definition are those about it. -/
theorem filter_findings {source : Text} {before after : List ScopedDefinition}
    {entry : ScopedDefinition}
    (split : Text.definitions source = before ++ entry :: after) :
    (findings source).filter (fun finding => finding.line == entry.definition.line) =
      ((firstAlike? before entry).map (repetition entry)).toList := by
  have ordered := Text.pairwise_line_definitions source
  rw [split, List.pairwise_append, List.pairwise_cons] at ordered
  obtain ⟨-, ⟨later, -⟩, earlier⟩ := ordered
  have elsewhere : ∀ {known listed : List ScopedDefinition},
      (∀ other ∈ listed, other.definition.line ≠ entry.definition.line) →
        (repeated known listed).filter (fun finding => finding.line == entry.definition.line) =
          [] := by
    intro known listed apart
    rw [List.filter_eq_nil_iff]
    intro finding member
    obtain ⟨-, other, inside, placed⟩ := exists_definition_of_mem_repeated member
    simpa [placed] using apart other inside
  have here : ((firstAlike? before entry).map (repetition entry)).toList.filter
      (fun finding => finding.line == entry.definition.line) =
        ((firstAlike? before entry).map (repetition entry)).toList := by
    cases firstAlike? before entry <;> simp [repetition]
  rw [findings, split, repeated_append, repeated_cons, List.filter_append, List.filter_append,
    elsewhere fun other member => Nat.ne_of_lt (earlier other member entry List.mem_cons_self),
    elsewhere fun other member => Nat.ne_of_gt (later other member), List.append_nil,
    List.append_nil, List.reverse_reverse, List.nil_append, here]

end DuplicateFunctions

structure ScopesDefinitions (source : Text) : Prop where
  /-- A line yields a definition exactly if it begins one that is not meant to repeat a name, and the
  scope holds the definitions that enclose the line. -/
  yielded : ∀ entry, entry ∈ Text.definitions source ↔
    ∃ before line after, Text.statementLines source = before ++ line :: after ∧
      Definition.IsYielded before line entry
  ascending : (Text.definitions source).Pairwise fun earlier later =>
    earlier.definition.line < later.definition.line
  /-- On the line of a definition there is one report if an earlier definition has the same scope and
  the same name, and it cites the first of those; otherwise there is none. -/
  reported : ∀ memory offset context, ∃ diagnostics,
    (BuiltinRule.duplicateFunctions.toRule memory).check source offset context = .ok diagnostics ∧
      (∀ before entry after, Text.definitions source = before ++ entry :: after →
        diagnostics.filter (fun diagnostic => diagnostic.line == entry.definition.line + offset) =
          ((DuplicateFunctions.firstAlike? before entry).map fun first =>
            { rule := "duplicate_functions"
              problem := .repeatedDefinition entry.definition.kind entry.definition.name
                (first.definition.line + offset)
              line := entry.definition.line + offset }).toList) ∧
      ∀ diagnostic ∈ diagnostics, ∃ entry ∈ Text.definitions source,
        diagnostic.line = entry.definition.line + offset

/-- The scope of every definition holds what encloses it by indent, and a definition is reported
exactly if an earlier one has its scope and its name. -/
theorem scopesDefinitions (source : Text) : ScopesDefinitions source where
  yielded entry := Definition.mem_scopedFrom_iff [] (Text.statementLines source) entry
  ascending := Text.pairwise_line_definitions source
  reported memory offset context := by
    refine ⟨_, rfl, ?_, ?_⟩
    · intro before entry after split
      have sameLine : ((fun diagnostic : Diagnostic =>
            diagnostic.line == entry.definition.line + offset) ∘
          Finding.toDiagnostic "duplicate_functions" offset) =
            fun finding => finding.line == entry.definition.line := by
        funext finding
        rw [Bool.eq_iff_iff]
        simp only [Function.comp_apply, Finding.toDiagnostic, beq_iff_eq]
        omega
      have found := DuplicateFunctions.filter_findings split
      rw [List.filter_map]
      simp only [BuiltinRule.name, BuiltinRule.findings, sameLine, found]
      cases DuplicateFunctions.firstAlike? before entry <;> rfl
    · intro diagnostic member
      obtain ⟨finding, found, rfl⟩ := List.mem_map.mp member
      obtain ⟨-, entry, inside, placed⟩ :=
        DuplicateFunctions.exists_definition_of_mem_repeated found
      exact ⟨entry, inside, by simp [Finding.toDiagnostic, placed]⟩

end NotebookLint
