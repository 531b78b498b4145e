import NotebookLint.Proofs.SuppressionMarkers

/-! Which reports the comments of a cell suppress. Every comment for a line counts on its line, but of
the comments for the whole cell only the last one does. So a further comment for the whole cell can
bring reports back. It does not if it is not the last one, or if it covers what the last one did. -/

set_option autoImplicit false

namespace NotebookLint.Suppression

/-- Whether some comment of a cell covers a rule in the whole cell. -/
def disabledInCell (source : Text) (rule : String) : Bool :=
  (Text.comments source).any fun entry =>
    (marker? "disable-cell" entry.2).any (Coverage.covers rule)

/-- Whether a comment on the given line of a cell, counted from one, covers a rule there. -/
def disabledOnLine (source : Text) (line : Int) (rule : String) : Bool :=
  (Text.comments source).any fun entry =>
    line == entry.1 + 1 && (marker? "noqa" entry.2).any (Coverage.covers rule)

/-- The coverage of the last of some comments that is for the whole cell. -/
def lastForCell? (comments : List (Nat × Text)) : Option Coverage :=
  comments.reverse.findSome? fun entry => marker? "disable-cell" entry.2

/-- Whether the last comment of a cell that is for the whole cell covers a rule. -/
def disabledByLast (source : Text) (rule : String) : Bool :=
  (lastForCell? (Text.comments source)).any (Coverage.covers rule)

theorem lastForCell?_append (before after : List (Nat × Text)) :
    lastForCell? (before ++ after) = (lastForCell? after).or (lastForCell? before) := by
  rw [lastForCell?, List.reverse_append, List.findSome?_append]
  rfl

theorem disabledInCell_of_last {source : Text} {rule : String}
    (covered : disabledByLast source rule = true) : disabledInCell source rule = true := by
  unfold disabledByLast at covered
  cases last : lastForCell? (Text.comments source) with
  | none => rw [last] at covered; cases covered
  | some coverage =>
      obtain ⟨entry, member, marked⟩ := List.exists_of_findSome?_eq_some last
      rw [disabledInCell, List.any_eq_true]
      refine ⟨entry, List.mem_reverse.mp member, ?_⟩
      rw [marked, ← last]
      exact covered

theorem silences_ofSource (source : Text) (offset : Int) (diagnostic : Diagnostic) :
    (ofSource source).silences offset diagnostic =
      (disabledByLast source diagnostic.rule ||
        disabledOnLine source (diagnostic.line - offset) diagnostic.rule) := by
  have cell : (ofSource source).cell = lastForCell? (Text.comments source) :=
    List.getLast?_filterMap
  have lines : ((ofSource source).lines.any fun entry =>
      diagnostic.line == entry.1 + offset && entry.2.covers diagnostic.rule) =
        disabledOnLine source (diagnostic.line - offset) diagnostic.rule := by
    simp only [ofSource, List.any_filterMap, disabledOnLine]
    congr 1
    funext entry
    have sameLine : (diagnostic.line == (entry.1 + 1 : Nat) + offset) =
        (diagnostic.line - offset == entry.1 + 1) := by
      rw [Bool.eq_iff_iff, beq_iff_eq, beq_iff_eq]
      omega
    cases marker? "noqa" entry.2 with
    | none => simp
    | some coverage => simpa using congrArg (· && coverage.covers diagnostic.rule) sameLine
  rw [Suppressions.silences, cell, lines, disabledByLast]

theorem apply_eq_filter_last (source : Text) (offset : Int) (diagnostics : List Diagnostic) :
    apply source offset diagnostics = diagnostics.filter fun diagnostic =>
      !(disabledByLast source diagnostic.rule ||
        disabledOnLine source (diagnostic.line - offset) diagnostic.rule) := by
  simp only [apply, silences_ofSource]

/-- Two tests keep the same of a list exactly if they agree on it. -/
theorem filter_eq_filter_iff {α : Type} {first second : α → Bool} {list : List α} :
    list.filter first = list.filter second ↔ ∀ entry ∈ list, first entry = second entry := by
  constructor
  · intro equal entry member
    have kept : entry ∈ list.filter first ↔ entry ∈ list.filter second := by rw [equal]
    simp only [List.mem_filter, member, true_and] at kept
    exact Bool.eq_iff_iff.mpr kept
  · intro agree
    exact List.filter_congr agree

/-- All comments for the whole cell hold exactly if whatever one of them covers is also covered by
the last of them or on its own line. -/
theorem apply_eq_filter_all_iff (source : Text) (offset : Int) (diagnostics : List Diagnostic) :
    (apply source offset diagnostics = diagnostics.filter fun diagnostic =>
        !(disabledInCell source diagnostic.rule ||
          disabledOnLine source (diagnostic.line - offset) diagnostic.rule)) ↔
      ∀ diagnostic ∈ diagnostics, disabledInCell source diagnostic.rule = true →
        disabledByLast source diagnostic.rule = true ∨
          disabledOnLine source (diagnostic.line - offset) diagnostic.rule = true := by
  rw [apply_eq_filter_last, filter_eq_filter_iff]
  apply forall₂_congr
  intro diagnostic member
  rw [Bool.not_inj_iff, Bool.eq_iff_iff, Bool.or_eq_true, Bool.or_eq_true]
  constructor
  · intro equal inCell
    exact equal.mpr (.inl inCell)
  · intro covered
    constructor
    · exact Or.imp_left disabledInCell_of_last
    · intro disabled
      rcases disabled with inCell | onLine
      · exact covered inCell
      · exact .inr onLine

section Further

variable {source longer : Text} {before after : List (Nat × Text)} {further : Nat × Text}
  (shorter : Text.comments source = before ++ after)
  (extended : Text.comments longer = before ++ further :: after)

include shorter extended

theorem disabledOnLine_of_further {line : Int} {rule : String}
    (disabled : disabledOnLine source line rule = true) :
    disabledOnLine longer line rule = true := by
  rw [disabledOnLine, shorter, List.any_append, Bool.or_eq_true] at disabled
  rw [disabledOnLine, extended, List.any_append, List.any_cons, Bool.or_eq_true, Bool.or_eq_true]
  rcases disabled with earlier | later
  · exact .inl earlier
  · exact .inr (.inr later)

/-- A further comment leaves a rule disabled if it is not the last one for the whole cell, or if it
covers the rule itself. -/
theorem disabledByLast_of_further {rule : String}
    (keeps : (∃ later ∈ after, (marker? "disable-cell" later.2).isSome = true) ∨
      (marker? "disable-cell" further.2).any (Coverage.covers rule) = true)
    (disabled : disabledByLast source rule = true) : disabledByLast longer rule = true := by
  have split : lastForCell? (Text.comments longer) =
      ((lastForCell? after).or (marker? "disable-cell" further.2)).or (lastForCell? before) := by
    rw [extended, ← List.singleton_append, ← List.append_assoc, lastForCell?_append,
      lastForCell?_append, Option.or_assoc]
    simp [lastForCell?]
  rw [disabledByLast, shorter, lastForCell?_append] at disabled
  rw [disabledByLast, split]
  cases last : lastForCell? after with
  | some coverage =>
      rw [last] at disabled
      exact disabled
  | none =>
      rcases keeps with ⟨later, member, marked⟩ | covers
      · rw [lastForCell?, List.findSome?_eq_none_iff] at last
        rw [last later (List.mem_reverse.mpr member)] at marked
        cases marked
      · cases marked : marker? "disable-cell" further.2 with
        | none => rw [marked] at covers; cases covers
        | some coverage =>
            rw [marked] at covers
            exact covers

theorem apply_sublist_of_further (offset : Int) (diagnostics : List Diagnostic)
    (keeps : (∃ later ∈ after, (marker? "disable-cell" later.2).isSome = true) ∨
      ∀ diagnostic ∈ diagnostics, disabledByLast source diagnostic.rule = true →
        (marker? "disable-cell" further.2).any (Coverage.covers diagnostic.rule) = true) :
    (apply longer offset diagnostics).Sublist (apply source offset diagnostics) := by
  have silenced : ∀ diagnostic ∈ diagnostics, (ofSource source).silences offset diagnostic = true →
      (ofSource longer).silences offset diagnostic = true := by
    intro diagnostic member silenced
    rw [silences_ofSource, Bool.or_eq_true] at silenced ⊢
    rcases silenced with byLast | onLine
    · left
      apply disabledByLast_of_further shorter extended _ byLast
      exact keeps.imp_right fun covers => covers diagnostic member byLast
    · exact .inr (disabledOnLine_of_further shorter extended onLine)
  have refiltered : apply longer offset diagnostics =
      (apply source offset diagnostics).filter fun diagnostic =>
        !(ofSource longer).silences offset diagnostic := by
    simp only [apply, List.filter_filter]
    apply List.filter_congr
    intro diagnostic member
    cases before : (ofSource source).silences offset diagnostic with
    | true => simp [silenced diagnostic member before]
    | false => simp
  rw [refiltered]
  exact List.filter_sublist

end Further

/-- Comments for single lines hold as they are written, and so does the last comment for the whole
cell: a bare one covers every rule, and one with names covers these. All comments for the whole cell
hold exactly if the last one covers what the others cover. A further comment brings nothing back if
it is not the last one or covers what the last one did. -/
theorem apply_eq_filter_iff (source : Text) (offset : Int) (diagnostics : List Diagnostic) :
    (∀ comment, Opens "disable-cell" [] comment → marker? "disable-cell" comment = some .all) ∧
      (∀ names list comment, Opens "disable-cell" (':' :: list) comment → Lists names list →
        names ≠ [] → marker? "disable-cell" comment = some (.only (names.map Text.lower))) ∧
      (apply source offset diagnostics = diagnostics.filter fun diagnostic =>
        !(disabledByLast source diagnostic.rule ||
          disabledOnLine source (diagnostic.line - offset) diagnostic.rule)) ∧
      ((apply source offset diagnostics = diagnostics.filter fun diagnostic =>
          !(disabledInCell source diagnostic.rule ||
            disabledOnLine source (diagnostic.line - offset) diagnostic.rule)) ↔
        ∀ diagnostic ∈ diagnostics, disabledInCell source diagnostic.rule = true →
          disabledByLast source diagnostic.rule = true ∨
            disabledOnLine source (diagnostic.line - offset) diagnostic.rule = true) ∧
      ∀ longer before further after, Text.comments source = before ++ after →
        Text.comments longer = before ++ further :: after →
        ((∃ later ∈ after, (marker? "disable-cell" later.2).isSome = true) ∨
          ∀ diagnostic ∈ diagnostics, disabledByLast source diagnostic.rule = true →
            (marker? "disable-cell" further.2).any (Coverage.covers diagnostic.rule) = true) →
        (apply longer offset diagnostics).Sublist (apply source offset diagnostics) := by
  refine ⟨?_, ?_, apply_eq_filter_last source offset diagnostics,
    apply_eq_filter_all_iff source offset diagnostics, ?_⟩
  · intro comment opens
    exact marker?_of_bare (by decide) opens
  · intro names list comment opens lists nonempty
    exact marker?_of_lists (by decide) opens lists nonempty
  · intro longer before further after shorter extended keeps
    exact apply_sublist_of_further shorter extended offset diagnostics keeps

/-- A comment with names, and after it a bare one, which covers more. -/
theorem apply_eq_filter_iff_widened :
    let list : Text := " Empty_Cells ,import_issues".toList
    let names : List Text := ["Empty_Cells".toList, "import_issues".toList]
    let named : Text :=
      '#' :: ([] ++ ("Cellint:".toList ++ ([' '] ++ ("disable-cell".toList ++ ':' :: list))))
    let bare : Text :=
      '#' :: ([' '] ++ ("cellint:".toList ++ ([' '] ++ ("Disable-Cell".toList ++ []))))
    let source : Text := named ++ "\nfrom m import *; x".toList
    let longer : Text := named ++ "\nfrom m import *; x".toList ++ bare
    let wildcard : Diagnostic := ⟨"import_issues", .wildcardImport, 7, none, none, some 2⟩
    let undefined : Diagnostic :=
      ⟨"undefined_variables", .undefinedName ['x'], 7, some 18, none, some 2⟩
    (Opens "disable-cell" [] bare ∧ Opens "disable-cell" (':' :: list) named ∧ Lists names list ∧
        names ≠ [] ∧ Text.comments source = [(0, named)] ++ [] ∧
        Text.comments longer = [(0, named)] ++ (1, bare) :: [] ∧
        apply source 5 [wildcard, undefined] = [undefined]) ∧
      marker? "disable-cell" bare = some .all ∧
      marker? "disable-cell" named = some (.only (names.map Text.lower)) ∧
      (apply source 5 [wildcard, undefined] = [wildcard, undefined].filter fun diagnostic =>
        !(disabledInCell source diagnostic.rule ||
          disabledOnLine source (diagnostic.line - 5) diagnostic.rule)) ∧
      (apply longer 5 [wildcard, undefined]).Sublist (apply source 5 [wildcard, undefined]) := by
  intro list names named bare source longer wildcard undefined
  obtain ⟨ofBare, ofNames, -, ofAll, ofFurther⟩ :=
    apply_eq_filter_iff source 5 [wildcard, undefined]
  have opensBare : Opens "disable-cell" [] bare :=
    .intro (by decide) (by decide) (by decide) (by decide)
  have opensNamed : Opens "disable-cell" (':' :: list) named :=
    .intro (by decide) (by decide) (by decide) (by decide)
  have lists : Lists names list := by
    refine ⟨by decide, [" Empty_Cells ".toList, "import_issues".toList], ?_, by decide⟩
    exact .cons ⟨[' '], [' '], by decide, by decide, by decide⟩
      (.cons ⟨[], [], by decide, by decide, by decide⟩ .nil)
  have nonempty : names ≠ [] := by decide
  have shorter : Text.comments source = [(0, named)] ++ [] := by decide +kernel
  have extended : Text.comments longer = [(0, named)] ++ (1, bare) :: [] := by decide +kernel
  have covered : ∀ diagnostic ∈ [wildcard, undefined],
      disabledInCell source diagnostic.rule = true →
        disabledByLast source diagnostic.rule = true ∨
          disabledOnLine source (diagnostic.line - 5) diagnostic.rule = true := by
    decide +kernel
  have keeps : ∀ diagnostic ∈ [wildcard, undefined],
      disabledByLast source diagnostic.rule = true →
        (marker? "disable-cell" bare).any (Coverage.covers diagnostic.rule) = true := by
    decide +kernel
  exact ⟨⟨opensBare, opensNamed, lists, nonempty, shorter, extended, by decide +kernel⟩,
    ofBare bare opensBare, ofNames names list named opensNamed lists nonempty, ofAll.mpr covered,
    ofFurther longer [(0, named)] (1, bare) [] shorter extended (.inr keeps)⟩

/-- A bare comment for the whole cell covers every rule, and a further one that names another rule
undoes this: a report that was suppressed comes back. -/
theorem apply_ne_filter_of_second_comment :
    let source : Text := "# cellint: disable-cell\nx".toList
    let longer : Text := source ++ "  # cellint: disable-cell: empty_cells".toList
    let undefined : Diagnostic :=
      ⟨"undefined_variables", .undefinedName ['x'], 2, some 1, none, some 2⟩
    apply source 0 [undefined] = [] ∧ disabledInCell longer undefined.rule = true ∧
      apply longer 0 [undefined] = [undefined] ∧
      apply longer 0 [undefined] ≠ [undefined].filter fun diagnostic =>
        !(disabledInCell longer diagnostic.rule ||
          disabledOnLine longer (diagnostic.line - 0) diagnostic.rule) := by
  decide +kernel

end NotebookLint.Suppression
