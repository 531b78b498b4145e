import Mathlib.Algebra.BigOperators.Group.Finset.Basic
import Mathlib.Algebra.Order.BigOperators.Group.Multiset
import Mathlib.Algebra.Ring.Nat
import NotebookLint.Report

/-! The counts of a report. Grouping sorts values into the keys that occur, each once and in the
order in which they first occur, so that the counts by key add up to the number of values. -/

set_option autoImplicit false

namespace NotebookLint

theorem nodup_eraseDups {α : Type} [BEq α] [LawfulBEq α] (list : List α) :
    list.eraseDups.Nodup := by
  induction length : list.length using Nat.strong_induction_on generalizing list with
  | _ _ ih =>
      cases list with
      | nil => simp
      | cons head rest =>
          rw [List.eraseDups_cons, List.nodup_cons, List.mem_eraseDups]
          refine ⟨by simp, ih _ ?_ _ rfl⟩
          rw [← length]
          exact Nat.lt_succ_of_le (List.length_filter_le _ _)

theorem eraseDups_concat {α : Type} [BEq α] [LawfulBEq α] (list : List α) (element : α) :
    (list ++ [element]).eraseDups =
      if list.eraseDups.contains element then list.eraseDups else list.eraseDups ++ [element] := by
  rw [List.eraseDups_append]
  by_cases known : element ∈ list
  · have contained : list.eraseDups.contains element = true := by simp [known]
    rw [if_pos contained]
    simp [List.removeAll, known]
  · have missing : ¬list.eraseDups.contains element = true := by simp [known]
    rw [if_neg missing]
    simp [List.removeAll, known, List.eraseDups_cons]

/-- The counts of different values add up to the length of a list that has no others. -/
theorem sum_map_count_of_nodup {α : Type} [DecidableEq α] {keys values : List α}
    (distinct : keys.Nodup) (known : ∀ value ∈ values, value ∈ keys) :
    (keys.map fun key => values.count key).sum = values.length := by
  have counted := Multiset.sum_count_eq_card (s := keys.toFinset) (m := (values : Multiset α))
    (by simpa using known)
  simpa [List.sum_toFinset _ distinct] using counted

namespace Report

section Groups

variable {κ α : Type} [BEq κ] [LawfulBEq κ]

/-- Adding to groups with different keys adds the value to the group of its key, if need be a new
one. -/
theorem addToGroup_map (key : κ) (value : α) (group : κ → List α) {keys : List κ}
    (distinct : keys.Nodup) (fresh : key ∉ keys → group key = []) :
    addToGroup key value (keys.map fun other => (other, group other)) =
      (if keys.contains key then keys else keys ++ [key]).map fun other =>
        (other, if other == key then group other ++ [value] else group other) := by
  induction keys with
  | nil => simp [addToGroup, fresh]
  | cons first rest ih =>
      obtain ⟨absent, others⟩ := List.nodup_cons.mp distinct
      rw [List.map_cons, addToGroup]
      by_cases same : first = key
      · subst same
        have apart : ∀ other ∈ rest, (other == first) = false := fun other member =>
          beq_eq_false_iff_ne.mpr fun equal => absent (equal ▸ member)
        have kept : (rest.map fun other =>
            (other, if other == first then group other ++ [value] else group other)) =
              rest.map fun other => (other, group other) :=
          List.map_congr_left fun other member => by rw [apart other member]; rfl
        simp [kept]
      · have different : (first == key) = false := beq_eq_false_iff_ne.mpr same
        rw [different, ih others fun missing => fresh (by simp [Ne.symm same, missing])]
        by_cases member : key ∈ rest <;> simp [member, same, Ne.symm same]

/-- Each key that occurs has one group, with all values of that key. -/
theorem groupBy_eq (key : α → κ) (values : List α) :
    groupBy key values =
      (values.map key).eraseDups.map fun group =>
        (group, values.filter fun value => key value == group) := by
  induction values using List.reverseRecOn with
  | nil => rfl
  | append_singleton values value ih =>
      have added : groupBy key (values ++ [value]) =
          addToGroup (key value) value (groupBy key values) := by
        simp [groupBy]
      have fresh (missing : key value ∉ (values.map key).eraseDups) :
          values.filter (fun other => key other == key value) = [] := by
        rw [List.mem_eraseDups] at missing
        rw [List.filter_eq_nil_iff]
        intro other member equal
        exact missing (List.mem_map.mpr ⟨other, member, eq_of_beq equal⟩)
      rw [added, ih, addToGroup_map _ _ _ (nodup_eraseDups _) fresh, ← eraseDups_concat,
        List.map_append, List.map_singleton]
      refine List.map_congr_left fun group _ => ?_
      rw [List.filter_append, BEq.comm]
      cases same : key value == group <;> simp [same]

end Groups

/-- Whether counts are those of the diagnostics reported file by file. -/
structure Stats.AddUp (stats : Stats) (files : List (List Diagnostic)) : Prop where
  perFile : (files.map List.length).sum = stats.total
  perSeverity : (stats.bySeverity.map Prod.snd).sum = stats.total
  perRule : (stats.byRule.map Prod.snd).sum = stats.total
  /-- Each severity is counted once, and so is each rule that occurs. -/
  severities : stats.bySeverity.map Prod.fst = Severity.all
  rules : stats.byRule.map Prod.fst = (files.flatten.map Diagnostic.rule).eraseDups
  severityCounts : ∀ entry ∈ stats.bySeverity,
    entry.2 = files.flatten.countP fun diagnostic => diagnostic.severity == entry.1
  ruleCounts : ∀ entry ∈ stats.byRule,
    entry.2 = files.flatten.countP fun diagnostic => diagnostic.rule == entry.1

theorem stats_byRule (diagnostics : List Diagnostic) :
    (stats diagnostics).byRule = (diagnostics.map Diagnostic.rule).eraseDups.map fun rule =>
      (rule, (diagnostics.map Diagnostic.rule).count rule) := by
  simp only [stats, byRule, groupBy_eq, List.map_map, List.count, List.countP_map,
    ← List.countP_eq_length_filter, Function.comp_def]

theorem stats_bySeverity (diagnostics : List Diagnostic) :
    (stats diagnostics).bySeverity = Severity.all.map fun severity =>
      (severity, (diagnostics.map Diagnostic.severity).count severity) := by
  simp only [stats, List.count, List.countP_map, Function.comp_def]

/-- All counts of a report add up to its total. -/
theorem stats_addUp (files : List (List Diagnostic)) : (stats files.flatten).AddUp files := by
  have total : (stats files.flatten).total = files.flatten.length := rfl
  constructor
  case perFile => rw [total, List.length_flatten]
  case perSeverity =>
    rw [stats_bySeverity, List.map_map, total, ← List.length_map Diagnostic.severity]
    exact sum_map_count_of_nodup (by decide) fun severity _ => by cases severity <;> decide
  case perRule =>
    rw [stats_byRule, List.map_map, total, ← List.length_map Diagnostic.rule]
    exact sum_map_count_of_nodup (nodup_eraseDups _) fun rule => List.mem_eraseDups.mpr
  case severities =>
    rw [stats_bySeverity, List.map_map]
    exact List.map_id _
  case rules =>
    rw [stats_byRule, List.map_map]
    exact List.map_id _
  case severityCounts =>
    rw [stats_bySeverity, List.forall_mem_map]
    exact fun severity _ => List.countP_map ..
  case ruleCounts =>
    rw [stats_byRule, List.forall_mem_map]
    exact fun rule _ => List.countP_map ..

end Report

end NotebookLint
