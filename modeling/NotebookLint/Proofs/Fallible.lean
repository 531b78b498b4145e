import Mathlib.Data.List.Forall2
import NotebookLint.Sorting

/-! Results that may be faults. A result in several steps is there if every step has one, and a
result for every member of a list if every member has one. -/

set_option autoImplicit false

namespace NotebookLint

section Fallible

variable {ε δ α β : Type}

@[simp] theorem except_bind_eq_ok {source : Except ε α} {next : α → Except ε β} {result : β} :
    (source >>= next) = .ok result ↔ ∃ value, source = .ok value ∧ next value = .ok result := by
  cases source <;> simp [bind, Except.bind]

theorem except_bind_eq_error {source : Except ε α} {next : α → Except ε β} {fault : ε} :
    (source >>= next) = .error fault ↔
      source = .error fault ∨ ∃ value, source = .ok value ∧ next value = .error fault := by
  cases source <;> simp [bind, Except.bind]

instance decidableEqError [DecidableEq ε] (result : Except ε α) (fault : ε) :
    Decidable (result = .error fault) :=
  match result with
  | .ok _ => .isFalse nofun
  | .error other => decidable_of_iff (other = fault) (by simp)

@[simp] theorem except_pure_eq_ok {value result : α} :
    (pure value : Except ε α) = .ok result ↔ value = result := by
  simp [pure, Except.pure]

@[simp] theorem except_mapError_eq_ok {source : Except ε α} {change : ε → δ} {value : α} :
    source.mapError change = .ok value ↔ source = .ok value := by
  cases source <;> simp [Except.mapError]

@[simp] theorem except_map_eq_ok {source : Except ε α} {change : α → β} {result : β} :
    source.map change = .ok result ↔ ∃ value, source = .ok value ∧ change value = result := by
  cases source <;> simp [Except.map]

theorem mapM_eq_ok {find : α → Except ε β} {list : List α} {results : List β} :
    list.mapM find = .ok results ↔
      List.Forall₂ (fun value result => find value = .ok result) list results := by
  induction list generalizing results with
  | nil =>
      rw [List.mapM_nil, except_pure_eq_ok, List.forall₂_nil_left_iff]
      exact eq_comm
  | cons value rest ih =>
      rw [List.mapM_cons, except_bind_eq_ok]
      simp only [except_bind_eq_ok, except_pure_eq_ok, ih, List.forall₂_cons_left_iff]
      constructor
      · rintro ⟨first, isFirst, others, areOthers, rfl⟩
        exact ⟨first, others, isFirst, areOthers, rfl⟩
      · rintro ⟨first, others, isFirst, areOthers, rfl⟩
        exact ⟨first, isFirst, others, areOthers, rfl⟩

theorem mapM_eq_error {find : α → Except ε β} {list : List α} {fault : ε} :
    list.mapM find = .error fault ↔
      ∃ before value after, list = before ++ value :: after ∧ find value = .error fault ∧
        ∃ results, before.mapM find = .ok results := by
  induction list with
  | nil => simp [pure, Except.pure]
  | cons head rest ih =>
      rw [List.mapM_cons, except_bind_eq_error]
      constructor
      · intro failed
        cases failed with
        | inl first => exact ⟨[], head, rest, rfl, first, [], rfl⟩
        | inr later =>
            obtain ⟨result, first, failed⟩ := later
            rw [except_bind_eq_error] at failed
            cases failed with
            | inl failed =>
                obtain ⟨before, value, after, rfl, found, results, read⟩ := ih.mp failed
                refine ⟨head :: before, value, after, rfl, found, result :: results, ?_⟩
                rw [List.mapM_cons, first, read]
                rfl
            | inr failed =>
                obtain ⟨_, _, impossible⟩ := failed
                cases impossible
      · intro failed
        obtain ⟨before, value, after, split, found, results, read⟩ := failed
        cases before with
        | nil =>
            cases split
            exact .inl found
        | cons first before =>
            cases split
            rw [List.mapM_cons, except_bind_eq_ok] at read
            obtain ⟨result, isFirst, read⟩ := read
            rw [except_bind_eq_ok] at read
            obtain ⟨others, isOthers, -⟩ := read
            have failed := ih.mpr ⟨before, value, after, rfl, found, others, isOthers⟩
            refine .inr ⟨result, isFirst, ?_⟩
            rw [failed]
            rfl

theorem exists_mapM_eq_ok {find : α → Except ε β} {list : List α} :
    (∃ results, list.mapM find = .ok results) ↔
      ∀ value ∈ list, ∃ result, find value = .ok result := by
  simp only [mapM_eq_ok]
  induction list with
  | nil => simp
  | cons value rest ih =>
      rw [List.forall_mem_cons, ← ih]
      constructor
      · intro present
        obtain ⟨_, found⟩ := present
        cases found with
        | cons first others => exact ⟨⟨_, first⟩, _, others⟩
      · intro present
        obtain ⟨⟨_, first⟩, _, others⟩ := present
        exact ⟨_, .cons first others⟩

theorem exists_of_mem_mapM {find : α → Except ε β} {list : List α} {results : List β}
    (found : list.mapM find = .ok results) {result : β} (member : result ∈ results) :
    ∃ value ∈ list, find value = .ok result := by
  rw [mapM_eq_ok] at found
  induction found with
  | nil => cases member
  | cons first _ ih =>
      cases member with
      | head => exact ⟨_, List.mem_cons_self, first⟩
      | tail _ later =>
          obtain ⟨value, inside, same⟩ := ih later
          exact ⟨value, List.mem_cons_of_mem _ inside, same⟩

theorem forM_eq_ok {accept : α → Except ε Unit} {list : List α} :
    list.forM accept = .ok () ↔ ∀ value ∈ list, accept value = .ok () := by
  induction list with
  | nil => simp
  | cons value rest ih =>
      have split : (value :: rest).forM accept = (accept value >>= fun _ => rest.forM accept) := rfl
      rw [split, except_bind_eq_ok, List.forall_mem_cons, ← ih]
      constructor
      · intro accepted
        obtain ⟨_, first, others⟩ := accepted
        exact ⟨first, others⟩
      · intro accepted
        exact ⟨(), accepted.1, accepted.2⟩

end Fallible

end NotebookLint
