import NotebookLint.Sorting

/-! Sorting by insertion agrees with the stable merge sort of the standard library, for every order
in which any two elements are comparable. -/

set_option autoImplicit false

namespace NotebookLint

private theorem insertSorted_append {α : Type} {mayPrecede : α → α → Bool} {element : α}
    {before : List α} (passed : ∀ other ∈ before, mayPrecede element other = false)
    (after : List α) :
    insertSorted mayPrecede element (before ++ after) =
      before ++ insertSorted mayPrecede element after := by
  induction before with
  | nil => rfl
  | cons head rest ih =>
      have later : mayPrecede element head = false := passed head (by simp)
      have shorter := ih fun other member => passed other (by simp [member])
      simp [insertSorted, later, shorter]

private theorem insertSorted_of_forall {α : Type} {mayPrecede : α → α → Bool} {element : α}
    {list : List α} (first : ∀ other ∈ list, mayPrecede element other = true) :
    insertSorted mayPrecede element list = element :: list := by
  cases list with
  | nil => rfl
  | cons head rest => simp [insertSorted, first head (by simp)]

/-- For a total and transitive order, sorting by insertion is the library's merge sort, which is
stable. -/
theorem stableSort_eq_mergeSort {α : Type} {mayPrecede : α → α → Bool}
    (transitive : ∀ first second third : α,
      mayPrecede first second → mayPrecede second third → mayPrecede first third)
    (total : ∀ first second : α, mayPrecede first second || mayPrecede second first)
    (list : List α) : stableSort mayPrecede list = list.mergeSort mayPrecede := by
  induction list with
  | nil => simp [stableSort]
  | cons head rest ih =>
      obtain ⟨before, after, sorted, shorter, passed⟩ :=
        List.mergeSort_cons transitive total head rest
      have ordered := List.pairwise_mergeSort transitive total (head :: rest)
      rw [sorted, List.pairwise_append] at ordered
      have first := (List.pairwise_cons.mp ordered.2.1).1
      have skipped : ∀ other ∈ before, mayPrecede head other = false := fun other member => by
        simpa using passed other member
      rw [stableSort, ih, sorted, shorter, insertSorted_append skipped,
        insertSorted_of_forall first]

theorem insertSorted_perm {α : Type} (mayPrecede : α → α → Bool) (element : α) (list : List α) :
    (insertSorted mayPrecede element list).Perm (element :: list) := by
  induction list with
  | nil => exact List.Perm.refl _
  | cons head rest ih =>
      rw [insertSorted]
      split
      · exact List.Perm.refl _
      · exact (ih.cons head).trans (List.Perm.swap element head rest)

theorem stableSort_perm {α : Type} (mayPrecede : α → α → Bool) (list : List α) :
    (stableSort mayPrecede list).Perm list := by
  induction list with
  | nil => exact List.Perm.refl _
  | cons head rest ih => exact (insertSorted_perm mayPrecede head _).trans (ih.cons head)

end NotebookLint
