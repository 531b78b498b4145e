import Mathlib.Data.Char
import Mathlib.Data.List.Lex
import NotebookLint.Proofs.FileSearch

/-! Searching a directory from different roots. What lies in a directory decides which notebooks are
found in it and in which order, whatever path leads there and wherever it is placed, unless a name on
the path itself is one that is passed over. Then nothing is found. -/

set_option autoImplicit false

namespace NotebookLint

theorem pairwise_stableSort {α : Type} {mayPrecede : α → α → Bool}
    (transitive : ∀ first second third : α,
      mayPrecede first second → mayPrecede second third → mayPrecede first third)
    (total : ∀ first second : α, mayPrecede first second || mayPrecede second first)
    (list : List α) :
    (stableSort mayPrecede list).Pairwise fun first second => mayPrecede first second := by
  rw [stableSort_eq_mergeSort transitive total]
  exact List.pairwise_mergeSort transitive total list

namespace Command

open File (Path Tree Location Node)

/-! ## The order of locations -/

theorem precedes_iff (left right : Text) : Text.precedes left right = true ↔ left < right := by
  induction left generalizing right with
  | nil => cases right <;> simp [Text.precedes]
  | cons char left ih =>
      cases right with
      | nil => simp [Text.precedes]
      | cons other right =>
          rw [Text.precedes, List.cons_lt_cons_iff, Bool.or_eq_true, Bool.and_eq_true, ih right,
            decide_eq_true_iff, beq_iff_eq]
          exact Iff.rfl

theorem locationPrecedes_iff (left right : Location) :
    locationPrecedes left right = true ↔ left < right := by
  induction left generalizing right with
  | nil => cases right <;> simp [locationPrecedes]
  | cons name left ih =>
      cases right with
      | nil => simp [locationPrecedes]
      | cons other right =>
          rw [locationPrecedes, List.cons_lt_cons_iff, Bool.or_eq_true, Bool.and_eq_true, ih right,
            precedes_iff, beq_iff_eq]

private theorem mayPrecede_iff (left right : Location) :
    (!locationPrecedes right left) = true ↔ left ≤ right := by
  rw [Bool.not_eq_true', Bool.eq_false_iff, ne_eq, locationPrecedes_iff, not_lt]

/-! ## The content of a directory -/

theorem mem_beginnings {α : Type} {list part : List α} :
    part ∈ Tree.beginnings list ↔ part ≠ [] ∧ part <+: list := by
  induction list generalizing part with
  | nil => simp [Tree.beginnings]
  | cons head rest ih =>
      cases part with
      | nil => simp [Tree.beginnings]
      | cons first part =>
          rw [Tree.beginnings, List.mem_cons, List.mem_map, List.cons_prefix_cons]
          simp only [List.cons.injEq, ih]
          cases part with
          | nil => simp [eq_comm]
          | cons second part => simp [eq_comm, and_comm]

theorem relativeTo?_eq_some {directory location rest : Location} :
    Tree.relativeTo? directory location = some rest ↔ location = directory ++ rest := by
  simp only [Tree.relativeTo?]
  constructor
  · intro found
    split at found
    · rename_i below
      obtain ⟨rest, rfl⟩ := List.isPrefixOf_iff_prefix.mp below
      rw [List.drop_left] at found
      rw [Option.some.inj found]
    · cases found
  · rintro rfl
    rw [if_pos (List.isPrefixOf_iff_prefix.mpr (List.prefix_append _ _)), List.drop_left]

/-- Whether a directory of a tree holds exactly the given files and directories. -/
def Holds (tree : Tree) (directory : Location) (content : List (Location × Node)) : Prop :=
  ∀ location node, location ≠ [] →
    ((directory ++ location, node) ∈ tree.entries ↔ (location, node) ∈ content)

theorem Holds.mem_allBelow {tree : Tree} {directory : Location} {content : List (Location × Node)}
    (holds : Holds tree directory content) {location : Location} :
    location ∈ tree.allBelow directory ↔
      location ≠ [] ∧ ∃ entry ∈ content, location <+: entry.1 := by
  have nonempty : ∀ rest, location ≠ [] → location <+: rest → rest ≠ [] := by
    rintro rest real begins rfl
    exact real (List.prefix_nil.mp begins)
  rw [Tree.allBelow, List.mem_eraseDups, List.mem_flatMap]
  simp only [List.mem_filterMap, relativeTo?_eq_some, mem_beginnings]
  constructor
  · rintro ⟨rest, ⟨⟨_, node⟩, member, rfl⟩, real, begins⟩
    exact ⟨real, (rest, node), (holds rest node (nonempty rest real begins)).mp member, begins⟩
  · rintro ⟨real, ⟨rest, node⟩, member, begins⟩
    exact ⟨rest, ⟨_, (holds rest node (nonempty rest real begins)).mpr member, rfl⟩, real, begins⟩

/-- A directory holds what is placed in it. -/
theorem holds_of_entries {tree : Tree} {directory : Location} {content : List (Location × Node)}
    (placed : tree.entries = content.map fun entry => (directory ++ entry.1, entry.2)) :
    Holds tree directory content := by
  intro location node _
  rw [placed, List.mem_map]
  constructor
  · rintro ⟨⟨other, _⟩, member, same⟩
    obtain ⟨sameLocation, rfl⟩ := Prod.mk.inj same
    rwa [← List.append_cancel_left sameLocation]
  · intro member
    exact ⟨(location, node), member, rfl⟩

/-! ## The notebooks of a directory -/

/-- Whether locations are those of the notebooks in a directory with the given content, without those
that have a skipped name below the directory, in ascending order. -/
structure ListsNotebooks (content : List (Location × Node)) (found : List Location) : Prop where
  mem_iff : ∀ location, location ∈ found ↔
    (∃ entry ∈ content, location <+: entry.1) ∧ isNotebookName location = true ∧
      ∀ name ∈ location, name ∉ skippedNames
  ascending : found.Pairwise (· < ·)

theorem ListsNotebooks.unique {content : List (Location × Node)} {found other : List Location}
    (lists : ListsNotebooks content found) (also : ListsNotebooks content other) : found = other := by
  have distinct : ∀ {locations : List Location}, locations.Pairwise (· < ·) → locations.Nodup := by
    intro locations ascending
    refine ascending.imp fun {left right} less => ?_
    rintro rfl
    exact lt_irrefl left less
  have antisymmetric : ∀ left right : Location, left ∈ found → right ∈ other → left < right →
      right < left → left = right := fun left right _ _ less greater =>
    absurd greater (lt_asymm less)
  refine List.Perm.eq_of_pairwise antisymmetric lists.ascending also.ascending
    ((List.perm_ext_iff_of_nodup (distinct lists.ascending) (distinct also.ascending)).mpr ?_)
  intro location
  rw [lists.mem_iff, also.mem_iff]

theorem isSkipped_below (root : Path) (location : Location) :
    isSkipped (root.below location) =
      (isSkipped root || location.any fun name => skippedNames.contains name) :=
  List.any_append

/-- What is found from a root: the notebooks of the directory, if the root has no skipped name. -/
theorem exists_notebooksBelow {tree : Tree} {directory : Location}
    {content : List (Location × Node)} (holds : Holds tree directory content) (root : Path) :
    ∃ found, ListsNotebooks content found ∧
      notebooksBelow tree root directory =
        if isSkipped root then [] else found.map root.below := by
  let ordered := stableSort (fun left right => !locationPrecedes right left)
    ((tree.allBelow directory).filter isNotebookName)
  let kept := ordered.filter fun location => !location.any fun name => skippedNames.contains name
  have perm : ordered.Perm ((tree.allBelow directory).filter isNotebookName) := stableSort_perm _ _
  have distinct : ordered.Nodup := perm.nodup_iff.mpr ((nodup_eraseDups _).filter _)
  have sorted : ordered.Pairwise (· ≤ ·) := by
    refine (pairwise_stableSort ?_ ?_ _).imp fun {left right} => (mayPrecede_iff left right).mp
    · intro first second third
      simp only [mayPrecede_iff]
      exact fun lower upper => le_trans lower upper
    · intro first second
      simp only [Bool.or_eq_true, mayPrecede_iff]
      exact le_total first second
  refine ⟨kept, ⟨?_, ?_⟩, ?_⟩
  · intro location
    have real : isNotebookName location = true → location ≠ [] := by
      rintro named rfl
      cases named
    simp only [kept, List.mem_filter, perm.mem_iff, holds.mem_allBelow, Bool.not_eq_true',
      List.any_eq_false, List.contains_iff_mem]
    constructor
    · rintro ⟨⟨⟨-, below⟩, named⟩, free⟩
      exact ⟨below, named, free⟩
    · rintro ⟨below, named, free⟩
      exact ⟨⟨⟨real named, below⟩, named⟩, free⟩
  · refine List.Pairwise.filter _ ((sorted.and distinct).imp ?_)
    rintro left right ⟨less, differs⟩
    exact lt_of_le_of_ne less differs
  · rw [notebooksBelow, List.filter_map]
    by_cases skipped : isSkipped root = true
    · rw [if_pos skipped]
      simp [Function.comp_def, isSkipped_below, skipped]
    · rw [if_neg skipped]
      simp [Function.comp_def, isSkipped_below, skipped, kept, ordered]

/-- The location of a path that lies below a root, relative to it. -/
def relativeTo (root path : Path) : Location :=
  path.components.drop root.components.length

theorem relativeTo_below (root : Path) (location : Location) :
    relativeTo root (root.below location) = location :=
  List.drop_left

private theorem map_relativeTo (root : Path) (found : List Location) :
    (if isSkipped root then [] else found.map root.below).map (relativeTo root) =
      if isSkipped root then [] else found := by
  have same : relativeTo root ∘ root.below = id := funext (relativeTo_below root)
  split
  · rfl
  · rw [List.map_map, same, List.map_id]

/-- A directory that is placed under two roots. From each of them the same notebooks are found, those
without a skipped name below the directory, or none if there is such a name in the root itself. So the
two searches agree exactly if both roots are skipped or none is, or if nothing is to be found. -/
theorem expand_of_holds {first second : Tree} {firstRoot secondRoot : Path}
    {firstDirectory secondDirectory : Location} {content : List (Location × Node)}
    (firstLeads : first.lookup firstRoot = .ok (firstDirectory, .directory))
    (secondLeads : second.lookup secondRoot = .ok (secondDirectory, .directory))
    (firstHolds : Holds first firstDirectory content)
    (secondHolds : Holds second secondDirectory content) :
    ∃ found one other, ListsNotebooks content found ∧
      expand first firstRoot = .ok one ∧ expand second secondRoot = .ok other ∧
      one = (if isSkipped firstRoot then [] else found.map firstRoot.below) ∧
      other = (if isSkipped secondRoot then [] else found.map secondRoot.below) ∧
      (one.map (relativeTo firstRoot) = other.map (relativeTo secondRoot) ↔
        (isSkipped firstRoot = isSkipped secondRoot ∨ found = [])) := by
  obtain ⟨found, lists, firstFound⟩ := exists_notebooksBelow firstHolds firstRoot
  obtain ⟨same, also, secondFound⟩ := exists_notebooksBelow secondHolds secondRoot
  obtain rfl := lists.unique also
  refine ⟨found, _, _, lists, ?_, ?_, rfl, rfl, ?_⟩
  · rw [expand, firstLeads, ← firstFound]
  · rw [expand, secondLeads, ← secondFound]
  · rw [map_relativeTo, map_relativeTo]
    cases isSkipped firstRoot <;> cases isSkipped secondRoot <;> simp [eq_comm]

/-- A directory with a skipped one in it, by a relative and by an absolute path. -/
theorem expand_of_holds_moved :
    let content : List (Location × Node) :=
      [([".git".toList, "b.ipynb".toList], .file []), (["d.ipynb".toList, "c.ipynb".toList], .file []),
        (["a.ipynb".toList], .file [])]
    let first : Tree := ⟨content.map fun entry => (["p".toList] ++ entry.1, entry.2), []⟩
    let second : Tree :=
      ⟨content.map fun entry => (["srv".toList, "q".toList] ++ entry.1, entry.2), ["srv".toList]⟩
    let firstRoot := Path.ofText "p".toList
    let secondRoot := Path.ofText "/srv/q".toList
    first.lookup firstRoot = .ok (["p".toList], .directory) ∧
      second.lookup secondRoot = .ok (["srv".toList, "q".toList], .directory) ∧
      Holds first ["p".toList] content ∧ Holds second ["srv".toList, "q".toList] content ∧
      expand first firstRoot = .ok (["p/a.ipynb", "p/d.ipynb", "p/d.ipynb/c.ipynb"].map fun path =>
        Path.ofText path.toList) ∧
      ∃ found one other, ListsNotebooks content found ∧
        expand first firstRoot = .ok one ∧ expand second secondRoot = .ok other ∧
        one = (if isSkipped firstRoot then [] else found.map firstRoot.below) ∧
        other = (if isSkipped secondRoot then [] else found.map secondRoot.below) ∧
        (one.map (relativeTo firstRoot) = other.map (relativeTo secondRoot) ↔
          (isSkipped firstRoot = isSkipped secondRoot ∨ found = [])) := by
  intro content first second firstRoot secondRoot
  have firstLeads : first.lookup firstRoot = .ok (["p".toList], .directory) := rfl
  have secondLeads : second.lookup secondRoot = .ok (["srv".toList, "q".toList], .directory) := rfl
  have firstHolds : Holds first ["p".toList] content := holds_of_entries rfl
  have secondHolds : Holds second ["srv".toList, "q".toList] content := holds_of_entries rfl
  exact ⟨firstLeads, secondLeads, firstHolds, secondHolds, rfl,
    expand_of_holds firstLeads secondLeads firstHolds secondHolds⟩

/-- A search from the directory itself and one from the root find different notebooks in it. -/
theorem expand_ne_of_skipped_root :
    let tree : Tree := ⟨[(["build".toList, "a.ipynb".toList], .file [])], ["build".toList]⟩
    let here := Path.ofText ".".toList
    let there := Path.ofText "/build".toList
    tree.lookup here = .ok (["build".toList], .directory) ∧
      tree.lookup there = .ok (["build".toList], .directory) ∧
      expand tree here = .ok [Path.ofText "a.ipynb".toList] ∧ expand tree there = .ok [] := by
  exact ⟨rfl, rfl, rfl, rfl⟩

end Command

end NotebookLint
