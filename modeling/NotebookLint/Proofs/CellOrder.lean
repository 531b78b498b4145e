import Mathlib.Data.List.Nodup
import Mathlib.Data.List.Perm.Subperm
import NotebookLint.Proofs.NotebookRun

/-! The order of a notebook and the integers under which its cells are reported. Every cell stands in
it once, at the place of its index or, if it has none, of its position in the input. An index is
reported as it is; a cell without one is given the next free integer, counted up from its place. The
search for it comes to an end, and the integers that it gives go up. -/

set_option autoImplicit false

namespace NotebookLint.Cell

/-! ## Free integers -/

/-- Moving up one by one from an integer past those that are taken ends at the given one. -/
inductive MovesUp (taken : List Int) : Int → Int → Prop where
  | free {start} : start ∉ taken → MovesUp taken start start
  | up {start found} :
      start ∈ taken → MovesUp taken (start + 1) found → MovesUp taken start found

theorem MovesUp.le {taken : List Int} {start found : Int} (moves : MovesUp taken start found) :
    start ≤ found := by
  induction moves with
  | free => exact Int.le_refl _
  | up _ _ ih => omega

theorem MovesUp.not_mem {taken : List Int} {start found : Int}
    (moves : MovesUp taken start found) : found ∉ taken := by
  induction moves with
  | free absent => exact absent
  | up _ _ ih => exact ih

/-- Nothing that is passed is free. -/
theorem MovesUp.mem_of_lt {taken : List Int} {start found : Int}
    (moves : MovesUp taken start found) {passed : Int} (lower : start ≤ passed)
    (upper : passed < found) : passed ∈ taken := by
  induction moves with
  | free => omega
  | @up start found present _ ih =>
      by_cases first : passed = start
      · exact first ▸ present
      · exact ih (by omega) upper

/-- Only what is taken matters, not in which order. -/
theorem MovesUp.congr {taken other : List Int} (same : ∀ index, index ∈ taken ↔ index ∈ other)
    {start found : Int} (moves : MovesUp taken start found) : MovesUp other start found := by
  induction moves with
  | free absent => exact .free (mt (same _).mpr absent)
  | up present _ ih => exact .up ((same _).mp present) ih

private theorem movesUp_of_forall_lt {taken : List Int} {start : Int} {steps : Nat}
    (passed : ∀ step < steps, start + (step : Int) ∈ taken)
    (absent : start + (steps : Int) ∉ taken) : MovesUp taken start (start + steps) := by
  induction steps generalizing start with
  | zero => simpa using MovesUp.free (by simpa using absent)
  | succ steps ih =>
      have shifted : start + ((steps + 1 : Nat) : Int) = start + 1 + steps := by
        push_cast
        omega
      have present : start ∈ taken := by simpa using passed 0 (Nat.succ_pos steps)
      have later : ∀ step < steps, start + 1 + (step : Int) ∈ taken := by
        intro step bounded
        have next := passed (step + 1) (Nat.succ_lt_succ bounded)
        rwa [Int.natCast_succ, Int.add_comm (step : Int), ← Int.add_assoc] at next
      rw [shifted] at absent ⊢
      exact .up present (ih later absent)

/-- The search for a free integer comes to an end: more integers than are taken cannot all be
taken. -/
theorem movesUp_firstFree (taken : List Int) (start : Int) :
    MovesUp taken start (firstFree taken start) := by
  unfold firstFree
  rw [List.find?_map]
  cases found : (List.range (taken.length + 1)).find? _ with
  | some steps =>
      obtain ⟨absent, -, passed⟩ := List.find?_range_eq_some.mp found
      apply movesUp_of_forall_lt
      · intro step bounded
        simpa using passed step bounded
      · simpa using absent
  | none =>
      have present := List.find?_range_eq_none.mp found
      have distinct : ((List.range (taken.length + 1)).map fun step : Nat =>
          start + (step : Int)).Nodup := by
        refine List.Nodup.map ?_ List.nodup_range
        intro first second same
        have equal : start + (first : Int) = start + second := same
        omega
      have within : ((List.range (taken.length + 1)).map fun step : Nat =>
          start + (step : Int)) ⊆ taken := by
        intro candidate member
        obtain ⟨step, bounded, rfl⟩ := List.mem_map.mp member
        simpa using present step (List.mem_range.mp bounded)
      have bound := (List.subperm_of_subset distinct within).length_le
      rw [List.length_map, List.length_range] at bound
      omega

/-! ## Numbering -/

/-- Whether the index of every cell that has one is taken. -/
def IndicesIn (taken : List Int) (cells : List Cell) : Prop :=
  ∀ cell ∈ cells, ∀ given, cell.index = some given → given ∈ taken

theorem IndicesIn.tail {taken : List Int} {cell : Cell} {rest : List Cell}
    (indices : IndicesIn taken (cell :: rest)) : IndicesIn taken rest :=
  fun other member => indices other (List.mem_cons_of_mem _ member)

theorem IndicesIn.add {taken : List Int} {cells : List Cell} (indices : IndicesIn taken cells)
    (added : Int) : IndicesIn (added :: taken) cells :=
  fun other member given indexed => List.mem_cons_of_mem _ (indices other member given indexed)

theorem mem_of_mem_numbered {taken : List Int} {position : Nat} {cells : List Cell}
    {entry : Int × Cell} (member : entry ∈ numbered taken position cells) : entry.2 ∈ cells := by
  rw [← map_snd_numbered taken position cells]
  exact List.mem_map_of_mem member

/-- An index is reported as it is given. -/
theorem fst_of_mem_numbered {taken : List Int} {position : Nat} {cells : List Cell}
    {entry : Int × Cell} (member : entry ∈ numbered taken position cells) {given : Int}
    (indexed : entry.2.index = some given) : entry.1 = given := by
  induction cells generalizing taken position with
  | nil => simp [numbered] at member
  | cons cell rest ih =>
      simp only [numbered] at member
      split at member
      · rename_i index isGiven
        rcases List.mem_cons.mp member with rfl | later
        · exact Option.some.inj (isGiven.symm.trans indexed)
        · exact ih later
      · rename_i isMissing
        rcases List.mem_cons.mp member with rfl | later
        · rw [isMissing] at indexed
          cases indexed
        · exact ih later

/-- What a cell without an index is given was free before. -/
theorem fresh_of_mem_numbered {taken : List Int} {position : Nat} {cells : List Cell}
    {entry : Int × Cell} (member : entry ∈ numbered taken position cells)
    (missing : entry.2.index = none) : (position : Int) ≤ entry.1 ∧ entry.1 ∉ taken := by
  induction cells generalizing taken position with
  | nil => simp [numbered] at member
  | cons cell rest ih =>
      simp only [numbered] at member
      split at member
      · rename_i index isGiven
        rcases List.mem_cons.mp member with rfl | later
        · rw [isGiven] at missing
          cases missing
        · obtain ⟨lower, absent⟩ := ih later
          exact ⟨by omega, absent⟩
      · rcases List.mem_cons.mp member with rfl | later
        · have moves := movesUp_firstFree taken position
          exact ⟨moves.le, moves.not_mem⟩
        · obtain ⟨lower, absent⟩ := ih later
          exact ⟨by omega, fun present => absent (List.mem_cons_of_mem _ present)⟩

/-- A cell without an index is given the next integer from its place on that neither an index nor an
earlier cell has. -/
theorem movesUp_of_getElem?_numbered {taken : List Int} {position : Nat} {cells : List Cell}
    (indices : IndicesIn taken cells) {place : Nat} {entry : Int × Cell}
    (found : (numbered taken position cells)[place]? = some entry)
    (missing : entry.2.index = none) :
    MovesUp (taken ++ ((numbered taken position cells).take place).map Prod.fst)
      ((position + place : Nat) : Int) entry.1 := by
  induction cells generalizing taken position place with
  | nil => simp [numbered] at found
  | cons cell rest ih =>
      have shifted (place : Nat) : position + (place + 1) = position + 1 + place := by omega
      cases isGiven : cell.index with
      | some index =>
          have present : index ∈ taken := indices cell List.mem_cons_self index isGiven
          simp only [numbered, isGiven] at found ⊢
          cases place with
          | zero =>
              obtain rfl : (index, cell) = entry := by simpa using found
              rw [isGiven] at missing
              cases missing
          | succ place =>
              rw [List.getElem?_cons_succ] at found
              rw [shifted place, List.take_succ_cons, List.map_cons]
              refine (ih indices.tail found).congr fun other => ?_
              simp only [List.mem_append, List.mem_cons]
              constructor
              · exact Or.imp_right .inr
              · rintro (old | rfl | earlier)
                · exact .inl old
                · exact .inl present
                · exact .inr earlier
      | none =>
          simp only [numbered, isGiven] at found ⊢
          cases place with
          | zero =>
              obtain rfl : (firstFree taken position, cell) = entry := by simpa using found
              simpa using movesUp_firstFree taken position
          | succ place =>
              rw [List.getElem?_cons_succ] at found
              rw [shifted place, List.take_succ_cons, List.map_cons]
              refine (ih (indices.tail.add _) found).congr fun other => ?_
              simp only [List.cons_append, List.mem_cons, List.mem_append]
              exact or_left_comm

/-- No other cell has what a cell without an index is given. -/
theorem pairwise_ne_numbered {taken : List Int} {position : Nat} {cells : List Cell}
    (indices : IndicesIn taken cells) :
    (numbered taken position cells).Pairwise fun one other =>
      one.2.index = none ∨ other.2.index = none → one.1 ≠ other.1 := by
  induction cells generalizing taken position with
  | nil => simp [numbered]
  | cons cell rest ih =>
      cases isGiven : cell.index with
      | some index =>
          have present : index ∈ taken := indices cell List.mem_cons_self index isGiven
          simp only [numbered, isGiven]
          refine .cons ?_ (ih indices.tail)
          rintro other member (missing | missing)
          · rw [isGiven] at missing
            cases missing
          · rintro rfl
            exact (fresh_of_mem_numbered member missing).2 present
      | none =>
          simp only [numbered, isGiven]
          refine .cons ?_ (ih (indices.tail.add _))
          rintro other member - same
          replace same : firstFree taken position = other.1 := same
          cases indexed : other.2.index with
          | none =>
              have fresh := (fresh_of_mem_numbered member indexed).2
              exact fresh (same ▸ List.mem_cons_self)
          | some given =>
              have reported := fst_of_mem_numbered member indexed
              have present : given ∈ taken :=
                indices.tail other.2 (mem_of_mem_numbered member) given indexed
              have free := (movesUp_firstFree taken position).not_mem
              rw [same, reported] at free
              exact free present

/-- The integers given to cells without an index go up: those between the place of a cell and the
integer it is given are all taken, so that no later search ends there. -/
theorem pairwise_lt_numbered (taken : List Int) (position : Nat) (cells : List Cell) :
    (((numbered taken position cells).filter fun entry => entry.2.index.isNone).map
      Prod.fst).Pairwise (· < ·) := by
  induction cells generalizing taken position with
  | nil => simp [numbered]
  | cons cell rest ih =>
      cases isGiven : cell.index with
      | some index =>
          simp only [numbered, isGiven]
          rw [List.filter_cons_of_neg (by simp [isGiven])]
          exact ih taken (position + 1)
      | none =>
          simp only [numbered, isGiven]
          rw [List.filter_cons_of_pos (by simp [isGiven]), List.map_cons]
          refine .cons ?_ (ih _ _)
          intro later member
          obtain ⟨entry, kept, rfl⟩ := List.mem_map.mp member
          obtain ⟨inRest, missing⟩ := List.mem_filter.mp kept
          obtain ⟨lower, absent⟩ := fresh_of_mem_numbered inRest (by simpa using missing)
          by_contra notLater
          rcases Int.le_iff_lt_or_eq.mp (Int.not_lt.mp notLater) with passed | same
          · have present := (movesUp_firstFree taken position).mem_of_lt (by omega) passed
            exact absent (List.mem_cons_of_mem _ present)
          · exact absent (same ▸ List.mem_cons_self)

/-! ## Order -/

/-- What the cell at a position of the input is ordered by: its index, or else the position. -/
def keyAt (cells : List Cell) (position : Nat) : Int :=
  (cells[position]?.bind index).getD position

/-- Whether the cell at one position of the input comes before the one at another position. -/
def ComesBefore (cells : List Cell) (position other : Nat) : Prop :=
  keyAt cells position < keyAt cells other ∨
    keyAt cells position = keyAt cells other ∧ position < other

theorem of_mem_zipIdx_keyed {cells : List Cell} {entry : (Int × Cell) × Nat}
    (member : entry ∈ (keyed cells).zipIdx) :
    cells[entry.2]? = some entry.1.2 ∧ entry.1.1 = keyAt cells entry.2 := by
  have found := List.mem_zipIdx_iff_getElem?.mp member
  rw [keyed, List.getElem?_map, List.getElem?_zipIdx] at found
  obtain ⟨⟨cell, position⟩, placed, made⟩ := Option.map_eq_some_iff.mp found
  obtain ⟨other, read, paired⟩ := Option.map_eq_some_iff.mp placed
  obtain ⟨rfl, rfl⟩ : other = cell ∧ 0 + entry.2 = position := by simpa using paired
  rw [← made]
  simp [keyAt, read]

/-- The order takes every position of the input once, and is stable. -/
theorem exists_positions_sorted (cells : List Cell) :
    ∃ positions : List Nat, positions.Perm (List.range cells.length) ∧
      positions.Pairwise (ComesBefore cells) ∧
      (sorted cells).map some = positions.map fun position => cells[position]? := by
  let mayPrecede := fun left right : Int × Cell => decide (left.1 ≤ right.1)
  have transitive : ∀ first second third : Int × Cell,
      mayPrecede first second → mayPrecede second third → mayPrecede first third := by
    intro first second third
    simpa [mayPrecede] using Int.le_trans
  have total : ∀ first second : Int × Cell, mayPrecede first second || mayPrecede second first := by
    intro first second
    simpa [mayPrecede] using Int.le_total first.1 second.1
  let entries := (keyed cells).zipIdx.mergeSort (List.zipIdxLE mayPrecede)
  have permuted : entries.Perm (keyed cells).zipIdx := List.mergeSort_perm _ _
  have known : ∀ entry ∈ entries,
      cells[entry.2]? = some entry.1.2 ∧ entry.1.1 = keyAt cells entry.2 :=
    fun entry member => of_mem_zipIdx_keyed (permuted.mem_iff.mp member)
  have places : (entries.map Prod.snd).Perm (List.range cells.length) := by
    refine (permuted.map Prod.snd).trans (.of_eq ?_)
    rw [List.zipIdx_map_snd, List.range_eq_range']
    simp [keyed]
  refine ⟨entries.map Prod.snd, places, ?_, ?_⟩
  · have ascending := List.pairwise_mergeSort (List.zipIdxLE_trans transitive)
      (List.zipIdxLE_total total) (keyed cells).zipIdx
    have distinct : entries.Pairwise fun one other => one.2 ≠ other.2 :=
      List.pairwise_map.mp (places.nodup_iff.mpr List.nodup_range)
    rw [List.pairwise_map]
    refine (ascending.and distinct).imp_of_mem fun {one other} first second ordered => ?_
    obtain ⟨inOrder, apart⟩ := ordered
    have oneKey := (known one first).2
    have otherKey := (known other second).2
    simp only [List.zipIdxLE, mayPrecede, decide_eq_true_eq] at inOrder
    rw [ComesBefore, ← oneKey, ← otherKey]
    split at inOrder
    · split at inOrder
      · have earlier := of_decide_eq_true inOrder
        omega
      · omega
    · cases inOrder
  · have unzipped : sorted cells = entries.map fun entry => entry.1.2 := by
      rw [sorted_eq_mergeSort, ← List.mergeSort_zipIdx, List.map_map]
      rfl
    rw [unzipped, List.map_map, List.map_map]
    exact List.map_congr_left fun entry member => (known entry member).1.symm

structure OrdersCells (cells : List Cell) (ordered : List (Int × Cell)) : Prop where
  /-- Every cell of the input stands in the order exactly once. The order is by index, a cell without
  one having its position for an index, and cells that are equal in this stay in input order. -/
  stable : ∃ positions : List Nat, positions.Perm (List.range cells.length) ∧
    positions.Pairwise (ComesBefore cells) ∧
    ordered.map (fun entry => some entry.2) = positions.map fun position => cells[position]?
  given : ∀ entry ∈ ordered, ∀ index, entry.2.index = some index → entry.1 = index
  /-- The search from the place of a cell without an index, past all indices and past what the cells
  before it are given, comes to an end. The cell is reported under the integer where it ends, and no
  other cell is reported under this integer. -/
  assigned : ∀ place entry, ordered[place]? = some entry → entry.2.index = none →
    MovesUp (cells.filterMap index ++ (ordered.take place).map Prod.fst) place entry.1 ∧
      (place : Int) ≤ entry.1 ∧
      ∀ other another, ordered[other]? = some another → other ≠ place → another.1 ≠ entry.1
  ascending : ((ordered.filter fun entry => entry.2.index.isNone).map Prod.fst).Pairwise (· < ·)

theorem indicesIn_sorted (cells : List Cell) :
    IndicesIn (cells.filterMap index) (sorted cells) := by
  intro cell member given indexed
  obtain ⟨positions, -, -, listed⟩ := exists_positions_sorted cells
  have placed : some cell ∈ positions.map fun position => cells[position]? :=
    listed ▸ List.mem_map_of_mem member
  obtain ⟨position, -, found⟩ := List.mem_map.mp placed
  exact List.mem_filterMap.mpr ⟨cell, List.mem_of_getElem? found, indexed⟩

/-- Putting a notebook in order keeps every cell once and reports it under an integer of its own,
its index if it has one. -/
theorem ordersCells_ordered (cells : List Cell) : OrdersCells cells (ordered cells) where
  stable := by
    obtain ⟨positions, permuted, ascending, listed⟩ := exists_positions_sorted cells
    refine ⟨positions, permuted, ascending, ?_⟩
    rw [← listed, ← map_snd_ordered, List.map_map]
    rfl
  given _ member _ indexed := fst_of_mem_numbered member indexed
  assigned := by
    intro place entry found missing
    have moves := movesUp_of_getElem?_numbered (indicesIn_sorted cells) found missing
    rw [Nat.zero_add] at moves
    refine ⟨moves, moves.le, ?_⟩
    intro other another alsoFound apart
    have unshared : (ordered cells).Pairwise fun one other =>
        one.2.index = none ∨ other.2.index = none → one.1 ≠ other.1 :=
      pairwise_ne_numbered (indicesIn_sorted cells)
    have pairs := List.pairwise_iff_getElem.mp unshared
    obtain ⟨inside, rfl⟩ := List.getElem?_eq_some_iff.mp found
    obtain ⟨alsoInside, rfl⟩ := List.getElem?_eq_some_iff.mp alsoFound
    rcases Nat.lt_or_gt_of_ne apart with earlier | later
    · exact pairs other place alsoInside inside earlier (.inr missing)
    · exact (pairs place other inside alsoInside later (.inl missing)).symm
  ascending := pairwise_lt_numbered _ _ _

example : (ordered [⟨[], none⟩, ⟨[], some 0⟩, ⟨[], none⟩, ⟨[], some 2⟩]).map Prod.fst =
    [1, 0, 3, 2] := by decide

end NotebookLint.Cell
