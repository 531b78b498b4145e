import Mathlib.Algebra.Ring.Nat
import Mathlib.Data.Prod.Lex
import NotebookLint.Engine.Lint
import NotebookLint.Proofs.Sorting

/-! What a notebook run is made of. Linting a notebook is linting its cells one by one, each behind
the lines and with the names of the cells before it, and sorting what they report. Nothing that the
engine did earlier takes part in it, apart from the rules it was given. -/

set_option autoImplicit false

namespace NotebookLint

namespace KnownNames

theorem mem_insert (known : KnownNames) (added name : Text) :
    name ∈ (known.insert added).toList ↔ name ∈ known.toList ∨ name = added := by
  unfold insert contains
  split
  · rename_i present
    have member : added ∈ known.toList := by simpa using present
    constructor
    · exact Or.inl
    · rintro (old | rfl)
      · exact old
      · exact member
  · simp

theorem nodup_insert {known : KnownNames} (unique : known.toList.Nodup) (added : Text) :
    (known.insert added).toList.Nodup := by
  unfold insert contains
  split
  · exact unique
  · rename_i absent
    have fresh : added ∉ known.toList := by simpa using absent
    simp only [List.nodup_append, List.nodup_cons, List.not_mem_nil, not_false_eq_true,
      List.nodup_nil, and_self, List.mem_cons, or_false, true_and]
    refine ⟨unique, ?_⟩
    rintro old member new rfl equal
    exact fresh (equal ▸ member)

theorem mem_add (known : KnownNames) (names : List Text) (name : Text) :
    name ∈ (known.add names).toList ↔ name ∈ known.toList ∨ name ∈ names := by
  unfold add
  induction names generalizing known with
  | nil => simp
  | cons added rest ih =>
      rw [List.foldl_cons, ih, mem_insert, List.mem_cons, or_assoc]

theorem nodup_add {known : KnownNames} (unique : known.toList.Nodup) (names : List Text) :
    (known.add names).toList.Nodup := by
  unfold add
  induction names generalizing known with
  | nil => exact unique
  | cons added rest ih => exact ih (nodup_insert unique added)

end KnownNames

namespace Cell

/-- The line offset of a cell is the number of lines of the cells before it. -/
theorem getElem?_offsetsFrom (offset position : Nat) (cells : List Cell)
    (inside : position < cells.length) :
    (offsetsFrom offset cells)[position]? =
      some (offset + ((cells.take position).map lineCount).sum) := by
  induction cells generalizing offset position with
  | nil => simp at inside
  | cons cell rest ih =>
      cases position with
      | zero => simp [offsetsFrom]
      | succ position =>
          have shorter : position < rest.length := by simpa using inside
          simp [offsetsFrom, ih _ _ shorter, Nat.add_assoc]

@[simp] theorem length_offsetsFrom (offset : Nat) (cells : List Cell) :
    (offsetsFrom offset cells).length = cells.length := by
  induction cells generalizing offset with
  | nil => rfl
  | cons cell rest ih => simp [offsetsFrom, ih]

@[simp] theorem map_snd_numbered (taken : List Int) (position : Nat) (cells : List Cell) :
    (numbered taken position cells).map Prod.snd = cells := by
  induction cells generalizing taken position with
  | nil => rfl
  | cons cell rest ih => cases given : cell.index <;> simp [numbered, given, ih]

@[simp] theorem map_snd_ordered (cells : List Cell) :
    (ordered cells).map Prod.snd = sorted cells :=
  map_snd_numbered _ _ _

@[simp] theorem length_ordered (cells : List Cell) :
    (ordered cells).length = (sorted cells).length := by
  rw [← map_snd_ordered, List.length_map]

@[simp] theorem length_placed (cells : List Cell) :
    (placed cells).length = (sorted cells).length := by
  simp [placed, offsets]

/-- Placing keeps the texts in notebook order. -/
theorem map_text_placed (cells : List Cell) :
    (placed cells).map PlacedCell.text = (sorted cells).map text := by
  have paired : ((ordered cells).zip (offsets (sorted cells))).map Prod.fst = ordered cells :=
    List.map_fst_zip (by simp [offsets])
  calc (placed cells).map PlacedCell.text
      = (((ordered cells).zip (offsets (sorted cells))).map Prod.fst).map (text ∘ Prod.snd) := by
        simp [placed, Function.comp_def]
    _ = (sorted cells).map text := by rw [paired, ← map_snd_ordered, List.map_map]

/-- Placing keeps the indices under which cells are reported. -/
theorem map_index_placed (cells : List Cell) :
    (placed cells).map PlacedCell.index = (ordered cells).map Prod.fst := by
  have paired : ((ordered cells).zip (offsets (sorted cells))).map Prod.fst = ordered cells :=
    List.map_fst_zip (by simp [offsets])
  calc (placed cells).map PlacedCell.index
      = (((ordered cells).zip (offsets (sorted cells))).map Prod.fst).map Prod.fst := by
        simp [placed, Function.comp_def]
    _ = (ordered cells).map Prod.fst := by rw [paired]

theorem map_offset_placed (cells : List Cell) :
    (placed cells).map PlacedCell.offset = offsets (sorted cells) := by
  have paired : ((ordered cells).zip (offsets (sorted cells))).map Prod.snd =
      offsets (sorted cells) :=
    List.map_snd_zip (by simp [offsets])
  calc (placed cells).map PlacedCell.offset
      = ((ordered cells).zip (offsets (sorted cells))).map Prod.snd := by
        simp [placed, Function.comp_def]
    _ = offsets (sorted cells) := paired

/-- Notebook order is the stable order by key. -/
theorem sorted_eq_mergeSort (cells : List Cell) :
    sorted cells =
      ((keyed cells).mergeSort fun left right => decide (left.1 ≤ right.1)).map Prod.snd := by
  unfold sorted
  rw [stableSort_eq_mergeSort]
  · intro first second third
    simpa using Int.le_trans
  · intro first second
    simpa using Int.le_total first.1 second.1

end Cell

namespace Diagnostic

def sortKey (diagnostic : Diagnostic) : Nat ×ₗ Int :=
  toLex (diagnostic.severity.rank, diagnostic.line)

theorem mayPrecede_eq_decide (left right : Diagnostic) :
    mayPrecede left right = decide (left.sortKey ≤ right.sortKey) := by
  simp [mayPrecede, sortKey, Prod.Lex.toLex_le_toLex, Bool.beq_eq_decide_eq]

theorem stableSort_mayPrecede (diagnostics : List Diagnostic) :
    stableSort mayPrecede diagnostics =
      diagnostics.mergeSort fun left right => decide (left.sortKey ≤ right.sortKey) := by
  have spelled : mayPrecede = fun left right => decide (left.sortKey ≤ right.sortKey) :=
    funext₂ mayPrecede_eq_decide
  rw [spelled, stableSort_eq_mergeSort]
  · intro first second third
    simpa using le_trans
  · intro first second
    simpa using le_total first.sortKey second.sortKey

end Diagnostic

namespace Lint

/-- The cells of a notebook as they are put to the rules, given the names known before them. -/
def requestsFrom (rules : List Rule) (known : KnownNames) : List PlacedCell → List Request
  | [] => []
  | placed :: rest =>
      let request : Request := ⟨placed.text, placed.offset, known.toList, some placed.index⟩
      request :: requestsFrom rules (known.add (cell rules request).defined) rest

/-- A run over cells reports what the cells report one by one. -/
theorem diagnostics_cellsFrom (rules : List Rule) (known : KnownNames)
    (placed : List PlacedCell) :
    (cellsFrom rules known placed).1.diagnostics =
      (requestsFrom rules known placed).flatMap fun request =>
        (cell rules request).diagnostics := by
  induction placed generalizing known with
  | nil => rfl
  | cons head rest ih => simp [cellsFrom, requestsFrom, ih]

theorem map_text_requestsFrom (rules : List Rule) (known : KnownNames)
    (placed : List PlacedCell) :
    (requestsFrom rules known placed).map Request.text = placed.map PlacedCell.text := by
  induction placed generalizing known with
  | nil => rfl
  | cons head rest ih => simp [requestsFrom, ih]

theorem map_offset_requestsFrom (rules : List Rule) (known : KnownNames)
    (placed : List PlacedCell) :
    (requestsFrom rules known placed).map Request.offset =
      placed.map fun cell => (cell.offset : Int) := by
  induction placed generalizing known with
  | nil => rfl
  | cons head rest ih => simp [requestsFrom, ih]

theorem map_cellIndex_requestsFrom (rules : List Rule) (known : KnownNames)
    (placed : List PlacedCell) :
    (requestsFrom rules known placed).map Request.cellIndex =
      placed.map fun cell => some cell.index := by
  induction placed generalizing known with
  | nil => rfl
  | cons head rest ih => simp [requestsFrom, ih]

/-- Every cell of a run is given, once each, the names known before the run and those that the
cells before it define. -/
theorem context_requestsFrom (rules : List Rule) {known : KnownNames}
    (unique : known.toList.Nodup) (placed : List PlacedCell) (position : Nat) (request : Request)
    (found : (requestsFrom rules known placed)[position]? = some request) :
    request.context.Nodup ∧ ∀ name, name ∈ request.context ↔
      name ∈ known.toList ∨
        ∃ earlier ∈ (requestsFrom rules known placed).take position,
          name ∈ (cell rules earlier).defined := by
  induction placed generalizing known position with
  | nil => simp [requestsFrom] at found
  | cons head rest ih =>
      cases position with
      | zero =>
          simp only [requestsFrom, List.getElem?_cons_zero, Option.some.injEq] at found
          subst found
          simpa using unique
      | succ position =>
          simp only [requestsFrom, List.getElem?_cons_succ] at found
          obtain ⟨distinct, members⟩ := ih (KnownNames.nodup_add unique _) position found
          refine ⟨distinct, fun name => ?_⟩
          rw [members name, KnownNames.mem_add]
          simp [requestsFrom, or_assoc]

end Lint

namespace Engine

inductive Operation where
  | register (rule : Rule)
  | lintCell (request : Lint.Request)
  | lintCode (text : Text) (offset : Int)
  | lintNotebook (cells : List Cell)

/-- The engine after one operation. Linting a single cell leaves it as it is. -/
def perform (engine : Engine) : Operation → Engine
  | .register rule => engine.register rule
  | .lintCell _ | .lintCode _ _ => engine
  | .lintNotebook cells => (engine.lintNotebook cells).2

def performAll (engine : Engine) (operations : List Operation) : Engine :=
  operations.foldl perform engine

/-- Two engines with the same rules lint every notebook alike. -/
theorem lintNotebook_congr {engine other : Engine} (same : engine.rules = other.rules)
    (cells : List Cell) : (engine.lintNotebook cells).1 = (other.lintNotebook cells).1 := by
  simp [lintNotebook, same]

/-- The reports on a notebook are the sorted reports on its cells. -/
theorem diagnostics_lintNotebook (engine : Engine) (cells : List Cell) :
    (engine.lintNotebook cells).1.diagnostics =
      ((Lint.requestsFrom engine.rules .empty (Cell.placed cells)).flatMap fun request =>
        (engine.lintCell request).diagnostics).mergeSort
          fun left right => decide (left.sortKey ≤ right.sortKey) := by
  simp only [lintNotebook, lintCell]
  rw [Lint.diagnostics_cellsFrom, Diagnostic.stableSort_mayPrecede]

/-- The offset at which a cell is put to the rules counts the lines of the cells before it. -/
theorem offset_requestsFrom (rules : List Rule) (cells : List Cell) (position : Nat)
    (request : Lint.Request)
    (found : (Lint.requestsFrom rules .empty (Cell.placed cells))[position]? = some request) :
    request.offset =
      ((((Lint.requestsFrom rules .empty (Cell.placed cells)).take position).map
        fun earlier => earlier.text.count '\n' + 1).sum : Nat) := by
  have texts := Lint.map_text_requestsFrom rules .empty (Cell.placed cells)
  rw [Cell.map_text_placed] at texts
  have inside : position < (Cell.sorted cells).length := by
    have bound := (List.getElem?_eq_some_iff.mp found).1
    have lengths := congrArg List.length texts
    simp only [List.length_map] at lengths
    omega
  have listed : (((Lint.requestsFrom rules .empty (Cell.placed cells)).map
      Lint.Request.offset))[position]? = some request.offset := by
    simp [found]
  have offsets : (Cell.placed cells).map (fun cell => (cell.offset : Int)) =
      (Cell.offsets (Cell.sorted cells)).map Int.ofNat := by
    rw [← Cell.map_offset_placed, List.map_map]
    rfl
  have counted : ((Lint.requestsFrom rules .empty (Cell.placed cells)).take position).map
        (fun earlier => earlier.text.count '\n' + 1) =
      ((Cell.sorted cells).take position).map Cell.lineCount := by
    have prefixes := congrArg (fun texts => (texts.take position).map fun text : Text =>
      text.count '\n' + 1) texts
    simp only [← List.map_take, List.map_map] at prefixes
    exact prefixes
  rw [Lint.map_offset_requestsFrom, offsets, List.getElem?_map, Cell.offsets,
    Cell.getElem?_offsetsFrom 0 position _ inside] at listed
  rw [counted]
  simpa using listed.symm

/-- After any operations, linting a notebook depends on the rules of the engine and on the cells
alone. Its reports are those of its cells in notebook order, sorted by severity and line, each cell
being linted behind the lines of the cells before it and with exactly the names that they define. -/
theorem lintNotebook_after_operations (rules : List Rule) (operations : List Operation)
    (cells : List Cell) :
    let engine := (start rules).performAll operations
    (engine.lintNotebook cells).1 = ((start engine.rules).lintNotebook cells).1 ∧
      ∃ requests : List Lint.Request,
        requests.map Lint.Request.text =
          (((Cell.keyed cells).mergeSort fun left right => decide (left.1 ≤ right.1)).map
            Prod.snd).map Cell.text ∧
        requests.map Lint.Request.cellIndex =
          (Cell.ordered cells).map (fun entry => some entry.1) ∧
        (∀ (position : Nat) (request : Lint.Request), requests[position]? = some request →
          request.offset =
              (((requests.take position).map fun earlier =>
                earlier.text.count '\n' + 1).sum : Nat) ∧
            request.context.Nodup ∧
            ∀ name, name ∈ request.context ↔
              ∃ earlier ∈ requests.take position, name ∈ (engine.lintCell earlier).defined) ∧
        (engine.lintNotebook cells).1.diagnostics =
          (requests.flatMap fun request => (engine.lintCell request).diagnostics).mergeSort
            fun left right => decide (left.sortKey ≤ right.sortKey) := by
  intro engine
  refine ⟨lintNotebook_congr rfl cells,
    Lint.requestsFrom engine.rules .empty (Cell.placed cells), ?_, ?_, ?_,
    diagnostics_lintNotebook engine cells⟩
  · rw [Lint.map_text_requestsFrom, Cell.map_text_placed, Cell.sorted_eq_mergeSort]
  · rw [Lint.map_cellIndex_requestsFrom]
    simpa [Function.comp_def] using congrArg (List.map some) (Cell.map_index_placed cells)
  · intro position request found
    obtain ⟨unique, members⟩ :=
      Lint.context_requestsFrom engine.rules List.nodup_nil _ position request found
    refine ⟨offset_requestsFrom engine.rules cells position request found, unique, ?_⟩
    intro name
    simpa [KnownNames.empty, lintCell] using members name

end Engine

end NotebookLint
