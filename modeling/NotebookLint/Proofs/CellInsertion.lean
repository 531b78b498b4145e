import Mathlib.Data.Multiset.Filter
import NotebookLint.Notebook.Percent
import NotebookLint.Proofs.CellReports
import NotebookLint.Proofs.NotebookRun

/-! Adding a cell to a notebook. The more names are known before a cell, the less is found in it:
both rules that read the names of earlier cells are antitone in them. A further cell makes names
known to the cells after it and moves them down, so it takes reports on them away and adds none. -/

set_option autoImplicit false

namespace NotebookLint

open scoped List

private theorem flatMap_sublist {α β : Type} {more less : α → List β} (list : List α)
    (pieces : ∀ element ∈ list, less element <+ more element) :
    list.flatMap less <+ list.flatMap more := by
  induction list with
  | nil => exact List.Sublist.refl _
  | cons head rest ih =>
      rw [List.flatMap_cons, List.flatMap_cons]
      exact (pieces head List.mem_cons_self).append
        (ih fun element member => pieces element (List.mem_cons_of_mem _ member))

/-! ## Wider contexts -/

namespace UndefinedVariables

/-- Keeping the first usage of each name on each line commutes with dropping names: a name that is
dropped hides no usage of another one. -/
theorem firstPerLine_filter (keeps : Text → Bool) {reported others : List (Text × Nat)}
    (agree : ∀ name line, keeps name = true → ((name, line) ∈ reported ↔ (name, line) ∈ others))
    (usages : List Names.Usage) :
    firstPerLine reported (usages.filter fun usage => keeps usage.name) =
      (firstPerLine others usages).filter fun usage => keeps usage.name := by
  induction usages generalizing reported others with
  | nil => rfl
  | cons usage rest ih =>
      simp only [firstPerLine, List.filter_cons, List.contains_eq_mem, decide_eq_true_eq]
      by_cases kept : keeps usage.name = true
      · rw [if_pos kept, firstPerLine, List.contains_eq_mem]
        have same := agree usage.name usage.line kept
        by_cases member : (usage.name, usage.line) ∈ others
        · rw [if_pos member, if_pos (by simpa using same.mpr member)]
          exact ih agree
        · have fresh : (usage.name, usage.line) ∉ reported := fun old => member (same.mp old)
          rw [if_neg member, if_neg (by simpa using fresh), List.filter_cons, if_pos kept]
          congr 1
          apply ih
          intro name line wanted
          rw [List.mem_cons, List.mem_cons, agree name line wanted]
      · rw [if_neg kept]
        by_cases member : (usage.name, usage.line) ∈ others
        · rw [if_pos member]
          exact ih agree
        · rw [if_neg member, List.filter_cons, if_neg kept]
          apply ih
          intro name line wanted
          rw [agree name line wanted, List.mem_cons]
          constructor
          · exact Or.inr
          · rintro (same | old)
            · rw [Prod.mk.injEq] at same
              exact absurd (same.1 ▸ wanted) kept
            · exact old

theorem findings_sublist {context wider : List Text} (grown : context ⊆ wider) (allow : Bool)
    (source : Text) : findings allow source wider <+ findings allow source context := by
  unfold findings
  split
  · exact List.Sublist.refl _
  · have filtered : ∀ bound : List Text,
        firstPerLine [] ((Names.usedNames source).filter fun usage => !bound.contains usage.name) =
          (firstPerLine [] (Names.usedNames source)).filter
            fun usage => !bound.contains usage.name := fun bound =>
      firstPerLine_filter (fun name => !bound.contains name) (fun _ _ _ => Iff.rfl) _
    simp only [filtered]
    apply List.Sublist.map
    apply List.monotone_filter_right
    intro usage unknown
    simp only [known, List.contains_eq_mem, List.mem_append, Bool.not_eq_true',
      decide_eq_false_iff_not, not_or] at unknown ⊢
    obtain ⟨⟨named, unlisted⟩, notCommon⟩ := unknown
    exact ⟨⟨named, fun old => unlisted (grown old)⟩, notCommon⟩

end UndefinedVariables

namespace CapitalizationTypos

/-- A wider context takes suggestions away and changes none. -/
theorem suggestion?_of_subset {context wider : List Text} (grown : context ⊆ wider)
    (defined : List Spelling) (name : Text) :
    suggestion? defined wider name = none ∨
      suggestion? defined wider name = suggestion? defined context name := by
  have narrower : wider.contains name = false → context.contains name = false := by
    simp only [List.contains_eq_mem, decide_eq_false_iff_not]
    exact fun unlisted old => unlisted (grown old)
  simp only [suggestion?]
  by_cases constant : ((spelling? constantSpellings (Text.lower name)).isSome &&
      name == Text.lower name) = true
  · rw [if_pos constant, if_pos constant]
    exact .inr rfl
  · rw [if_neg constant, if_neg constant]
    cases own : defined.any fun spelling => spelling.name == name with
    | true => exact .inl rfl
    | false =>
        cases listed : wider.contains name with
        | true => exact .inl rfl
        | false => exact .inr (by rw [narrower listed])

theorem lineFindings_sublist {context wider : List Text} (grown : context ⊆ wider)
    (defined : List Spelling) (line : SourceLine) :
    lineFindings defined wider line <+ lineFindings defined context line := by
  unfold lineFindings
  split
  · exact List.Sublist.refl _
  · simp only [List.filterMap_eq_flatMap_toList]
    apply flatMap_sublist
    intro word _
    split
    · exact List.Sublist.refl _
    · rcases suggestion?_of_subset grown defined word.text with none | same
      · rw [none]
        exact List.nil_sublist _
      · rw [same]

theorem findings_sublist {context wider : List Text} (grown : context ⊆ wider) (source : Text) :
    findings source wider <+ findings source context :=
  flatMap_sublist _ fun line _ => lineFindings_sublist grown _ line

end CapitalizationTypos

theorem BuiltinRule.findings_sublist {context wider : List Text} (grown : context ⊆ wider)
    (source : Text) (rule : BuiltinRule) :
    rule.findings source wider <+ rule.findings source context := by
  cases rule with
  | undefinedVariables allow => exact UndefinedVariables.findings_sublist grown allow source
  | capitalizationTypos => exact CapitalizationTypos.findings_sublist grown source
  | _ => exact List.Sublist.refl _

theorem Lint.reports_sublist {context wider : List Text} (grown : context ⊆ wider)
    (memory : Nat) (rules : List BuiltinRule) (text : Text) :
    reports memory rules text wider <+ reports memory rules text context := by
  apply List.Sublist.filter
  apply flatMap_sublist
  intro rule _
  unfold BuiltinRule.foundIn
  split
  · exact List.Sublist.refl _
  · exact (rule.findings_sublist grown text).map _

/-! ## Notebooks of numbered cells -/

namespace PlacedCell

/-- Texts as placed cells, the first of which has the given index and offset. -/
def numbered (index offset : Nat) : List Text → List PlacedCell
  | [] => []
  | text :: rest => ⟨index, offset, text⟩ :: numbered (index + 1) (offset + Text.lineCount text) rest

end PlacedCell

namespace Cell

/-- Cells whose indices ascend are in notebook order. -/
theorem sorted_of_pairwise {cells : List Cell} (indexed : ∀ cell ∈ cells, cell.index.isSome)
    (ascending : cells.Pairwise fun left right => left.index.getD 0 ≤ right.index.getD 0) :
    sorted cells = cells := by
  have keys : keyed cells = cells.map fun cell => (cell.index.getD 0, cell) := by
    calc keyed cells
      _ = cells.zipIdx.map fun entry => (entry.1.index.getD 0, entry.1) := by
          apply List.map_congr_left
          rintro ⟨cell, position⟩ member
          obtain ⟨index, known⟩ := Option.isSome_iff_exists.mp
            (indexed cell (List.fst_mem_of_mem_zipIdx member))
          simp [known]
      _ = (cells.zipIdx.map Prod.fst).map fun cell => (cell.index.getD 0, cell) := by
          rw [List.map_map]
          rfl
      _ = cells.map fun cell => (cell.index.getD 0, cell) := by rw [List.zipIdx_map_fst]
  have ordered : (cells.map fun cell => (cell.index.getD 0, cell)).Pairwise
      fun left right => decide (left.1 ≤ right.1) = true := by
    rw [List.pairwise_map]
    exact ascending.imp fun le => by simpa using le
  rw [sorted_eq_mergeSort, keys, List.mergeSort_of_pairwise ordered, List.map_map]
  exact List.map_id' cells

/-- Texts as cells, the first of which has the given index. -/
private def numberedFrom (start : Nat) (texts : List Text) : List Cell :=
  (texts.zipIdx start).map fun (text, position) => ⟨text, some position⟩

private theorem numberedFrom_cons (start : Nat) (text : Text) (rest : List Text) :
    numberedFrom start (text :: rest) = ⟨text, some start⟩ :: numberedFrom (start + 1) rest := rfl

private theorem exists_index_of_mem {start : Nat} {texts : List Text} {cell : Cell}
    (member : cell ∈ numberedFrom start texts) :
    ∃ index : Nat, cell.index = some (index : Int) ∧ start ≤ index := by
  induction texts generalizing start with
  | nil => cases member
  | cons text rest ih =>
      rw [numberedFrom_cons] at member
      rcases List.mem_cons.mp member with rfl | later
      · exact ⟨start, rfl, Nat.le_refl _⟩
      · obtain ⟨index, known, above⟩ := ih later
        exact ⟨index, known, by omega⟩

private theorem sorted_numberedFrom (start : Nat) (texts : List Text) :
    sorted (numberedFrom start texts) = numberedFrom start texts := by
  apply sorted_of_pairwise
  · intro cell member
    obtain ⟨index, known, -⟩ := exists_index_of_mem member
    simp [known]
  · induction texts generalizing start with
    | nil => exact List.Pairwise.nil
    | cons text rest ih =>
        rw [numberedFrom_cons]
        refine List.Pairwise.cons ?_ (ih (start + 1))
        intro cell member
        obtain ⟨index, known, above⟩ := exists_index_of_mem member
        simp only [known, Option.getD_some]
        omega

private theorem placed_numberedFrom (taken : List Int) (position start offset : Nat)
    (texts : List Text) :
    (((numbered taken position (numberedFrom start texts)).zip
        (offsetsFrom offset (numberedFrom start texts))).map fun ((index, cell), offset) =>
          (⟨index, offset, cell.text⟩ : PlacedCell)) =
      PlacedCell.numbered start offset texts := by
  induction texts generalizing position start offset with
  | nil => rfl
  | cons text rest ih =>
      simp only [numberedFrom_cons, numbered, offsetsFrom, List.zip_cons_cons, List.map_cons, ih,
        PlacedCell.numbered]
      rfl

theorem placed_numberCells (texts : List Text) :
    placed (Percent.numberCells texts) = PlacedCell.numbered 0 0 texts := by
  have inOrder : sorted (Percent.numberCells texts) = Percent.numberCells texts :=
    sorted_numberedFrom 0 texts
  rw [placed, ordered, offsets, inOrder]
  exact placed_numberedFrom _ 0 0 0 texts

end Cell

/-! ## Reports on one cell -/

namespace Diagnostic

/-- What a report says, apart from the place of its cell and its wording. -/
structure Outline where
  rule : String
  severity : Severity
  cellLine : Option Int
  column : Option Int
  deriving DecidableEq, Repr

def outline (diagnostic : Diagnostic) : Outline :=
  ⟨diagnostic.rule, diagnostic.severity, diagnostic.cellLine, diagnostic.column⟩

end Diagnostic

def RuleFinding.outline (found : RuleFinding) : Diagnostic.Outline where
  rule := found.rule
  severity := found.finding.problem.severity
  cellLine := some found.finding.line
  column := found.finding.column.map Int.ofNat

theorem RuleFinding.outline_place (offset : Int) (cellIndex : Option Int) (found : RuleFinding) :
    (found.place offset cellIndex).outline = found.outline := by
  simp [Diagnostic.outline, place, Diagnostic.placeIn, Finding.toDiagnostic, Diagnostic.severity,
    Problem.severity_shift, outline]

namespace Lint

def outlinesAt (memory : Nat) (index : Int) (rules : List BuiltinRule) (requests : List Request) :
    List Diagnostic.Outline :=
  let rules := rules.map (BuiltinRule.toRule memory)
  ((requests.flatMap fun request => (cell rules request).diagnostics).filter
    fun diagnostic => diagnostic.cellIndex == some index).map Diagnostic.outline

private theorem outlinesAt_cons (memory : Nat) (index : Int) (rules : List BuiltinRule)
    (request : Request) (rest : List Request) :
    outlinesAt memory index rules (request :: rest) =
      (if request.cellIndex = some index then
        (reports memory rules request.text request.context).map RuleFinding.outline else []) ++
        outlinesAt memory index rules rest := by
  simp only [outlinesAt, List.flatMap_cons, List.filter_append, List.map_append, diagnostics_cell,
    List.filter_map, Function.comp_def, RuleFinding.cellIndex_place, List.map_map,
    RuleFinding.outline_place]
  split
  · rename_i same
    simp [same]
  · rename_i other
    simp [other]

private theorem outlinesAt_of_lt {index first : Nat} (earlier : index < first) (memory : Nat)
    (rules : List BuiltinRule) (known : KnownNames) (offset : Nat) (texts : List Text) :
    outlinesAt memory index rules (requestsFrom (rules.map (BuiltinRule.toRule memory)) known
      (PlacedCell.numbered first offset texts)) = [] := by
  induction texts generalizing known first offset with
  | nil => rfl
  | cons text rest ih =>
      have other : ¬(some (first : Int) = some (index : Int)) := by
        simp only [Option.some.injEq]
        omega
      simp only [PlacedCell.numbered, requestsFrom]
      rw [outlinesAt_cons, if_neg other, List.nil_append]
      exact ih (Nat.lt_succ_of_lt earlier) _ _

/-- The reports on a cell of a run are those on its text, given the names known before the run and
those that the cells before it make known. -/
theorem exists_context_outlinesAt (memory : Nat) (rules : List BuiltinRule) (known : KnownNames)
    (first offset : Nat) (texts : List Text) (position : Nat) :
    ∃ context : List Text,
      (∀ name, name ∈ context ↔
        name ∈ known.toList ∨
          ∃ earlier ∈ texts.take position, name ∈ namesIn memory rules earlier) ∧
      outlinesAt memory (first + position : Nat) rules
          (requestsFrom (rules.map (BuiltinRule.toRule memory)) known
            (PlacedCell.numbered first offset texts)) =
        texts[position]?.toList.flatMap fun text =>
          (reports memory rules text context).map RuleFinding.outline := by
  induction texts generalizing known first offset position with
  | nil => exact ⟨known.toList, by simp, by simp; rfl⟩
  | cons text rest ih =>
      simp only [PlacedCell.numbered, requestsFrom]
      cases position with
      | zero =>
          refine ⟨known.toList, by simp, ?_⟩
          rw [Nat.add_zero, outlinesAt_cons, if_pos rfl, outlinesAt_of_lt (Nat.lt_succ_self _)]
          simp
      | succ position =>
          have other : ¬(some (first : Int) = some ((first + (position + 1) : Nat) : Int)) := by
            simp only [Option.some.injEq]
            omega
          obtain ⟨context, members, same⟩ := ih
            (known.add (cell (rules.map (BuiltinRule.toRule memory))
              ⟨text, offset, known.toList, some first⟩).defined)
            (first + 1) (offset + Text.lineCount text) position
          refine ⟨context, ?_, ?_⟩
          · intro name
            rw [members name, KnownNames.mem_add, defined_cell]
            simp [or_assoc]
          · rw [outlinesAt_cons, if_neg other, List.nil_append, List.getElem?_cons_succ, ← same,
              Nat.add_assoc, Nat.add_comm 1]

end Lint

namespace Engine

/-- The outlines of the reports that a notebook of the given texts gets on the cell with the given
index. -/
def reportsOn (memory : Nat) (rules : List BuiltinRule) (texts : List Text) (index : Nat) :
    Multiset Diagnostic.Outline :=
  ((((start (rules.map (BuiltinRule.toRule memory))).lintNotebook
    (Percent.numberCells texts)).1.diagnostics.filter
      fun diagnostic => diagnostic.cellIndex == some (index : Int)).map Diagnostic.outline : List _)

private theorem exists_context_reportsOn (memory : Nat) (rules : List BuiltinRule)
    (texts : List Text) (index : Nat) :
    ∃ context : List Text,
      (∀ name, name ∈ context ↔
        ∃ earlier ∈ texts.take index, name ∈ Lint.namesIn memory rules earlier) ∧
      reportsOn memory rules texts index =
        (texts[index]?.toList.flatMap fun text =>
          (Lint.reports memory rules text context).map RuleFinding.outline : List _) := by
  obtain ⟨context, members, same⟩ :=
    Lint.exists_context_outlinesAt memory rules .empty 0 0 texts index
  refine ⟨context, by simpa [KnownNames.empty] using members, ?_⟩
  rw [← same, reportsOn, diagnostics_lintNotebook, Cell.placed_numberCells, Nat.zero_add]
  exact Multiset.coe_eq_coe.mpr (((List.mergeSort_perm _ _).filter _).map _)

/-- The reports on a cell depend on its text and on the names that the cells before it make known,
and there are the fewer the more these are. -/
theorem reportsOn_le {memory : Nat} {rules : List BuiltinRule} {texts others : List Text}
    {index place : Nat}
    (sameText : others[place]? = texts[index]?)
    (known : texts.take index ⊆ others.take place) :
    reportsOn memory rules others place ≤ reportsOn memory rules texts index := by
  obtain ⟨context, members, reported⟩ := exists_context_reportsOn memory rules texts index
  obtain ⟨wider, widerMembers, alsoReported⟩ := exists_context_reportsOn memory rules others place
  have grown : context ⊆ wider := by
    intro name member
    obtain ⟨earlier, before, defines⟩ := (members name).mp member
    exact (widerMembers name).mpr ⟨earlier, known before, defines⟩
  rw [reported, alsoReported, sameText]
  apply Multiset.coe_le.mpr
  apply List.Sublist.subperm
  exact flatMap_sublist _ fun text _ => (Lint.reports_sublist grown memory rules text).map _

/-- A further cell adds no report on the cells of a notebook, and it changes nothing for the cells
before it. -/
theorem reportsOn_insert (memory : Nat) (rules : List BuiltinRule) (before after : List Text)
    (extra : Text) (index : Nat) :
    let place := if index < before.length then index else index + 1
    reportsOn memory rules (before ++ extra :: after) place ≤
        reportsOn memory rules (before ++ after) index ∧
      (index < before.length → reportsOn memory rules (before ++ extra :: after) place =
        reportsOn memory rules (before ++ after) index) := by
  intro place
  by_cases earlier : index < before.length
  · have unmoved : place = index := if_pos earlier
    have sameText : (before ++ extra :: after)[index]? = (before ++ after)[index]? := by
      rw [List.getElem?_append_left earlier, List.getElem?_append_left earlier]
    have sameTexts : (before ++ extra :: after).take index = (before ++ after).take index := by
      rw [List.take_append_of_le_length earlier.le, List.take_append_of_le_length earlier.le]
    have same : reportsOn memory rules (before ++ extra :: after) index =
        reportsOn memory rules (before ++ after) index :=
      le_antisymm (reportsOn_le sameText (by rw [sameTexts]; exact List.Subset.refl _))
        (reportsOn_le sameText.symm (by rw [sameTexts]; exact List.Subset.refl _))
    rw [unmoved]
    exact ⟨same.le, fun _ => same⟩
  · have moved : place = index + 1 := if_neg earlier
    refine ⟨?_, fun first => absurd first earlier⟩
    rw [moved]
    obtain ⟨position, rfl⟩ := Nat.exists_eq_add_of_le (Nat.le_of_not_lt earlier)
    apply reportsOn_le
    · rw [Nat.add_assoc, List.getElem?_append_right (Nat.le_add_right _ _),
        List.getElem?_append_right (Nat.le_add_right _ _), Nat.add_sub_cancel_left,
        Nat.add_sub_cancel_left, List.getElem?_cons_succ]
    · rw [Nat.add_assoc, List.take_length_add_append, List.take_length_add_append,
        List.take_succ_cons]
      intro text member
      rcases List.mem_append.mp member with first | later
      · exact List.mem_append_left _ first
      · exact List.mem_append_right _ (List.mem_cons_of_mem _ later)

/-- A name that only the further cell defines stays unknown to the cell before it, and is reported no
more in the cell after it. -/
theorem reportsOn_insert_definition :
    let memory := 1 <<< 37
    let rules : List BuiltinRule := [.undefinedVariables false]
    let before : List Text := [['b']]
    let extra : Text := "b = 1".toList
    let after : List Text := [['b']]
    let undefined : Diagnostic.Outline := ⟨"undefined_variables", .error, some 1, some 1⟩
    (reportsOn memory rules (before ++ after) 0 = {undefined} ∧
        reportsOn memory rules (before ++ after) 1 = {undefined} ∧
        reportsOn memory rules (before ++ extra :: after) 2 = 0) ∧
      reportsOn memory rules (before ++ extra :: after) 2 ≤
        reportsOn memory rules (before ++ after) 1 ∧
      0 < before.length ∧
      reportsOn memory rules (before ++ extra :: after) 0 =
        reportsOn memory rules (before ++ after) 0 := by
  intro memory rules before extra after undefined
  have first : 0 < before.length := by decide
  exact ⟨by decide +kernel, (reportsOn_insert memory rules before after extra 1).1, first,
    (reportsOn_insert memory rules before after extra 0).2 first⟩

end Engine

end NotebookLint
