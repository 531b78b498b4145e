import NotebookLint.Proofs.Spacing
import NotebookLint.Proofs.Words

/-! Lists whose items are separated by commas. The items may be spelled in any way, and gaps of any
kind may stand around them; what holds of every item and every gap then holds of the list. -/

set_option autoImplicit false

namespace NotebookLint.Text

abbrev Blank (gap : Text) : Prop :=
  isBlankText gap = true

section Grammar

variable {Item : Type} (Spells : Item → Text → Prop) (Gap : Text → Prop)

/-- The texts that list items: each as it is spelled, with a comma after each but the last one. -/
inductive Lists : List Item → Text → Prop
  | last {item : Item} {written gap : Text} (spelled : Spells item written) (ended : Gap gap) :
      Lists [item] (written ++ gap)
  | cons {item : Item} {items : List Item} {written before after list : Text}
      (spelled : Spells item written) (ended : Gap before) (begun : Gap after)
      (later : Lists items list) :
      Lists (item :: items) (written ++ (before ++ ',' :: (after ++ list)))

/-- What may follow the last item of a list. -/
inductive Closes : Text → Prop
  | bare : Closes []
  | comma {gap : Text} (begun : Gap gap) : Closes (',' :: gap)

end Grammar

namespace Lists

variable {Item : Type} {Spells : Item → Text → Prop} {Gap : Text → Prop} {items : List Item}
  {list : Text}

theorem ne_nil (lists : Lists Spells Gap items list) : items ≠ [] := by
  cases lists with
  | last => exact List.cons_ne_nil _ _
  | cons => exact List.cons_ne_nil _ _

theorem exists_first (lists : Lists Spells Gap items list) :
    ∃ item written rest, Spells item written ∧ list = written ++ rest := by
  cases lists with
  | last spelled ended => exact ⟨_, _, _, spelled, rfl⟩
  | cons spelled ended begun later => exact ⟨_, _, _, spelled, rfl⟩

theorem exists_written (lists : Lists Spells Gap items list) {item : Item}
    (member : item ∈ items) : ∃ written, Spells item written := by
  induction lists with
  | last spelled ended =>
      rw [List.mem_singleton.mp member]
      exact ⟨_, spelled⟩
  | cons spelled ended begun _ ih =>
      rcases List.mem_cons.mp member with rfl | later
      · exact ⟨_, spelled⟩
      · exact ih later

theorem imp {Wider : Text → Prop} (wider : ∀ gap, Gap gap → Wider gap)
    (lists : Lists Spells Gap items list) : Lists Spells Wider items list := by
  induction lists with
  | last spelled ended => exact .last spelled (wider _ ended)
  | cons spelled ended begun _ ih => exact .cons spelled (wider _ ended) (wider _ begun) ih

theorem forall_mem {holds : Char → Prop} (comma : holds ',')
    (inItems : ∀ item written, Spells item written → ∀ char ∈ written, holds char)
    (inGaps : ∀ gap, Gap gap → ∀ char ∈ gap, holds char) (lists : Lists Spells Gap items list) :
    ∀ char ∈ list, holds char := by
  induction lists with
  | last spelled ended =>
      intro char inside
      exact (List.mem_append.mp inside).elim (inItems _ _ spelled char) (inGaps _ ended char)
  | cons spelled ended begun _ ih =>
      intro char inside
      simp only [List.mem_append, List.mem_cons] at inside
      rcases inside with inWritten | inBefore | rfl | inAfter | inList
      · exact inItems _ _ spelled char inWritten
      · exact inGaps _ ended char inBefore
      · exact comma
      · exact inGaps _ begun char inAfter
      · exact ih char inList

theorem not_mem {sign : Char} (noComma : sign ≠ ',')
    (inItems : ∀ item written, Spells item written → sign ∉ written)
    (inGaps : ∀ gap, Gap gap → sign ∉ gap) (lists : Lists Spells Gap items list) : sign ∉ list := by
  intro inside
  have differs : ∀ text : Text, sign ∉ text → ∀ char ∈ text, char ≠ sign := by
    rintro text absent char inText rfl
    exact absent inText
  exact lists.forall_mem noComma.symm (fun item written spelled => differs _ (inItems _ _ spelled))
    (fun gap isGap => differs _ (inGaps _ isGap)) sign inside rfl

theorem words_eq {wordsOf : Item → List Text}
    (inItems : ∀ item written, Spells item written → (words written).map Word.text = wordsOf item)
    (inGaps : ∀ gap, Gap gap → ∀ char ∈ gap, isWordChar char = false)
    (lists : Lists Spells Gap items list) :
    (words list).map Word.text = items.flatMap wordsOf := by
  induction lists with
  | last spelled ended =>
      rw [map_text_words_append_separators (inGaps _ ended), inItems _ _ spelled]
      simp
  | cons spelled ended begun _ ih =>
      have comma : isWordChar ',' = false := by decide
      rw [← List.append_assoc, map_text_words_append comma,
        map_text_words_append_separators (inGaps _ ended),
        map_text_words_separators_append (inGaps _ begun), inItems _ _ spelled, ih,
        List.flatMap_cons]

/-- Cutting a list at its commas gives the items as they are spelled. -/
theorem forall₂_splitOn (noComma : ∀ item written, Spells item written → ',' ∉ written)
    (trimmed : ∀ item written, Spells item written → ∀ before after, Blank before → Blank after →
      trim (before ++ (written ++ after)) = written)
    (lists : Lists Spells Blank items list) {before after : Text} (blankBefore : Blank before)
    (blankAfter : Blank after) :
    List.Forall₂ Spells items ((splitOn ',' (before ++ (list ++ after))).map trim) := by
  have inBlanks : ∀ gap, Blank gap → ',' ∉ gap := fun gap => not_mem_of_isBlankText (by decide)
  induction lists generalizing before with
  | @last item written gap spelled ended =>
      have single : ',' ∉ before ++ (written ++ (gap ++ after)) := by
        simp [inBlanks _ blankBefore, inBlanks _ ended, inBlanks _ blankAfter, noComma _ _ spelled]
      have blank : Blank (gap ++ after) := by rw [Blank, isBlankText_append, ended, blankAfter]; rfl
      rw [List.append_assoc, splitOn_eq, List.splitOn_eq_singleton single, List.map_singleton,
        trimmed _ _ spelled _ _ blankBefore blank]
      exact .cons spelled .nil
  | @cons item items written gap next list spelled ended begun _ ih =>
      have single : ',' ∉ before ++ (written ++ gap) := by
        simp [inBlanks _ blankBefore, inBlanks _ ended, noComma _ _ spelled]
      have split : before ++ (written ++ (gap ++ ',' :: (next ++ list)) ++ after) =
          (before ++ (written ++ gap)) ++ ',' :: (next ++ (list ++ after)) := by
        simp
      rw [split, splitOn_eq, List.splitOn_append_cons_self, List.splitOn_eq_singleton single,
        ← splitOn_eq, List.map_append, List.map_singleton,
        trimmed _ _ spelled _ _ blankBefore ended]
      exact .cons spelled (ih begun)

end Lists

end NotebookLint.Text
