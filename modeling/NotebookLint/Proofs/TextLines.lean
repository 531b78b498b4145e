import Mathlib.Data.List.Forall2
import Mathlib.Data.List.TakeWhile
import NotebookLint.Text.Blank

/-! Cutting a text into its lines and joining lines to a text are inverse to each other, the lines of
joined texts are the lines of the texts in order, and a text is blank if its lines are. -/

set_option autoImplicit false

namespace NotebookLint.Text

theorem splitWhen_eq_splitOnP {α : Type} (isSeparator : α → Bool) (list : List α) :
    splitWhen isSeparator list = list.splitOnP isSeparator := by
  induction list with
  | nil => rfl
  | cons head rest ih =>
      rw [splitWhen, List.splitOnP_cons_eq_if_modifyHead, ih]
      cases pieces : rest.splitOnP isSeparator with
      | nil => exact absurd pieces (List.splitOnP_ne_nil isSeparator rest)
      | cons piece others => rfl

theorem splitOn_eq (separator : Char) (text : Text) :
    splitOn separator text = List.splitOn separator text := by
  rw [splitOn, splitWhen_eq_splitOnP, List.splitOn_eq_splitOnP]

theorem join_eq_intercalate (separator : Text) (pieces : List Text) :
    join separator pieces = separator.intercalate pieces := by
  induction pieces with
  | nil => rfl
  | cons piece rest ih =>
      cases rest with
      | nil => simp [join]
      | cons next others => rw [join, ih, List.intercalate_cons_cons, List.append_assoc]

theorem lines_eq_splitOn (text : Text) : lines text = List.splitOn '\n' text :=
  splitOn_eq '\n' text

theorem ofLines_eq_intercalate (pieces : List Text) : ofLines pieces = ['\n'].intercalate pieces :=
  join_eq_intercalate ['\n'] pieces

@[simp] theorem lines_nil : lines [] = [[]] := rfl

theorem lines_ne_nil (text : Text) : lines text ≠ [] := by
  rw [lines_eq_splitOn]
  exact List.splitOn_ne_nil '\n' text

/-- A text without a line break is its own only line. -/
theorem lines_of_not_mem {text : Text} (unbroken : '\n' ∉ text) : lines text = [text] := by
  rw [lines_eq_splitOn, List.splitOn_eq_singleton unbroken]

/-- A line break ends the lines before it and begins those after it. -/
@[simp] theorem lines_append_break (before after : Text) :
    lines (before ++ '\n' :: after) = lines before ++ lines after := by
  simp only [lines_eq_splitOn, List.splitOn_append_cons_self]

@[simp] theorem lines_cons_break (after : Text) : lines ('\n' :: after) = [] :: lines after :=
  lines_append_break [] after

theorem lines_cons_of_ne {char : Char} (visible : char ≠ '\n') (rest : Text) :
    lines (char :: rest) = (lines rest).modifyHead (char :: ·) := by
  rw [lines_eq_splitOn, lines_eq_splitOn, List.splitOn_cons_eq_if_modifyHead]
  simp [visible]

/-- Text without a line break goes to the first of the lines after it. -/
theorem lines_append_of_not_mem {before : Text} (unbroken : '\n' ∉ before) (after : Text) :
    lines (before ++ after) = (lines after).modifyHead (before ++ ·) := by
  induction before with
  | nil =>
      rw [List.nil_append]
      cases lines after <;> rfl
  | cons char rest ih =>
      simp only [List.mem_cons, not_or] at unbroken
      rw [List.cons_append, lines_cons_of_ne (Ne.symm unbroken.1), ih unbroken.2,
        List.modifyHead_modifyHead]
      rfl

theorem ofLines_lines (text : Text) : ofLines (lines text) = text := by
  rw [lines_eq_splitOn, ofLines_eq_intercalate, List.intercalate_splitOn]

theorem length_lines (text : Text) : (lines text).length = lineCount text := by
  induction text with
  | nil => rfl
  | cons char rest ih =>
      by_cases isBreak : char = '\n'
      · subst isBreak
        simp [ih, lineCount]
      · rw [lines_cons_of_ne isBreak, List.length_modifyHead, ih]
        simp [lineCount, isBreak]

/-- The lines of joined texts are the lines of the texts, one after the other. -/
theorem lines_ofLines {texts : List Text} (nonempty : texts ≠ []) :
    lines (ofLines texts) = texts.flatMap lines := by
  induction texts with
  | nil => exact absurd rfl nonempty
  | cons text rest ih =>
      cases rest with
      | nil => simp [ofLines, join]
      | cons next others =>
          have later := ih (List.cons_ne_nil next others)
          rw [ofLines, join, List.append_assoc, List.singleton_append, lines_append_break]
          exact congrArg (lines text ++ ·) later

theorem not_mem_of_mem_splitOn {separator : Char} {text piece : Text}
    (member : piece ∈ splitOn separator text) : separator ∉ piece := by
  unfold splitOn at member
  induction text generalizing piece with
  | nil =>
      obtain rfl : piece = [] := by simpa [splitWhen] using member
      simp
  | cons char rest ih =>
      rw [splitWhen] at member
      split at member
      · rcases List.mem_cons.mp member with rfl | later
        · simp
        · exact ih later
      · rename_i visible
        have other : separator ≠ char := fun same => visible (by rw [same]; exact beq_self_eq_true _)
        split at member
        · obtain rfl : piece = [char] := by simpa using member
          simpa using other
        · rename_i first others split
          rcases List.mem_cons.mp member with rfl | later
          · have unbroken := ih (by rw [split]; exact List.mem_cons_self)
            simp [other, unbroken]
          · exact ih (by rw [split]; exact List.mem_cons_of_mem _ later)

theorem not_mem_of_mem_lines {text line : Text} (member : line ∈ lines text) : '\n' ∉ line :=
  not_mem_of_mem_splitOn member

/-- A text is its first line and what follows, which is nothing or begins with a line break. -/
theorem exists_first_line (text : Text) :
    ∃ line following, text = line ++ following ∧ '\n' ∉ line ∧
      ∀ next ∈ following.head?, next = '\n' := by
  refine ⟨text.takeWhile (· != '\n'), text.dropWhile (· != '\n'),
    List.takeWhile_append_dropWhile.symm, ?_, ?_⟩
  · intro member
    simpa using List.mem_takeWhile_imp member
  · intro next member
    have stops := List.head?_dropWhile_not (· != '\n') text
    rw [Option.mem_def.mp member] at stops
    simpa using stops

/-- Two texts that agree in their line breaks and are related character by character are related
line by line. -/
theorem forall₂_lines {related : Char → Char → Prop}
    (breaks : ∀ left right, related left right → (left = '\n' ↔ right = '\n'))
    {left right : Text} (texts : List.Forall₂ related left right) :
    List.Forall₂ (List.Forall₂ related) (lines left) (lines right) := by
  induction texts with
  | nil => exact .cons .nil .nil
  | @cons first second firsts seconds head tail ih =>
      by_cases isBreak : first = '\n'
      · have alsoBreak := (breaks first second head).mp isBreak
        rw [isBreak, alsoBreak, lines_cons_break, lines_cons_break]
        exact .cons .nil ih
      · have noBreak : second ≠ '\n' := fun equal => isBreak ((breaks first second head).mpr equal)
        rw [lines_cons_of_ne isBreak, lines_cons_of_ne noBreak]
        generalize lines firsts = leftLines at ih ⊢
        generalize lines seconds = rightLines at ih ⊢
        cases ih with
        | nil => exact .nil
        | cons line others => exact .cons (.cons head line) others

/-- Joined lines are blank if all of them are. -/
theorem isBlankText_ofLines (pieces : List Text) :
    isBlankText (ofLines pieces) = pieces.all isBlankText := by
  induction pieces with
  | nil => rfl
  | cons piece rest ih =>
      cases rest with
      | nil => simp [ofLines, join]
      | cons next others =>
          have blank : isBlank '\n' = true := by decide
          rw [List.all_cons, ← ih]
          simp [ofLines, join, isBlankText, blank]

/-- A text is blank if all its lines are. -/
theorem isBlankText_eq_all (source : Text) :
    isBlankText source = (lines source).all isBlankText := by
  rw [← isBlankText_ofLines, ofLines_lines]

end NotebookLint.Text
