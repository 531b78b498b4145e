import Mathlib.Algebra.Ring.Int.Defs
import NotebookLint.Proofs.ScanRestart
import NotebookLint.Rules.UnclosedBrackets

/-! Bracket depth and nesting. The depth at which a code line begins is counted line by line, from
the difference between the openers and closers of each line. This agrees with the number of brackets
that are open there as long as closers find openers before them, as they do in a text whose brackets
are balanced and properly nested. -/

set_option autoImplicit false

namespace NotebookLint

open UnclosedBrackets (closerOf)

namespace Text

/-! ## Differences -/

@[simp] theorem bracketDelta_nil : bracketDelta [] = 0 := rfl

@[simp] theorem bracketDelta_cons (char : Char) (rest : Text) :
    bracketDelta (char :: rest) = bracketValue char + bracketDelta rest := rfl

@[simp] theorem bracketDelta_append (before after : Text) :
    bracketDelta (before ++ after) = bracketDelta before + bracketDelta after := by
  induction before with
  | nil => simp
  | cons char rest ih => simp [ih, Int.add_assoc]

theorem not_isCloser_of_isOpener {char : Char} (opens : isOpener char = true) :
    isCloser char = false := by
  simp only [isOpener, Bool.or_eq_true, beq_iff_eq] at opens
  rcases opens with (rfl | rfl) | rfl <;> rfl

/-- The depth to which a text leads is the difference between its openers and its closers. -/
theorem bracketDelta_eq_sub (text : Text) :
    bracketDelta text = text.countP isOpener - (text.countP isCloser : Int) := by
  induction text with
  | nil => rfl
  | cons char rest ih =>
      rw [bracketDelta_cons, ih, bracketValue, List.countP_cons, List.countP_cons]
      cases opens : isOpener char with
      | true =>
          simp only [not_isCloser_of_isOpener opens, if_true, Bool.false_eq_true, if_false]
          omega
      | false =>
          cases closes : isCloser char with
          | true => simp only [if_true, Bool.false_eq_true, if_false]; omega
          | false => simp only [Bool.false_eq_true, if_false]; omega

theorem bracketDelta_filter_break (text : Text) :
    bracketDelta (text.filter (· != '\n')) = bracketDelta text := by
  induction text with
  | nil => rfl
  | cons char rest ih =>
      by_cases isBreak : char = '\n'
      · subst isBreak
        have noBracket : bracketValue '\n' = 0 := rfl
        simpa [noBracket] using ih
      · simpa [isBreak] using ih

theorem bracketDelta_congr {left right : Text}
    (same : left.map bracketValue = right.map bracketValue) :
    bracketDelta left = bracketDelta right := by
  have summed : ∀ text, bracketDelta text = (text.map bracketValue).foldr (· + ·) 0 := fun text =>
    List.foldr_map.symm
  rw [summed, summed, same]

/-- The lines of a text hold all of it but the line breaks. -/
theorem flatten_lines (text : Text) : (lines text).flatten = text.filter (· != '\n') := by
  induction text with
  | nil => rfl
  | cons char rest ih =>
      by_cases isBreak : char = '\n'
      · subst isBreak
        simpa using ih
      · rw [lines_cons_of_ne isBreak]
        obtain ⟨first, others, split⟩ := List.exists_cons_of_ne_nil (lines_ne_nil rest)
        rw [split] at ih ⊢
        simpa [isBreak] using ih

/-- The lines of a text leave open what the text leaves open. -/
theorem sum_bracketDelta_lines (text : Text) :
    ((lines text).map bracketDelta).sum = bracketDelta text := by
  have flattened : ∀ texts : List Text, (texts.map bracketDelta).sum = bracketDelta texts.flatten := by
    intro texts
    induction texts with
    | nil => rfl
    | cons line rest ih =>
        rw [List.map_cons, List.sum_cons, ih, List.flatten_cons, bracketDelta_append]
  rw [flattened, flatten_lines, bracketDelta_filter_break]

/-- Nowhere in a text are more brackets closed than those it opened before and `depth` others. -/
def StaysOpen (depth : Nat) (text : Text) : Prop :=
  ∀ before, before <+: text → 0 ≤ depth + bracketDelta before

theorem staysOpen_nil {depth : Nat} : StaysOpen depth [] := by
  intro before isPrefix
  rw [List.prefix_nil.mp isPrefix]
  simp

theorem StaysOpen.cons {depth inner : Nat} {char : Char} {rest : Text}
    (level : (inner : Int) = depth + bracketValue char) (stays : StaysOpen inner rest) :
    StaysOpen depth (char :: rest) := by
  intro before isPrefix
  cases before with
  | nil => simp
  | cons first others =>
      obtain ⟨rfl, later⟩ := List.cons_prefix_cons.mp isPrefix
      have bound := stays others later
      rw [bracketDelta_cons]
      omega

theorem StaysOpen.congr {depth : Nat} {left right : Text} (stays : StaysOpen depth left)
    (same : left.map bracketValue = right.map bracketValue) : StaysOpen depth right := by
  intro before isPrefix
  have taken : before = right.take before.length := List.prefix_iff_eq_take.mp isPrefix
  have equal : bracketDelta (left.take before.length) = bracketDelta before := by
    apply bracketDelta_congr
    rw [List.map_take, same, ← List.map_take, ← taken]
  rw [← equal]
  exact stays _ (List.take_prefix _ _)

theorem StaysOpen.filter_break {depth : Nat} {text : Text} (stays : StaysOpen depth text) :
    StaysOpen depth (text.filter (· != '\n')) := by
  rintro before ⟨after, split⟩
  obtain ⟨first, second, rfl, rfl, rfl⟩ := List.filter_eq_append_iff.mp split.symm
  rw [bracketDelta_filter_break]
  exact stays first (List.prefix_append _ _)

theorem StaysOpen.depthAfter {depth : Nat} {before after : Text}
    (stays : StaysOpen depth (before ++ after)) :
    (depthAfter depth before : Int) = depth + bracketDelta before ∧
      StaysOpen (depthAfter depth before) after := by
  have counted : (Text.depthAfter depth before : Int) = depth + bracketDelta before :=
    Int.toNat_of_nonneg (stays before (List.prefix_append _ _))
  refine ⟨counted, ?_⟩
  intro further isPrefix
  have bound := stays (before ++ further) ((List.prefix_append_right_inj before).mpr isPrefix)
  rw [bracketDelta_append] at bound
  omega

end Text

namespace CodeLine

/-- The bracket depth after lines that are entered at the given depth. Directives leave it alone. -/
def depthAfterLines (depth : Nat) : List SourceLine → Nat
  | [] => depth
  | line :: rest =>
      if SourceLine.isDirective line.raw then depthAfterLines depth rest
      else depthAfterLines (Text.depthAfter depth line.clean) rest

theorem ofLines_append (depth : Nat) (lines more : List SourceLine) :
    ofLines depth (lines ++ more) =
      ofLines depth lines ++ ofLines (depthAfterLines depth lines) more := by
  induction lines generalizing depth with
  | nil => rfl
  | cons line rest ih =>
      simp only [List.cons_append, ofLines, depthAfterLines]
      split
      · exact ih depth
      · rw [ih, List.cons_append]

/-- The last code line ends at the depth that all lines lead to. -/
theorem endDepth_of_getLast? {depth : Nat} {lines : List SourceLine} {last : CodeLine}
    (found : (ofLines depth lines).getLast? = some last) :
    last.endDepth = depthAfterLines depth lines := by
  induction lines generalizing depth with
  | nil => cases found
  | cons line rest ih =>
      simp only [ofLines, depthAfterLines] at found ⊢
      split
      · rename_i directive
        rw [if_pos directive] at found
        exact ih found
      · rename_i code
        rw [if_neg code] at found
        cases rest with
        | nil =>
            cases found
            rfl
        | cons next others =>
            rw [List.getLast?_cons] at found
            cases later : (ofLines (Text.depthAfter depth line.clean) (next :: others)).getLast? with
            | some final =>
                rw [later] at found
                cases found
                exact ih later
            | none =>
                -- All further lines are directives.
                rw [later] at found
                cases found
                have empty := List.getLast?_eq_none_iff.mp later
                generalize next :: others = further at empty
                clear ih later
                induction further with
                | nil => rfl
                | cons line rest ih =>
                    simp only [ofLines] at empty
                    split at empty
                    · rename_i directive
                      rw [depthAfterLines, if_pos directive]
                      exact ih empty
                    · cases empty

/-- Where closers find openers and directives close what they open, the depth that is counted line
by line is the number of open brackets. -/
theorem depthAfterLines_eq {depth : Nat} {lines : List SourceLine}
    (neutral : ∀ line ∈ lines, SourceLine.isDirective line.raw = true →
      Text.bracketDelta line.clean = 0)
    (stays : Text.StaysOpen depth (lines.map SourceLine.clean).flatten) :
    (depthAfterLines depth lines : Int) =
      depth + Text.bracketDelta (lines.map SourceLine.clean).flatten := by
  induction lines generalizing depth with
  | nil => simp [depthAfterLines]
  | cons line rest ih =>
      have neutralRest : ∀ other ∈ rest, SourceLine.isDirective other.raw = true →
          Text.bracketDelta other.clean = 0 := fun other inside => neutral other (by simp [inside])
      rw [List.map_cons, List.flatten_cons] at stays ⊢
      obtain ⟨counted, staysRest⟩ := stays.depthAfter
      rw [Text.bracketDelta_append, depthAfterLines]
      split
      · rename_i directive
        have none := neutral line (by simp) directive
        have unchanged : Text.depthAfter depth line.clean = depth := by omega
        rw [unchanged] at staysRest
        rw [ih neutralRest staysRest]
        omega
      · rw [ih neutralRest staysRest, counted]
        omega

end CodeLine

namespace CodeLine

/-- A code line of a cell that is placed below other lines. -/
def moveDown (lines : Nat) (line : CodeLine) : CodeLine :=
  { line with number := line.number + lines }

theorem ofLines_moveDown (lines depth : Nat) (source : List SourceLine) :
    ofLines depth (source.map (SourceLine.moveDown lines)) =
      (ofLines depth source).map (moveDown lines) := by
  induction source generalizing depth with
  | nil => rfl
  | cons line rest ih =>
      simp only [List.map_cons, ofLines, SourceLine.moveDown]
      split
      · exact ih depth
      · rw [List.map_cons, ← ih]
        rfl

end CodeLine

/-- The code lines of a text that is cut outside literals and brackets are those of its parts. -/
theorem Text.codeLines_of_scan {before after : Text}
    (restarts : Glyph.scan (before ++ '\n' :: after) =
      Glyph.scan before ++ ⟨'\n', .code⟩ :: Glyph.scan after)
    (closed : CodeLine.depthAfterLines 0 (sourceLines before) = 0) :
    codeLines (before ++ '\n' :: after) =
      codeLines before ++ (codeLines after).map (CodeLine.moveDown (lineCount before)) := by
  rw [codeLines, sourceLines_of_scan restarts, CodeLine.ofLines_append, closed,
    CodeLine.ofLines_moveDown]
  rfl

/-! ## Nesting -/

namespace Text

/-- A text whose brackets are balanced and properly nested: every opener is closed by a bracket of
its kind, with a nested text between them. -/
inductive Nested : Text → Prop
  | nil : Nested []
  | plain {char : Char} {rest : Text} (noOpener : isOpener char = false)
      (noCloser : isCloser char = false) (later : Nested rest) : Nested (char :: rest)
  | enclosed {opener : Char} {inner rest : Text} (opens : isOpener opener = true)
      (inside : Nested inner) (later : Nested rest) :
      Nested (opener :: (inner ++ closerOf opener :: rest))

/-- Whether a text closes the given openers, the innermost first, and those that it holds, each by a
bracket of its kind. -/
def closes : (opened : List Char) → Text → Bool
  | opened, [] => opened.isEmpty
  | opened, char :: rest =>
      if isOpener char then closes (char :: opened) rest
      else if isCloser char then
        match opened with
        | [] => false
        | opener :: outer => closerOf opener == char && closes outer rest
      else closes opened rest

theorem closes_cons (opened : List Char) (char : Char) (rest : Text) :
    closes opened (char :: rest) =
      if isOpener char then closes (char :: opened) rest
      else if isCloser char then
        match opened with
        | [] => false
        | opener :: outer => closerOf opener == char && closes outer rest
      else closes opened rest := by
  cases opened <;> rfl

private theorem closerOf_isCloser (opener : Char) :
    isCloser (closerOf opener) = true ∧ isOpener (closerOf opener) = false := by
  unfold closerOf
  split
  · decide
  · split <;> decide

/-- A nested text closes none of the brackets around it. -/
theorem Nested.closes_append {text : Text} (nested : Nested text) (opened : List Char)
    (rest : Text) : closes opened (text ++ rest) = closes opened rest := by
  induction nested generalizing opened rest with
  | nil => rfl
  | plain noOpener noCloser later ih =>
      rw [List.cons_append, closes_cons, noOpener, noCloser]
      simpa using ih opened rest
  | @enclosed opener inner others opens inside later insideIh laterIh =>
      obtain ⟨isCloser, noOpener⟩ := closerOf_isCloser opener
      rw [List.cons_append, closes_cons, if_pos opens, List.append_assoc, insideIh,
        List.cons_append, closes_cons]
      simpa [isCloser, noOpener] using laterIh opened rest

/-- What closes openers is made of one nested text for each of them, up to its closer, and a last
one. -/
private def Segmented : (opened : List Char) → Text → Prop
  | [], text => Nested text
  | opener :: outer, text =>
      ∃ inner rest, text = inner ++ closerOf opener :: rest ∧ Nested inner ∧ Segmented outer rest

private theorem Segmented.prepend (before : Text) (extend : ∀ {text}, Nested text →
    Nested (before ++ text)) {opened : List Char} {text : Text} (segments : Segmented opened text) :
    Segmented opened (before ++ text) := by
  cases opened with
  | nil => exact extend segments
  | cons opener outer =>
      obtain ⟨inner, rest, rfl, nested, later⟩ := segments
      exact ⟨before ++ inner, rest, by simp, extend nested, later⟩

private theorem segmented_of_closes {opened : List Char} {text : Text}
    (closed : closes opened text = true) : Segmented opened text := by
  induction text generalizing opened with
  | nil =>
      obtain rfl : opened = [] := by simpa [closes] using closed
      exact .nil
  | cons char rest ih =>
      rw [closes_cons] at closed
      split at closed
      · rename_i opens
        obtain ⟨inner, others, rfl, nested, later⟩ := ih closed
        have enclosed := later.prepend (char :: inner ++ [closerOf char]) fun tail => by
          simpa using Nested.enclosed opens nested tail
        simpa using enclosed
      · rename_i noOpener
        split at closed
        · cases opened with
          | nil => cases closed
          | cons opener outer =>
              simp only [Bool.and_eq_true, beq_iff_eq] at closed
              exact ⟨[], rest, by rw [closed.1]; rfl, .nil, ih closed.2⟩
        · rename_i noCloser
          exact (ih closed).prepend [char] fun tail =>
            .plain (by simpa using noOpener) (by simpa using noCloser) tail

theorem nested_iff_closes (text : Text) : Nested text ↔ closes [] text = true := by
  constructor
  · intro nested
    have alone := nested.closes_append [] []
    rwa [List.append_nil] at alone
  · exact segmented_of_closes

instance (text : Text) : Decidable (Nested text) :=
  decidable_of_iff' _ (nested_iff_closes text)

/-- The openers that a text leaves to the rest, as many as it opens more than it closes. -/
theorem exists_opened_of_closes {opened : List Char} (before : Text) {after : Text}
    (closed : closes opened (before ++ after) = true) :
    ∃ still, closes still after = true ∧
      (still.length : Int) = opened.length + bracketDelta before := by
  induction before generalizing opened with
  | nil => exact ⟨opened, closed, by simp⟩
  | cons char rest ih =>
      rw [List.cons_append, closes_cons] at closed
      rw [bracketDelta_cons, bracketValue]
      split at closed
      · rename_i opens
        obtain ⟨still, later, count⟩ := ih closed
        refine ⟨still, later, ?_⟩
        rw [if_pos opens, count, List.length_cons]
        omega
      · rename_i noOpener
        split at closed
        · rename_i isCloser
          cases opened with
          | nil => cases closed
          | cons opener outer =>
              simp only [Bool.and_eq_true] at closed
              obtain ⟨still, later, count⟩ := ih closed.2
              refine ⟨still, later, ?_⟩
              rw [if_neg noOpener, if_pos isCloser, count, List.length_cons]
              omega
        · rename_i noCloser
          obtain ⟨still, later, count⟩ := ih closed
          refine ⟨still, later, ?_⟩
          rw [if_neg noOpener, if_neg noCloser, count]
          omega

theorem staysOpen_of_closes {opened : List Char} {text : Text}
    (closed : closes opened text = true) : StaysOpen opened.length text := by
  rintro before ⟨after, rfl⟩
  obtain ⟨still, -, count⟩ := exists_opened_of_closes _ closed
  omega

theorem bracketDelta_of_closes {opened : List Char} {text : Text}
    (closed : closes opened text = true) : (opened.length : Int) + bracketDelta text = 0 := by
  rw [← List.append_nil text] at closed
  obtain ⟨still, ended, count⟩ := exists_opened_of_closes _ closed
  obtain rfl : still = [] := by simpa [closes] using ended
  exact count.symm

/-- An opener is followed by a closer of its kind. -/
theorem closerOf_mem_of_closes {opened : List Char} {text : Text}
    (closed : closes opened text = true) {opener : Char} (member : opener ∈ opened) :
    closerOf opener ∈ text := by
  induction text generalizing opened with
  | nil =>
      obtain rfl : opened = [] := by simpa [closes] using closed
      cases member
  | cons char rest ih =>
      rw [closes_cons] at closed
      split at closed
      · exact List.mem_cons_of_mem _ (ih closed (List.mem_cons_of_mem _ member))
      · split at closed
        · cases opened with
          | nil => cases closed
          | cons first outer =>
              simp only [Bool.and_eq_true, beq_iff_eq] at closed
              rcases List.mem_cons.mp member with rfl | further
              · rw [closed.1]
                exact List.mem_cons_self
              · exact List.mem_cons_of_mem _ (ih closed.2 further)
        · exact List.mem_cons_of_mem _ (ih closed member)

theorem closes_filter_break (opened : List Char) (text : Text) :
    closes opened (text.filter (· != '\n')) = closes opened text := by
  induction text generalizing opened with
  | nil => rfl
  | cons char rest ih =>
      by_cases isBreak : char = '\n'
      · subst isBreak
        simpa [closes_cons, isOpener, isCloser] using ih opened
      · have kept : (char :: rest).filter (· != '\n') = char :: rest.filter (· != '\n') := by
          simp [isBreak]
        simp only [kept, closes_cons, ih]

end Text

end NotebookLint
