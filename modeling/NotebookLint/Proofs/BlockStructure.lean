import NotebookLint.Proofs.Scan
import NotebookLint.Rules.Builtin

/-! Which cells are well indented. The indentation rule follows blocks with a stack of indents. It
reports nothing about blocks exactly on the cells whose compared lines satisfy a condition that
mentions no stack: a line after a colon is deeper than the line before it, and any other line is not
deeper and returns to the indent of the last line that was no deeper than itself. -/

set_option autoImplicit false

namespace NotebookLint.IndentationErrors

/-! ## Well-indented cells -/

/-- Whether a line has a say in how the lines after it are read: it begins inside a literal, or it
is neither blank nor a directive. -/
def counts (line : SourceLine) : Bool :=
  line.interior || !isPassive line

def countedLines (source : Text) : List SourceLine :=
  (Text.sourceLines source).filter counts

/-- The number of brackets open behind lines; closers without an opener do not count. -/
def openBrackets (before : List SourceLine) : Nat :=
  before.foldl (fun depth line => Text.depthAfter depth line.clean) 0

def endsInBackslash (before : List SourceLine) : Bool :=
  before.getLast?.any fun line => Text.endsWithBackslash line.clean

def endsInColon (before : List SourceLine) : Bool :=
  before.getLast?.any fun line => Text.lastVisible? line.clean == some ':'

/-- Whether a line that follows the given ones goes on with a literal, a bracket or a backslash. Any
other line is compared. -/
def goesOn (before : List SourceLine) (line : SourceLine) : Bool :=
  line.interior || 0 < openBrackets before || endsInBackslash before

/-- The indents of the compared lines among those that follow the given ones. -/
def comparedIndents (tabWidth : Nat) (before : List SourceLine) : List SourceLine → List Nat
  | [] => []
  | line :: rest =>
      if goesOn before line then comparedIndents tabWidth (before ++ [line]) rest
      else Text.indentWidth tabWidth line.raw :: comparedIndents tabWidth (before ++ [line]) rest

/-- Whether a compared line may have the given indent. The compared lines before it have the indents
`earlier`, beginning with the indent zero of the cell itself, and `opensBlock` says that the line
before it ends in a colon. -/
def Fits (opensBlock : Bool) (earlier : List Nat) (indent : Nat) : Prop :=
  if opensBlock then ∀ last ∈ earlier.getLast?, last < indent
  else (∀ last ∈ earlier.getLast?, indent ≤ last) ∧
    earlier.reverse.find? (fun other => other ≤ indent) = some indent

/-- Whether a line may stand behind the given ones: it is not compared, or its indent fits. -/
def MayFollow (tabWidth : Nat) (before : List SourceLine) (line : SourceLine) : Prop :=
  goesOn before line = false →
    Fits (endsInColon before) (0 :: comparedIndents tabWidth [] before)
      (Text.indentWidth tabWidth line.raw)

/-- Whether every compared line of a cell has an indent that fits. -/
def WellIndented (tabWidth : Nat) (source : Text) : Prop :=
  ∀ before line after, countedLines source = before ++ line :: after →
    MayFollow tabWidth before line

def blockMessages : List String :=
  ["Expected indented block after colon", "Unexpected indent",
    "Unindent does not match any outer indentation level"]

/-! ## Lines in order -/

@[simp] theorem openBrackets_concat (before : List SourceLine) (line : SourceLine) :
    openBrackets (before ++ [line]) = Text.depthAfter (openBrackets before) line.clean := by
  simp [openBrackets]

@[simp] theorem endsInBackslash_concat (before : List SourceLine) (line : SourceLine) :
    endsInBackslash (before ++ [line]) = Text.endsWithBackslash line.clean := by
  simp [endsInBackslash]

@[simp] theorem endsInColon_concat (before : List SourceLine) (line : SourceLine) :
    endsInColon (before ++ [line]) = (Text.lastVisible? line.clean == some ':') := by
  simp [endsInColon]

theorem comparedIndents_concat (tabWidth : Nat) (before lines : List SourceLine)
    (line : SourceLine) :
    comparedIndents tabWidth before (lines ++ [line]) =
      comparedIndents tabWidth before lines ++
        if goesOn (before ++ lines) line then [] else [Text.indentWidth tabWidth line.raw] := by
  induction lines generalizing before with
  | nil => simp only [List.nil_append, comparedIndents, List.append_nil]
  | cons first rest ih =>
      have later := ih (before ++ [first])
      rw [List.append_assoc, List.singleton_append] at later
      simp only [List.cons_append, comparedIndents, later]
      split <;> rfl

/-! ## The stack -/

namespace State

/-- The stack of indents, the cell's own indent first. -/
def stack (state : State) : List Nat :=
  0 :: state.levels.reverse

/-- Whether the open blocks are indented deeper from the cell inwards. -/
def Ordered (state : State) : Prop :=
  (state.levels ++ [0]).Pairwise (· > ·)

theorem Ordered.pairwise_stack {state : State} (ordered : state.Ordered) :
    state.stack.Pairwise (· < ·) := by
  have reversed := List.pairwise_reverse.mpr ordered
  simpa [stack] using reversed

/-- The innermost open block is the deepest. -/
theorem Ordered.le_currentIndent {state : State} (ordered : state.Ordered) :
    ∀ level ∈ state.levels ++ [0], level ≤ state.currentIndent := by
  unfold Ordered at ordered
  unfold currentIndent
  cases split : state.levels with
  | nil => simp
  | cons innermost outer =>
      rw [split, List.cons_append, List.pairwise_cons] at ordered
      rw [List.cons_append, List.forall_mem_cons]
      exact ⟨Nat.le_refl _, fun level member => Nat.le_of_lt (ordered.1 level member)⟩

/-- A block is opened inside all others, and blocks are closed from the innermost on. -/
theorem Ordered.compare {state : State} (ordered : state.Ordered) (indent : Nat) :
    ((state.compare indent).2 ++ [0]).Pairwise (· > ·) := by
  have opened : state.currentIndent < indent →
      (indent :: state.levels ++ [0]).Pairwise (· > ·) := by
    intro deeper
    rw [List.cons_append, List.pairwise_cons]
    refine ⟨fun level member => ?_, ordered⟩
    exact Nat.lt_of_le_of_lt (ordered.le_currentIndent level member) deeper
  unfold State.compare
  split
  · split
    · exact ordered
    · rename_i deeper
      exact opened (Nat.lt_of_not_le deeper)
  · split
    · rename_i deeper
      exact opened deeper
    · exact ordered.sublist ((List.dropWhile_sublist _).append_right [0])

end State

/-- Every line keeps the stack in order. -/
theorem State.Ordered.step {state : State} (ordered : state.Ordered) (tabWidth : Nat)
    (dominant : Option IndentStyle) (line : SourceLine) :
    (step tabWidth dominant state line).2.Ordered := by
  unfold IndentationErrors.step
  split
  · exact ordered
  · split
    · exact ordered
    · dsimp only
      split
      · exact ordered
      · exact ordered.compare _

def run (tabWidth : Nat) (dominant : Option IndentStyle) (state : State)
    (lines : List SourceLine) : State :=
  lines.foldl (fun state line => (step tabWidth dominant state line).2) state

theorem findingsFrom_cons (tabWidth : Nat) (dominant : Option IndentStyle) (state : State)
    (line : SourceLine) (rest : List SourceLine) :
    findingsFrom tabWidth dominant state (line :: rest) =
      (step tabWidth dominant state line).1.map (fun problem => ⟨problem, line.number, none⟩) ++
        findingsFrom tabWidth dominant (step tabWidth dominant state line).2 rest := rfl

theorem findingsFrom_append (tabWidth : Nat) (dominant : Option IndentStyle) (state : State)
    (before after : List SourceLine) :
    findingsFrom tabWidth dominant state (before ++ after) =
      findingsFrom tabWidth dominant state before ++
        findingsFrom tabWidth dominant (run tabWidth dominant state before) after := by
  induction before generalizing state with
  | nil => rfl
  | cons line rest ih =>
      rw [List.cons_append, findingsFrom_cons, findingsFrom_cons, ih, List.append_assoc]
      rfl

/-- The stack is in order throughout every run. -/
theorem State.Ordered.run {state : State} (ordered : state.Ordered) (tabWidth : Nat)
    (dominant : Option IndentStyle) (lines : List SourceLine) :
    (run tabWidth dominant state lines).Ordered := by
  induction lines generalizing state with
  | nil => exact ordered
  | cons line rest ih => exact ih (ordered.step tabWidth dominant line)

/-! ## What is reported -/

theorem styleProblem?_cases {dominant : Option IndentStyle} {indent : Text} {problem : Problem}
    (found : styleProblem? dominant indent = some problem) :
    problem = .mixedIndent ∨ ∃ style, problem = .foreignIndent style := by
  unfold styleProblem? at found
  split at found
  · exact .inl (Option.some.inj found).symm
  · split at found
    · split at found
      · exact .inr ⟨_, (Option.some.inj found).symm⟩
      · cases found
    · split at found
      · exact .inr ⟨_, (Option.some.inj found).symm⟩
      · cases found
    · cases found

theorem spaceProblem?_cases {indent : Text} {problem : Problem}
    (found : spaceProblem? indent = some problem) : ∃ spaces, problem = .oddIndent spaces := by
  unfold spaceProblem? at found
  split at found
  · exact ⟨_, (Option.some.inj found).symm⟩
  · cases found

theorem compare_cases {state : State} {indent : Nat} {problem : Problem}
    (found : (state.compare indent).1 = some problem) :
    problem = .missingBlock ∨ problem = .unexpectedIndent ∨ problem = .unmatchedUnindent := by
  unfold State.compare at found
  split at found
  · split at found
    · exact .inl (Option.some.inj found).symm
    · cases found
  · split at found
    · exact .inr (.inl (Option.some.inj found).symm)
    · dsimp only at found
      split at found
      · cases found
      · exact .inr (.inr (Option.some.inj found).symm)

theorem message_of_styleProblem? {dominant : Option IndentStyle} {indent : Text} {problem : Problem}
    (found : styleProblem? dominant indent = some problem) : problem.message ∉ blockMessages := by
  rcases styleProblem?_cases found with rfl | ⟨style, rfl⟩
  · decide
  · cases style <;> decide

theorem message_of_spaceProblem? {indent : Text} {problem : Problem}
    (found : spaceProblem? indent = some problem) : problem.message ∉ blockMessages := by
  obtain ⟨spaces, rfl⟩ := spaceProblem?_cases found
  have opening : "Inconsistent indentation: " = "Inconsistent" ++ " indentation: " := by decide
  have written : (Problem.oddIndent spaces).message = "Inconsistent" ++
      (" indentation: " ++ toString spaces ++ " spaces (expected multiple of 2 or 4)") := by
    simp only [← String.append_assoc, ← opening]
    rfl
  have apart : ∀ message ∈ blockMessages, ¬ "Inconsistent".toList <+: message.toList := by decide
  intro listed
  apply apart _ listed
  rw [written, String.toList_append]
  exact List.prefix_append _ _

theorem message_of_compare {state : State} {indent : Nat} {problem : Problem}
    (found : (state.compare indent).1 = some problem) : problem.message ∈ blockMessages := by
  rcases compare_cases found with rfl | rfl | rfl <;> decide

/-- No finding of the rule cites a line. -/
theorem shift_of_mem_step {tabWidth : Nat} {dominant : Option IndentStyle} {state : State}
    {line : SourceLine} {problem : Problem}
    (member : problem ∈ (step tabWidth dominant state line).1) (lines : Int) :
    problem.shift lines = problem := by
  have styled : styleProblem? dominant (Text.indent line.raw) = some problem →
      problem.shift lines = problem := by
    intro found
    rcases styleProblem?_cases found with rfl | ⟨style, rfl⟩ <;> rfl
  unfold step at member
  split at member
  · simp at member
  · split at member
    · simp at member
    · dsimp only at member
      split at member
      · exact styled (Option.mem_toList.mp member)
      · simp only [List.mem_append, Option.mem_toList] at member
        rcases member with (found | found) | found
        · exact styled found
        · rcases compare_cases found with rfl | rfl | rfl <;> rfl
        · obtain ⟨spaces, rfl⟩ := spaceProblem?_cases found
          rfl

theorem shift_of_mem_findingsFrom {tabWidth : Nat} {dominant : Option IndentStyle} {state : State}
    {lines : List SourceLine} {finding : Finding}
    (member : finding ∈ findingsFrom tabWidth dominant state lines) (offset : Int) :
    finding.problem.shift offset = finding.problem := by
  induction lines generalizing state with
  | nil => simp [findingsFrom] at member
  | cons line rest ih =>
      rw [findingsFrom_cons, List.mem_append] at member
      rcases member with here | later
      · obtain ⟨problem, found, rfl⟩ := List.mem_map.mp here
        exact shift_of_mem_step found offset
      · exact ih later

/-! ## The stack and the compared lines -/

/-- Whether the open blocks are what indents leave open: for every indent, the innermost block that is
no deeper has the indent of the last line that was no deeper. -/
structure Encloses (levels indents : List Nat) : Prop where
  current : indents.getLast? = some (levels.headD 0)
  level : ∀ indent, indents.reverse.find? (fun other => other ≤ indent) =
    some ((levels.dropWhile fun level => level > indent).headD 0)

private theorem dropWhile_dropWhile_of_lt {low high : Nat} (lower : low < high)
    (levels : List Nat) :
    (levels.dropWhile fun level => level > high).dropWhile (fun level => level > low) =
      levels.dropWhile fun level => level > low := by
  induction levels with
  | nil => rfl
  | cons level rest ih =>
      by_cases deep : level > high
      · have deeper : level > low := Nat.lt_trans lower deep
        simpa [deep, deeper] using ih
      · simp [deep]

/-- A line that opens a block. -/
theorem Encloses.opened {levels indents : List Nat} (encloses : Encloses levels indents)
    (indent : Nat) : Encloses (indent :: levels) (indents ++ [indent]) where
  current := by simp
  level other := by
    rw [List.reverse_append, List.reverse_singleton, List.singleton_append, List.find?_cons,
      List.dropWhile_cons]
    by_cases deeper : indent ≤ other
    · simp [deeper, Nat.not_lt.mpr deeper]
    · simpa [deeper, Nat.lt_of_not_le deeper] using encloses.level other

/-- A line that returns to an open block. -/
theorem Encloses.returned {levels indents : List Nat} (encloses : Encloses levels indents)
    {indent : Nat} (found : (levels.dropWhile fun level => level > indent).headD 0 = indent) :
    Encloses (levels.dropWhile fun level => level > indent) (indents ++ [indent]) where
  current := by rw [List.getLast?_concat, found]
  level other := by
    rw [List.reverse_append, List.reverse_singleton, List.singleton_append, List.find?_cons]
    by_cases deeper : indent ≤ other
    · have kept : ((levels.dropWhile fun level => level > indent).dropWhile
          fun level => level > other) = levels.dropWhile fun level => level > indent := by
        generalize levels.dropWhile (fun level => level > indent) = rest at found
        cases rest with
        | nil => rfl
        | cons level _ =>
            obtain rfl : level = indent := found
            simp [Nat.not_lt.mpr deeper]
      rw [kept, found]
      simp [deeper]
    · rw [dropWhile_dropWhile_of_lt (Nat.lt_of_not_le deeper)]
      simpa [deeper] using encloses.level other

/-- The comparison with the stack finds nothing exactly if the indent fits, and then the stack goes
on with what the indents leave open. -/
theorem Encloses.compare {state : State} {indents : List Nat}
    (encloses : Encloses state.levels indents) (indent : Nat) :
    ((state.compare indent).1 = none ↔ Fits state.expectsBlock indents indent) ∧
      ((state.compare indent).1 = none →
        Encloses (state.compare indent).2 (indents ++ [indent])) := by
  have last : indents.getLast? = some state.currentIndent := encloses.current
  unfold State.compare Fits
  cases state.expectsBlock with
  | true =>
      by_cases deeper : indent ≤ state.currentIndent
      · simp [last, deeper]
      · simpa [last, deeper, Nat.lt_of_not_le deeper] using encloses.opened indent
  | false =>
      by_cases deeper : indent > state.currentIndent
      · simp [last, deeper, Nat.not_le.mpr deeper]
      · have level := encloses.level indent
        have noDeeper : ∀ other ∈ indents.getLast?, indent ≤ other := by
          simpa [last] using deeper
        simp only [Bool.false_eq_true, if_false, if_neg deeper]
        by_cases found : (state.levels.dropWhile fun level => level > indent).headD 0 = indent
        · simp only [if_pos found]
          refine ⟨iff_of_true trivial ⟨noDeeper, ?_⟩, fun _ => encloses.returned found⟩
          rw [level, found]
        · simp only [if_neg found]
          refine ⟨iff_of_false nofun fun fits => ?_, nofun⟩
          exact found (Option.some.inj (level.symm.trans fits.2))

/-! ## Whole runs -/

/-- Whether a state is the one behind lines that count, with the stack that these leave open. -/
structure State.Follows (tabWidth : Nat) (state : State) (before : List SourceLine) : Prop where
  depth : state.depth = openBrackets before
  continued : state.continued = endsInBackslash before
  expectsBlock : state.expectsBlock = endsInColon before
  encloses : Encloses state.levels (0 :: comparedIndents tabWidth [] before)

theorem State.follows_initial (tabWidth : Nat) : State.initial.Follows tabWidth [] where
  depth := rfl
  continued := rfl
  expectsBlock := rfl
  encloses := ⟨rfl, fun indent => by simp [State.initial, comparedIndents]⟩

/-- A line with the stack that it leaves is followed by the state that it moves to. -/
theorem State.Follows.pass {tabWidth : Nat} {state : State} {before : List SourceLine}
    (follows : state.Follows tabWidth before) {line : SourceLine} {levels : List Nat}
    (encloses : Encloses levels (0 :: comparedIndents tabWidth [] (before ++ [line]))) :
    State.Follows tabWidth { state.pass line.clean with levels } (before ++ [line]) where
  depth := by rw [openBrackets_concat, ← follows.depth]; rfl
  continued := (endsInBackslash_concat before line).symm
  expectsBlock := (endsInColon_concat before line).symm
  encloses := encloses

/-- A line goes on where it begins inside a literal or the state waits for the end of something. -/
theorem State.Follows.goesOn_eq {tabWidth : Nat} {state : State} {before : List SourceLine}
    (follows : state.Follows tabWidth before) (line : SourceLine) :
    goesOn before line = (line.interior || (state.depth > 0 || state.continued)) := by
  rw [goesOn, Bool.or_assoc, follows.depth, follows.continued]

theorem silent_style (dominant : Option IndentStyle) (indent : Text) :
    ∀ problem ∈ (styleProblem? dominant indent).toList, problem.message ∉ blockMessages :=
  fun _ member => message_of_styleProblem? (Option.mem_toList.mp member)

theorem silent_space (indent : Text) :
    ∀ problem ∈ (spaceProblem? indent).toList, problem.message ∉ blockMessages :=
  fun _ member => message_of_spaceProblem? (Option.mem_toList.mp member)

/-- On a line that goes on with something nothing is said about blocks, and the stack stays. -/
theorem State.Follows.step_of_goesOn {tabWidth : Nat} {state : State} {before : List SourceLine}
    (follows : state.Follows tabWidth before) {line : SourceLine} (counted : counts line = true)
    (continues : goesOn before line = true) (dominant : Option IndentStyle) :
    (∀ problem ∈ (step tabWidth dominant state line).1, problem.message ∉ blockMessages) ∧
      (IndentationErrors.step tabWidth dominant state line).2.Follows tabWidth
        (before ++ [line]) := by
  have passed : Encloses state.levels (0 :: comparedIndents tabWidth [] (before ++ [line])) := by
    rw [comparedIndents_concat, List.nil_append, if_pos continues, List.append_nil]
    exact follows.encloses
  rw [follows.goesOn_eq] at continues
  unfold IndentationErrors.step
  by_cases interior : line.interior = true
  · rw [if_pos interior]
    exact ⟨by simp, follows.pass passed⟩
  · have active : isPassive line = false := by simpa [counts, interior] using counted
    have suspended : (state.depth > 0 || state.continued) = true := by
      simpa [interior] using continues
    rw [if_neg interior, active]
    simp only [Bool.false_eq_true, if_false, if_pos suspended]
    exact ⟨silent_style dominant _, follows.pass passed⟩

/-- On a compared line nothing is said about blocks exactly if its indent fits. -/
theorem State.Follows.step_of_compared {tabWidth : Nat} {state : State}
    {before : List SourceLine} (follows : state.Follows tabWidth before) {line : SourceLine}
    (counted : counts line = true) (compared : goesOn before line = false)
    (dominant : Option IndentStyle) :
    let fits := Fits (endsInColon before) (0 :: comparedIndents tabWidth [] before)
      (Text.indentWidth tabWidth line.raw)
    ((∀ problem ∈ (step tabWidth dominant state line).1, problem.message ∉ blockMessages) ↔
        fits) ∧
      (fits → (IndentationErrors.step tabWidth dominant state line).2.Follows tabWidth
        (before ++ [line])) := by
  intro fits
  obtain ⟨exterior, moving⟩ := Bool.or_eq_false_iff.mp (follows.goesOn_eq line ▸ compared)
  have active : isPassive line = false := by simpa [counts, exterior] using counted
  obtain ⟨silent, enclosed⟩ := follows.encloses.compare (Text.indentWidth tabWidth line.raw)
  rw [follows.expectsBlock] at silent
  unfold IndentationErrors.step
  simp only [exterior, active, moving, Bool.false_eq_true, if_false]
  constructor
  · refine Iff.trans ?_ silent
    constructor
    · intro quiet
      rw [Option.eq_none_iff_forall_ne_some]
      intro problem found
      exact quiet problem (by simp [found]) (message_of_compare found)
    · intro none problem member
      rw [none, Option.toList_none, List.append_nil, List.mem_append] at member
      exact member.elim (silent_style dominant _ problem) (silent_space _ problem)
  · intro fitting
    apply follows.pass
    rw [comparedIndents_concat, List.nil_append, compared]
    exact enclosed (silent.mpr fitting)

/-- One line: nothing is said about blocks exactly if the line may stand where it does, and then the
state follows the lines that count so far. -/
theorem State.Follows.step {tabWidth : Nat} {state : State} {before : List SourceLine}
    (follows : state.Follows tabWidth before) {line : SourceLine} (counted : counts line = true)
    (dominant : Option IndentStyle) :
    ((∀ problem ∈ (step tabWidth dominant state line).1, problem.message ∉ blockMessages) ↔
        MayFollow tabWidth before line) ∧
      (MayFollow tabWidth before line →
        (IndentationErrors.step tabWidth dominant state line).2.Follows tabWidth
          (before ++ [line])) := by
  cases continues : goesOn before line with
  | true =>
      obtain ⟨silent, next⟩ := follows.step_of_goesOn counted continues dominant
      have may : MayFollow tabWidth before line := by simp [MayFollow, continues]
      exact ⟨iff_of_true silent may, fun _ => next⟩
  | false =>
      have may : MayFollow tabWidth before line ↔
          Fits (endsInColon before) (0 :: comparedIndents tabWidth [] before)
            (Text.indentWidth tabWidth line.raw) := by
        rw [MayFollow, continues]
        exact ⟨fun fits => fits rfl, fun fits _ => fits⟩
      rw [may]
      exact follows.step_of_compared counted continues dominant

/-- Nothing is said about blocks on lines exactly if all those that count may stand where they
do. -/
theorem State.Follows.silent_iff {tabWidth : Nat} {state : State} {before : List SourceLine}
    (follows : state.Follows tabWidth before) (dominant : Option IndentStyle)
    (lines : List SourceLine) :
    (∀ finding ∈ findingsFrom tabWidth dominant state lines,
        finding.problem.message ∉ blockMessages) ↔
      ∀ middle line after, lines.filter counts = middle ++ line :: after →
        MayFollow tabWidth (before ++ middle) line := by
  induction lines generalizing state before with
  | nil => simp [findingsFrom]
  | cons line rest ih =>
      rw [findingsFrom_cons, List.forall_mem_append, List.forall_mem_map]
      cases counted : counts line with
      | true =>
          obtain ⟨silent, next⟩ := follows.step counted dominant
          rw [List.filter_cons_of_pos counted, forall_split_cons, silent]
          exact and_congr_right fun may => ih (next may)
      | false =>
          have passive : IndentationErrors.step tabWidth dominant state line = ([], state) := by
            obtain ⟨exterior, passive⟩ : line.interior = false ∧ isPassive line = true := by
              simpa [counts] using counted
            simp [IndentationErrors.step, exterior, passive]
          rw [List.filter_cons_of_neg (by simp [counted]), passive, ← ih follows]
          simp

structure ChecksBlocks (tabWidth : Nat) (source : Text) : Prop where
  accepts : (∀ finding ∈ findings tabWidth source, finding.problem.message ∉ blockMessages) ↔
    WellIndented tabWidth source
  /-- A check reports what is found, unless a tab cannot be laid out. -/
  checked : ∀ memory offset context,
    match ((BuiltinRule.indentationErrors tabWidth).toRule memory).check source offset context with
    | .ok diagnostics => (∀ diagnostic ∈ diagnostics, diagnostic.message ∉ blockMessages) ↔
        WellIndented tabWidth source
    | .error _ => memory ≤ tabWidth ∨ BuiltinRule.tabWidthLimit ≤ tabWidth
  /-- Wherever a run is interrupted, the stack begins with zero and goes up. -/
  increasing : ∀ before after, Text.sourceLines source = before ++ after →
    let dominant := dominantStyle? (Text.sourceLines source)
    let state := run tabWidth dominant .initial before
    findings tabWidth source = findingsFrom tabWidth dominant .initial before ++
        findingsFrom tabWidth dominant state after ∧
      state.stack.head? = some 0 ∧ state.stack.Pairwise (· < ·)

/-- A check fails exactly if it measures an indent and a tab is too wide for that. -/
theorem fault?_indentationErrors (memory tabWidth : Nat) (source : Text) :
    (BuiltinRule.indentationErrors tabWidth).fault? memory source =
      if measuresIndent source = true ∧
          (memory ≤ tabWidth ∨ BuiltinRule.tabWidthLimit ≤ tabWidth) then
        some (if BuiltinRule.tabWidthLimit ≤ tabWidth then .tabTooWide else .outOfMemory)
      else none := by
  simp only [BuiltinRule.fault?, BuiltinRule.tabFault?]
  by_cases measured : measuresIndent source = true
  · by_cases tooWide : BuiltinRule.tabWidthLimit ≤ tabWidth
    · simp only [measured, tooWide, or_true, and_self, if_true]
    · simp only [measured, tooWide, or_false, true_and, if_true, if_false]
  · rw [if_neg measured, if_neg fun both => measured both.1]

/-- The rule says nothing about blocks exactly if the cell is well indented, and its stack of indents
is strictly increasing throughout. -/
theorem checksBlocks (tabWidth : Nat) (source : Text) : ChecksBlocks tabWidth source := by
  have accepts : (∀ finding ∈ findings tabWidth source,
      finding.problem.message ∉ blockMessages) ↔ WellIndented tabWidth source := by
    simpa [findings, WellIndented, countedLines] using
      (State.follows_initial tabWidth).silent_iff (dominantStyle? (Text.sourceLines source))
        (Text.sourceLines source)
  refine ⟨accepts, ?_, ?_⟩
  · intro memory offset context
    simp only [BuiltinRule.toRule]
    cases faulty : (BuiltinRule.indentationErrors tabWidth).fault? memory source with
    | some fault =>
        rw [fault?_indentationErrors] at faulty
        split at faulty
        · rename_i tooWide
          exact tooWide.2
        · cases faulty
    | none =>
        dsimp only
        rw [← accepts, List.forall_mem_map]
        refine forall₂_congr fun finding member => ?_
        have same := shift_of_mem_findingsFrom member offset
        simp only [Diagnostic.message, Finding.toDiagnostic, same]
  · intro before after split
    have ordered : State.initial.Ordered := by simp [State.Ordered, State.initial]
    refine ⟨?_, rfl, (ordered.run _ _ before).pairwise_stack⟩
    rw [← findingsFrom_append, ← split]
    rfl

end NotebookLint.IndentationErrors
