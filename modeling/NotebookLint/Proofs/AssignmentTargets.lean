import NotebookLint.Proofs.BindingSpacing
import NotebookLint.Proofs.CommaLists

/-! Chained assignments. Each group of targets is read up to its equals sign, whatever stars, commas,
parentheses and blanks it is written with, so the next one is read from behind that sign. The loop over
the groups comes to an end on every line, and the names of all groups are among those that it gives. -/

set_option autoImplicit false

namespace NotebookLint.Names

open Text

/-! ## The loop over the groups -/

/-- The runs of the loop that reads groups of targets, each behind the equals sign of the one before,
until none begins. -/
inductive Runs : Text → List Text → Prop
  | stop {text : Text} (ended : targetGroup? text = none) : Runs text []
  | step {text rest : Text} {names later : List Text}
      (read : targetGroup? text = some (names, rest)) (goesOn : Runs rest later) :
      Runs text (names ++ later)

/-- The loop comes to an end on every text: each group takes characters. -/
theorem runs_chainedTargets {fuel : Nat} {text : Text} (enough : text.length < fuel) :
    Runs text (chainedTargets fuel text) := by
  induction fuel generalizing text with
  | zero => exact absurd enough (Nat.not_lt_zero _)
  | succ fuel ih =>
      rw [chainedTargets]
      cases read : targetGroup? text with
      | none => exact .stop read
      | some pair =>
          have shorter := length_lt_of_targetGroup? read
          exact .step read (ih (by omega))

theorem Runs.unique {text : Text} {names others : List Text} (run : Runs text names)
    (other : Runs text others) : others = names := by
  induction run generalizing others with
  | stop ended =>
      cases other with
      | stop => rfl
      | step read => rw [ended] at read; cases read
  | step read _ ih =>
      cases other with
      | stop ended => rw [ended] at read; cases read
      | step otherRead goesOn =>
          rw [read] at otherRead
          cases otherRead
          rw [ih goesOn]

/-! ## Written assignments -/

/-- The texts of a target: a name that is no keyword, possibly starred. -/
inductive Targets (name : Text) : Text → Prop
  | bare (named : isName name = true) (free : isKeyword name = false) : Targets name name
  | starred (named : isName name = true) (free : isKeyword name = false) :
      Targets name ('*' :: name)

/-- The texts of a group of targets, in parentheses or not. -/
inductive Groups (names : List Text) : Text → Prop
  | bare {list closing : Text} (lists : Lists Targets Blank names list)
      (closes : Closes Blank closing) : Groups names (list ++ closing)
  | enclosed {gap list closing : Text} (inset : Blank gap)
      (lists : Lists Targets Blank names list) (closes : Closes Blank closing) :
      Groups names ('(' :: (gap ++ (list ++ (closing ++ [')']))))

/-- The lines that assign a value to groups of targets. -/
inductive Chains : List (List Text) → Text → Prop
  | last {names : List Text} {margin group gap value : Text} (inset : Blank margin)
      (written : Groups names group) (spaced : Blank gap)
      (single : (trimLeft value).head? ≠ some '=') :
      Chains [names] (margin ++ (group ++ (gap ++ '=' :: value)))
  | cons {names : List Text} {groups : List (List Text)} {margin group gap rest : Text}
      (inset : Blank margin) (written : Groups names group) (spaced : Blank gap)
      (later : Chains groups rest) :
      Chains (names :: groups) (margin ++ (group ++ (gap ++ '=' :: rest)))

namespace Targets

variable {name written : Text}

theorem isName_eq (target : Targets name written) : isName name = true := by
  cases target with
  | bare named => exact named
  | starred named => exact named

theorem isKeyword_eq (target : Targets name written) : isKeyword name = false := by
  cases target with
  | bare _ free => exact free
  | starred _ free => exact free

theorem begins (target : Targets name written) :
    ∃ first others, written = first :: others ∧ isBlank first = false ∧ first ∉ ['(', '='] := by
  cases target with
  | bare named =>
      obtain ⟨first, others, rfl, starts, -⟩ := exists_of_isName named
      refine ⟨first, others, rfl, not_isBlank_of_isWordChar (isWordChar_of_isNameStart starts), ?_⟩
      simp only [List.mem_cons, List.not_mem_nil, or_false, not_or]
      constructor <;> rintro rfl <;> exact absurd starts (by decide)
  | starred => exact ⟨'*', name, rfl, by decide, by decide⟩

theorem target?_append (target : Targets name written) {rest : Text}
    (ended : ∀ char ∈ rest.head?, isWordChar char = false) :
    target? (written ++ rest) = some (name, rest) := by
  obtain ⟨first, others, split, starts, letters⟩ := exists_of_isName target.isName_eq
  have begins : name.head?.any isNameStart = true := by rw [split]; simpa using starts
  cases target with
  | bare named =>
      rw [target?, skipChar_of_isName (by decide) named, name?_append begins letters ended]
  | starred =>
      have star : skipChar '*' ('*' :: name ++ rest) = name ++ rest := rfl
      rw [target?, star, name?_append begins letters ended]

end Targets

/-! ## Reading a group -/

theorem trimLeft_blank_append {gap : Text} (blank : Blank gap) (text : Text) :
    trimLeft (gap ++ text) = trimLeft text := by
  rw [trimLeft, List.dropWhile_append_of_pos (List.all_eq_true.mp blank)]
  rfl

theorem not_isWordChar_of_head? {gap : Text} (blank : Blank gap) {rest : Text}
    (ended : ∀ char ∈ rest.head?, isWordChar char = false) :
    ∀ char ∈ (gap ++ rest).head?, isWordChar char = false := by
  cases gap with
  | nil => exact ended
  | cons char others =>
      rintro char ⟨⟩
      exact not_isWordChar_of_isBlank (List.all_eq_true.mp blank char List.mem_cons_self)

theorem skipChar_of_ne {expected char : Char} (differs : char ≠ expected) (rest : Text) :
    skipChar expected (char :: rest) = char :: rest := by
  simp [skipChar, char?, differs]

/-- What follows the last target of a group: its parenthesis, if it has one, and the equals sign. -/
inductive Signs (value : Text) : Text → Prop
  | bare {gap : Text} (spaced : Blank gap) : Signs value (gap ++ '=' :: value)
  | closed {gap : Text} (spaced : Blank gap) : Signs value (')' :: (gap ++ '=' :: value))

namespace Signs

variable {value ending : Text}

theorem exists_trimLeft (signs : Signs value ending) :
    ∃ sign rest, trimLeft ending = sign :: rest ∧ sign ∈ [')', '='] := by
  cases signs with
  | bare spaced =>
      rw [trimLeft_blank_append spaced]
      exact ⟨'=', value, rfl, by decide⟩
  | closed spaced => exact ⟨')', _, rfl, by decide⟩

theorem head?_ending (signs : Signs value ending) :
    ∀ char ∈ ending.head?, isWordChar char = false := by
  cases signs with
  | closed spaced => rintro char ⟨⟩; decide
  | bare spaced => exact not_isWordChar_of_head? spaced (by rintro char ⟨⟩; decide)

theorem assignSign?_eq (signs : Signs value ending) (single : value.head? ≠ some '=') :
    assignSign? (skipChar ')' (trimLeft ending)) = some value := by
  have read : ∀ {gap : Text}, Blank gap → assignSign? (gap ++ '=' :: value) = some value := by
    intro gap spaced
    have start : trimLeft (gap ++ '=' :: value) = '=' :: value := trimLeft_blank_append spaced _
    simpa [assignSign?, start, char?] using single
  cases signs with
  | bare spaced =>
      rw [trimLeft_blank_append spaced]
      have none : Blank [] := rfl
      exact read none
  | closed spaced => exact read spaced

theorem nextTarget?_eq (signs : Signs value ending) {closing : Text}
    (closes : Closes Blank closing) {gap : Text} (blank : Blank gap) :
    nextTarget? (gap ++ (closing ++ ending)) = none := by
  obtain ⟨sign, rest, start, special⟩ := signs.exists_trimLeft
  simp only [List.mem_cons, List.not_mem_nil, or_false] at special
  rw [nextTarget?, trimLeft_blank_append blank]
  cases closes with
  | bare =>
      rw [List.nil_append, start]
      rcases special with rfl | rfl <;> rfl
  | @comma next begun =>
      have comma : char? ',' (trimLeft (',' :: next ++ ending)) = some (next ++ ending) := rfl
      rw [comma, Option.bind_some, trimLeft_blank_append begun, start]
      rcases special with rfl | rfl <;> rfl

theorem afterGroup?_eq (signs : Signs value ending) (single : value.head? ≠ some '=')
    {closing : Text} (closes : Closes Blank closing) {gap : Text} (blank : Blank gap) :
    afterGroup? (gap ++ (closing ++ ending)) = some value := by
  obtain ⟨sign, rest, start, special⟩ := signs.exists_trimLeft
  have plain : sign ≠ ',' ∧ isBlank sign = false := by
    simp only [List.mem_cons, List.not_mem_nil, or_false] at special
    rcases special with rfl | rfl <;> decide
  have visible : trimLeft (sign :: rest) = sign :: rest := trimLeft_cons_of_visible plain.2 rest
  rw [afterGroup?, trimLeft_blank_append blank]
  cases closes with
  | bare =>
      rw [List.nil_append, start, skipChar_of_ne plain.1, visible, ← start]
      exact signs.assignSign?_eq single
  | @comma next begun =>
      have comma : skipChar ',' (trimLeft (',' :: next ++ ending)) = next ++ ending := rfl
      rw [comma, trimLeft_blank_append begun]
      exact signs.assignSign?_eq single

end Signs

/-- Reading the targets of a list takes all of them, up to the gap behind the last one. -/
theorem exists_target?_lists {names : List Text} {list rest : Text}
    (lists : Lists Targets Blank names list)
    (ended : ∀ char ∈ rest.head?, isWordChar char = false)
    (last : ∀ gap, Blank gap → nextTarget? (gap ++ rest) = none) :
    ∃ first others after gap, names = first :: others ∧ Blank gap ∧
      target? (list ++ rest) = some (first, after) ∧
        ∀ fuel, after.length ≤ fuel → furtherTargets fuel after = (others, gap ++ rest) := by
  induction lists with
  | @last name written gap spelled blank =>
      refine ⟨name, [], gap ++ rest, gap, rfl, blank, ?_, ?_⟩
      · rw [List.append_assoc]
        exact spelled.target?_append (not_isWordChar_of_head? blank ended)
      · intro fuel _
        cases fuel with
        | zero => rfl
        | succ fuel => rw [furtherTargets_succ, last gap blank]
  | @cons name names written before after list spelled blankBefore blankAfter later ih =>
      obtain ⟨second, others, following, gap, rfl, blank, target, further⟩ := ih
      obtain ⟨item, secondWritten, tail, secondSpelled, listBegins⟩ := later.exists_first
      obtain ⟨char, more, split, visible, -⟩ := secondSpelled.begins
      let behind := before ++ ',' :: (after ++ (list ++ rest))
      have next : nextTarget? behind = some (second, following) := by
        have comma : char? ',' (trimLeft (',' :: (after ++ (list ++ rest)))) =
            some (after ++ (list ++ rest)) := rfl
        have start : trimLeft (list ++ rest) = list ++ rest := by
          rw [listBegins, split]
          exact trimLeft_cons_of_visible visible _
        rw [nextTarget?, trimLeft_blank_append blankBefore, comma, Option.bind_some,
          trimLeft_blank_append blankAfter, start, target]
      refine ⟨name, second :: others, behind, gap, rfl, blank, ?_, ?_⟩
      · have whole : written ++ (before ++ ',' :: (after ++ list)) ++ rest = written ++ behind := by
          simp [behind]
        rw [whole]
        apply spelled.target?_append
        apply not_isWordChar_of_head? blankBefore
        rintro char ⟨⟩
        decide
      · intro fuel enough
        have shorter := length_lt_of_nextTarget? next
        cases fuel with
        | zero => omega
        | succ fuel =>
            have laterTargets := further fuel (by omega)
            simp only [furtherTargets_succ, next, laterTargets]

theorem targetGroup?_append {names : List Text} {margin group gap value : Text}
    (inset : Blank margin) (written : Groups names group) (spaced : Blank gap)
    (single : value.head? ≠ some '=') :
    targetGroup? (margin ++ (group ++ (gap ++ '=' :: value))) = some (names, value) := by
  -- Inside the parenthesis or without one, the targets are followed by what ends the group.
  have read : ∀ {list closing ending : Text}, Lists Targets Blank names list →
      Closes Blank closing → Signs value ending → ∀ {text : Text},
      trimLeft (skipChar '(' (trimLeft text)) = list ++ (closing ++ ending) →
        targetGroup? text = some (names, value) := by
    intro list closing ending lists closes signs text start
    have ended : ∀ char ∈ (closing ++ ending).head?, isWordChar char = false := by
      cases closes with
      | bare => exact signs.head?_ending
      | comma => rintro char ⟨⟩; decide
    obtain ⟨first, others, after, last, rfl, blank, target, further⟩ :=
      exists_target?_lists lists ended fun gap blank => signs.nextTarget?_eq closes blank
    rw [targetGroup?_eq, start, target, Option.bind_some, further _ (Nat.le_refl _),
      signs.afterGroup?_eq single closes blank]
    rfl
  have begins : ∀ {list : Text}, Lists Targets Blank names list → ∀ rest,
      trimLeft (list ++ rest) = list ++ rest ∧ skipChar '(' (list ++ rest) = list ++ rest := by
    intro list lists rest
    obtain ⟨name, target, tail, spelled, rfl⟩ := lists.exists_first
    obtain ⟨first, others, rfl, visible, special⟩ := spelled.begins
    constructor
    · exact trimLeft_cons_of_visible visible _
    · apply skipChar_of_ne
      rintro rfl
      exact special (by decide)
  cases written with
  | bare lists closes =>
      apply read lists closes (.bare spaced)
      rw [List.append_assoc, trimLeft_blank_append inset, (begins lists _).1, (begins lists _).2,
        (begins lists _).1]
  | @enclosed inner list closing inGap lists closes =>
      apply read lists closes (.closed spaced)
      have text : '(' :: (inner ++ (list ++ (closing ++ [')']))) ++ (gap ++ '=' :: value) =
          '(' :: (inner ++ (list ++ (closing ++ ')' :: (gap ++ '=' :: value)))) := by
        simp
      have parenthesis : ∀ rest : Text, skipChar '(' (trimLeft ('(' :: rest)) = rest := fun _ => rfl
      rw [trimLeft_blank_append inset, text, parenthesis, trimLeft_blank_append inGap,
        (begins lists _).1]

/-! ## The names of a line -/

theorem Groups.isKeyword_eq {names : List Text} {group : Text} (written : Groups names group) :
    ∀ name ∈ names, isKeyword name = false := by
  intro name member
  have listed : ∀ {list : Text}, Lists Targets Blank names list → isKeyword name = false := by
    intro list lists
    obtain ⟨target, spelled⟩ := lists.exists_written member
    exact spelled.isKeyword_eq
  cases written with
  | bare lists => exact listed lists
  | enclosed _ lists => exact listed lists

theorem Groups.head?_ne {names : List Text} {group : Text} (written : Groups names group)
    {margin : Text} (inset : Blank margin) (rest : Text) :
    (margin ++ (group ++ rest)).head? ≠ some '=' := by
  cases margin with
  | cons char others =>
      rintro ⟨⟩
      exact absurd (List.all_eq_true.mp inset '=' List.mem_cons_self) (by decide)
  | nil =>
      cases written with
      | enclosed => exact fun first => absurd (Option.some.inj first) (by decide)
      | bare lists =>
          obtain ⟨name, target, tail, spelled, rfl⟩ := lists.exists_first
          obtain ⟨first, others, rfl, -, special⟩ := spelled.begins
          rintro ⟨⟩
          exact special (by decide)

namespace Chains

variable {groups : List (List Text)} {line : Text}

theorem head?_ne (chains : Chains groups line) : line.head? ≠ some '=' := by
  cases chains with
  | last inset written => exact written.head?_ne inset _
  | cons inset written => exact written.head?_ne inset _

theorem isKeyword_eq (chains : Chains groups line) :
    ∀ names ∈ groups, ∀ name ∈ names, isKeyword name = false := by
  induction chains with
  | last _ written =>
      intro names member
      rw [List.mem_singleton.mp member]
      exact written.isKeyword_eq
  | cons _ written _ _ ih =>
      intro names member
      rcases List.mem_cons.mp member with rfl | later
      · exact written.isKeyword_eq
      · exact ih names later

/-- The loop reads the groups of a line one after another, and then what it finds in the value. -/
theorem exists_runs (chains : Chains groups line) :
    ∃ later, Runs line (groups.flatten ++ later) := by
  induction chains with
  | @last names margin group gap value inset written spaced single =>
      have undoubled : value.head? ≠ some '=' := by
        intro doubled
        have visible : ∀ char ∈ value.head?, isBlank char = false := by
          rw [doubled]
          rintro char ⟨⟩
          rfl
        rw [trimLeft_of_visible visible] at single
        exact single doubled
      have read := targetGroup?_append inset written spaced undoubled
      have value := runs_chainedTargets (Nat.lt_succ_self value.length)
      exact ⟨_, by simpa using Runs.step read value⟩
  | cons inset written spaced next ih =>
      obtain ⟨later, goesOn⟩ := ih
      have read := targetGroup?_append inset written spaced next.head?_ne
      exact ⟨later, by simpa using Runs.step read goesOn⟩

end Chains

/-- The names of a line are those that the loop over its groups gives when it has come to its end, and
the one that the line annotates. -/
theorem exists_runs_assignmentTargets (line : Text) :
    ∃ targets, (∀ other, Runs line other ↔ other = targets) ∧ assignmentTargets line =
      (targets ++ (annotated? line).toList).filter fun name => !isKeyword name := by
  have run := runs_chainedTargets (Nat.lt_succ_self line.length)
  refine ⟨_, ?_, rfl⟩
  intro other
  constructor
  · exact run.unique
  · intro same
    rw [same]
    exact run

/-- The loop comes to an end on a chained assignment, and the line binds every name of its groups. -/
theorem assignmentTargets_of_chains {groups : List (List Text)} {line : Text}
    (chains : Chains groups line) :
    (∃ targets, (∀ other, Runs line other ↔ other = targets) ∧ assignmentTargets line =
        (targets ++ (annotated? line).toList).filter fun name => !isKeyword name) ∧
      ∀ names ∈ groups, ∀ name ∈ names, name ∈ assignmentTargets line := by
  obtain ⟨later, run⟩ := chains.exists_runs
  obtain ⟨targets, runs, bound⟩ := exists_runs_assignmentTargets line
  refine ⟨⟨targets, runs, bound⟩, ?_⟩
  intro names group name member
  have inTargets : name ∈ targets := by
    rw [← (runs _).mp run]
    exact List.mem_append_left _ (List.mem_flatten.mpr ⟨names, group, member⟩)
  rw [bound, List.mem_filter]
  exact ⟨List.mem_append_left _ inTargets, by simp [chains.isKeyword_eq names group name member]⟩

/-- Two groups, the first of them in parentheses with a star and a comma at its end. -/
theorem assignmentTargets_of_chains_starred :
    let line : Text := " ( a, *bs , ) =c = d == e".toList
    Chains [[['a'], ['b', 's']], [['c']]] line ∧
      (∃ targets, (∀ other, Runs line other ↔ other = targets) ∧ assignmentTargets line =
        (targets ++ (annotated? line).toList).filter fun name => !isKeyword name) ∧
      ['a'] ∈ assignmentTargets line ∧ ['b', 's'] ∈ assignmentTargets line ∧
        ['c'] ∈ assignmentTargets line := by
  intro line
  have none : Blank [] := rfl
  have space : Blank [' '] := rfl
  have free : ∀ name ∈ [['a'], ['b', 's'], ['c']], isName name = true ∧ isKeyword name = false := by
    decide +kernel
  have a : Targets ['a'] ['a'] := .bare (free _ (by decide)).1 (free _ (by decide)).2
  have bs : Targets ['b', 's'] ['*', 'b', 's'] :=
    .starred (free _ (by decide)).1 (free _ (by decide)).2
  have c : Targets ['c'] ['c'] := .bare (free _ (by decide)).1 (free _ (by decide)).2
  have visible : (trimLeft " d == e".toList).head? ≠ some '=' := by decide
  have chains : Chains [[['a'], ['b', 's']], [['c']]] line :=
    .cons space (.enclosed space (.cons a none space (.last bs space)) (.comma space)) space
      (.last none (.bare (.last c space) .bare) none visible)
  obtain ⟨run, bound⟩ := assignmentTargets_of_chains chains
  have first := bound [['a'], ['b', 's']] (by decide)
  exact ⟨chains, run, first _ (by decide), first _ (by decide),
    bound [['c']] (by decide) _ (by decide)⟩

end NotebookLint.Names
