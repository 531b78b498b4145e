import NotebookLint.Proofs.ImportLayouts
import NotebookLint.Rules.ImportIssues

/-! Reports about unused imports in every layout of a from-import. In parentheses the lines that the
statement goes on over are skipped, so the reports are those about the statement on one line. Behind a
backslash the lines are read as code, so an import that stands there counts as its own use. -/

set_option autoImplicit false

namespace NotebookLint

open Text

/-! ## Lines without a directive -/

/-- Whether no line of a text has a sign of a directive before its comment. -/
def Text.Unmarked (text : Text) : Prop :=
  ∀ line ∈ lines text, ∀ sign ∈ ['!', '%'], sign ∉ line.takeWhile (· != '#')

namespace Text.Unmarked

theorem cons {char : Char} {rest : Text} (plain : char ∉ ['!', '%']) (unmarked : Unmarked rest) :
    Unmarked (char :: rest) := by
  intro line member sign special
  have differs : sign ≠ char := by
    rintro rfl
    exact plain special
  by_cases isBreak : char = '\n'
  · rw [isBreak, lines_cons_break] at member
    cases member with
    | head => exact List.not_mem_nil
    | tail _ later => exact unmarked line later sign special
  · obtain ⟨first, others, split⟩ := List.exists_cons_of_ne_nil (lines_ne_nil rest)
    rw [Unmarked, split] at unmarked
    rw [lines_cons_of_ne isBreak, split, List.modifyHead_cons] at member
    cases member with
    | tail _ later => exact unmarked line (List.mem_cons_of_mem _ later) sign special
    | head =>
        have inFirst := unmarked first List.mem_cons_self sign special
        rw [List.takeWhile_cons]
        split
        · rw [List.mem_cons, not_or]
          exact ⟨differs, inFirst⟩
        · exact List.not_mem_nil

theorem comment {text rest : Text} (unbroken : '\n' ∉ text) (unmarked : Unmarked rest) :
    Unmarked ('#' :: (text ++ rest)) := by
  have noBreak : '\n' ∉ '#' :: text := by
    rw [List.mem_cons, not_or]
    exact ⟨by decide, unbroken⟩
  intro line member sign special
  rw [← List.cons_append, lines_append_of_not_mem noBreak] at member
  obtain ⟨first, others, split⟩ := List.exists_cons_of_ne_nil (lines_ne_nil rest)
  rw [Unmarked, split] at unmarked
  rw [split, List.modifyHead_cons] at member
  cases member with
  | head => exact List.not_mem_nil
  | tail _ later => exact unmarked line (List.mem_cons_of_mem _ later) sign special

theorem of_shownAs {written shown : Text} (shows : ShownAs written shown)
    (absent : ∀ sign ∈ ['!', '%'], sign ∉ shown) : Unmarked written := by
  have behind : ∀ {code rest : Text}, (∀ sign ∈ ['!', '%'], sign ∉ code) → Unmarked rest →
      Unmarked (code ++ rest) := by
    intro code rest plain unmarked
    induction code with
    | nil => exact unmarked
    | cons char others ih =>
        apply cons
        · intro special
          exact plain char special List.mem_cons_self
        · exact ih fun sign special inside => plain sign special (List.mem_cons_of_mem _ inside)
  have empty : Unmarked [] := by
    intro line member sign special
    rw [List.mem_singleton.mp member]
    exact List.not_mem_nil
  induction shows with
  | @code code isCode =>
      rw [← List.append_nil code]
      exact behind absent empty
  | comment isCode unbroken ends _ ih =>
      simp only [List.mem_append, not_or] at absent
      have later := ih fun sign special => (absent sign special).2.2
      exact behind (fun sign special => (absent sign special).1) (comment unbroken later)

/-- A line whose comment comes before any sign of a directive is code. -/
theorem isDirective_eq {text line : Text} (unmarked : Unmarked text) (member : line ∈ lines text) :
    SourceLine.isDirective line = false := by
  have absent := unmarked line member
  have blanks : ∀ char ∈ line.takeWhile isBlank, (char != '#') = true := by
    intro char inside
    have blank := List.mem_takeWhile_imp inside
    rw [bne_iff_ne]
    rintro rfl
    exact absurd blank (by decide)
  rw [← List.takeWhile_append_dropWhile (p := isBlank) (l := line),
    List.takeWhile_append_of_pos blanks] at absent
  cases start : trimLeft line with
  | nil => simp [SourceLine.isDirective, SourceLine.isShell, SourceLine.isMagic, start]
  | cons char rest =>
      have plain : char ∉ ['!', '%'] := by
        intro special
        apply absent char special
        rw [← trimLeft, start, List.takeWhile_cons, if_pos]
        · exact List.mem_append_right _ List.mem_cons_self
        · rw [bne_iff_ne]
          rintro rfl
          exact absurd special (by decide)
      simp only [List.mem_cons, List.not_mem_nil, or_false, not_or] at plain
      simp [SourceLine.isDirective, SourceLine.isShell, SourceLine.isMagic, start, plain]

end Text.Unmarked

/-! ## Names behind a line break -/

theorem Text.map_text_names_lines (text : Text) :
    (names text).map Word.text = (lines text).flatMap fun line => (names line).map Word.text := by
  simp only [map_text_names, map_text_words_lines text, List.filter_flatMap]

/-- What stands on the lines of a text after the first, from the first line break on. -/
def Text.behindBreak (text : Text) : Text :=
  text.dropWhile (· != '\n')

namespace Text

theorem behindBreak_of_not_mem {text : Text} (unbroken : '\n' ∉ text) : behindBreak text = [] := by
  rw [behindBreak, List.dropWhile_eq_nil_iff]
  intro char inside
  rw [bne_iff_ne]
  rintro rfl
  exact unbroken inside

theorem behindBreak_append {before : Text} (unbroken : '\n' ∉ before) (after : Text) :
    behindBreak (before ++ after) = behindBreak after := by
  rw [behindBreak, List.dropWhile_append, ← behindBreak, behindBreak_of_not_mem unbroken]
  rfl

theorem map_text_names_behindBreak_append {gap : Text} (unbroken : '\n' ∉ gap)
    (separators : ∀ char ∈ gap, isWordChar char = false) (text : Text) :
    (names (behindBreak (text ++ gap))).map Word.text =
      (names (behindBreak text)).map Word.text := by
  simp only [behindBreak, List.dropWhile_append]
  split
  · rename_i none
    rw [← behindBreak, behindBreak_of_not_mem unbroken, List.isEmpty_iff.mp none]
  · rw [map_text_names, map_text_names, map_text_words_append_separators separators]

theorem flatMap_names_of_lines {text first : Text} {more : List Text}
    (split : lines text = first :: more) :
    (more.flatMap fun line => (names line).map Word.text) =
      (names (behindBreak text)).map Word.text := by
  induction text generalizing first more with
  | nil =>
      cases split
      rfl
  | cons char rest ih =>
      by_cases isBreak : char = '\n'
      · subst isBreak
        rw [lines_cons_break] at split
        cases split
        have kept : behindBreak ('\n' :: rest) = [] ++ '\n' :: rest := rfl
        rw [kept, map_text_names, map_text_words_append (by decide), ← map_text_names_lines,
          map_text_names]
        rfl
      · obtain ⟨next, others, restLines⟩ := List.exists_cons_of_ne_nil (lines_ne_nil rest)
        rw [lines_cons_of_ne isBreak, restLines, List.modifyHead_cons] at split
        cases split
        have dropped : behindBreak (char :: rest) = behindBreak rest := by
          rw [behindBreak, List.dropWhile_cons_of_pos (by simpa using isBreak)]
          rfl
        rw [dropped]
        exact ih restLines

end Text

namespace ImportIssues

/-! ## Names that lines use -/

theorem exists_usedFrom_append {importLines : List Nat} {lines : List SourceLine}
    (code : ∀ line ∈ lines, SourceLine.isDirective line.raw = false)
    (unlisted : ∀ line ∈ lines, importLines.contains line.number = false) (depth : Nat)
    (below : List SourceLine) :
    ∃ further, usedFrom importLines false (CodeLine.ofLines depth (lines ++ below)) =
      ((lines.map SourceLine.clean).flatMap fun line => (names line).map Word.text) ++
        usedFrom importLines false (CodeLine.ofLines further below) := by
  induction lines generalizing depth with
  | nil => exact ⟨depth, rfl⟩
  | cons line rest ih =>
      obtain ⟨lineCode, restCode⟩ := List.forall_mem_cons.mp code
      obtain ⟨lineUnlisted, restUnlisted⟩ := List.forall_mem_cons.mp unlisted
      obtain ⟨further, later⟩ := ih restCode restUnlisted (depthAfter depth line.clean)
      refine ⟨further, ?_⟩
      rw [List.cons_append, CodeLine.ofLines, if_neg (by simp [lineCode])]
      simp only [usedFrom, lineUnlisted, later, Bool.false_eq_true, if_false, List.map_cons,
        List.flatMap_cons, List.append_assoc]

/-- Lines of code up to the closing parenthesis of an import use nothing. -/
theorem exists_usedFrom_inList {importLines : List Nat} {lines : List SourceLine}
    (code : ∀ line ∈ lines, SourceLine.isDirective line.raw = false)
    (unlisted : ∀ line ∈ lines, importLines.contains line.number = false)
    (closed : Import.throughParenthesis (lines.map SourceLine.clean ++ [[]]) =
      lines.map SourceLine.clean) (depth : Nat) (below : List SourceLine) :
    ∃ further, usedFrom importLines true (CodeLine.ofLines depth (lines ++ below)) =
      usedFrom importLines false (CodeLine.ofLines further below) := by
  induction lines generalizing depth with
  | nil => cases closed
  | cons line rest ih =>
      obtain ⟨lineCode, restCode⟩ := List.forall_mem_cons.mp code
      obtain ⟨lineUnlisted, restUnlisted⟩ := List.forall_mem_cons.mp unlisted
      rw [List.map_cons, List.cons_append, Import.throughParenthesis] at closed
      split at closed
      · rename_i parenthesis
        have last : rest = [] := List.map_eq_nil_iff.mp (List.cons.inj closed).2.symm
        refine ⟨depthAfter depth line.clean, ?_⟩
        rw [last, List.cons_append, CodeLine.ofLines, if_neg (by simp [lineCode])]
        simp only [usedFrom, lineUnlisted, parenthesis]
        rfl
      · rename_i without
        obtain ⟨further, later⟩ :=
          ih restCode restUnlisted (List.cons.inj closed).2 (depthAfter depth line.clean)
        refine ⟨further, ?_⟩
        rw [List.cons_append, CodeLine.ofLines, if_neg (by simp [lineCode])]
        simp only [usedFrom, lineUnlisted, without]
        exact later

/-- Lines use the same names wherever they stand. -/
theorem usedFrom_moveDown {importLines moved : List Nat} {height : Nat} {lines : List SourceLine}
    (same : ∀ line ∈ lines,
      moved.contains (line.number + height) = importLines.contains line.number)
    (inList : Bool) (depth other : Nat) :
    usedFrom moved inList (CodeLine.ofLines depth (lines.map (SourceLine.moveDown height))) =
      usedFrom importLines inList (CodeLine.ofLines other lines) := by
  induction lines generalizing inList depth other with
  | nil => rfl
  | cons line rest ih =>
      obtain ⟨here, later⟩ := List.forall_mem_cons.mp same
      have raw : (line.moveDown height).raw = line.raw := rfl
      have clean : (line.moveDown height).clean = line.clean := rfl
      have number : (line.moveDown height).number = line.number + height := rfl
      simp only [List.map_cons, CodeLine.ofLines, raw]
      split
      · exact ih later _ _ _
      · simp only [usedFrom, clean, number, here]
        split
        · exact ih later _ _ _
        · split
          · exact ih later _ _ _
          · rw [ih later]

/-! ## Names that are reported -/

/-- The name of an import that a problem calls unused. -/
def unusedName? : Problem → Option Text
  | .unusedImport name => some name
  | _ => none

/-- The names that the rule reports as imported without use. -/
def reportedUnused (reportUnused : Bool) (source : Text) : List Text :=
  (findings reportUnused source).filterMap fun finding => unusedName? finding.problem

/-- The names of the bindings that are no used names. -/
def unusedAmong (used : List Text) (bindings : List ImportBinding) : List Text :=
  ((firstBindings [] bindings).filter fun binding =>
    !used.contains binding.name && binding.module != exemptModule).map ImportBinding.name

theorem filterMap_unusedName?_misplaced (source : Text) :
    ((misplaced source).filterMap fun finding => unusedName? finding.problem) = [] := by
  rw [List.filterMap_eq_nil_iff]
  intro finding member
  obtain ⟨statement, -, rfl⟩ := List.mem_map.mp member
  rfl

theorem filterMap_unusedName?_questionable (seen bindings : List ImportBinding) :
    ((questionable seen bindings).filterMap fun finding => unusedName? finding.problem) = [] := by
  induction bindings generalizing seen with
  | nil => rfl
  | cons binding rest ih =>
      rw [questionable]
      split
      · exact ih seen
      · split
        · exact ih seen
        · exact ih (binding :: seen)

theorem reportedUnused_eq (reportUnused : Bool) (source : Text) :
    reportedUnused reportUnused source =
      if reportUnused then unusedAmong (usedNames source) (importBindings source) else [] := by
  rw [reportedUnused, findings, List.filterMap_append, List.filterMap_append,
    filterMap_unusedName?_misplaced, filterMap_unusedName?_questionable]
  cases reportUnused with
  | false => rfl
  | true =>
      have named : (fun finding : Finding => unusedName? finding.problem) ∘
          (fun binding => ⟨.unusedImport binding.name, binding.line, none⟩) =
          fun binding : ImportBinding => some binding.name := rfl
      simp only [if_true, unused, List.filterMap_map, named, List.nil_append]
      rw [unusedAmong, ← List.filterMap_eq_map]
      rfl

def unplaced (binding : ImportBinding) : ImportBinding :=
  { binding with line := 0 }

theorem map_unplaced_firstBindings (seen bindings : List ImportBinding) :
    (firstBindings seen bindings).map unplaced =
      firstBindings (seen.map unplaced) (bindings.map unplaced) := by
  induction bindings generalizing seen with
  | nil => rw [firstBindings, List.map_reverse]; rfl
  | cons binding rest ih =>
      have repeated : (seen.map unplaced).any (fun other => other.name == (unplaced binding).name) =
          seen.any fun other => other.name == binding.name := by
        rw [List.any_map]
        rfl
      have wildcard : (unplaced binding).isWildcard = binding.isWildcard := rfl
      rw [firstBindings, List.map_cons, firstBindings, repeated, wildcard]
      split
      · exact ih seen
      · exact ih (binding :: seen)

/-- The lines of imports have no part in which names are reported. -/
theorem unusedAmong_map_unplaced (used : List Text) (bindings : List ImportBinding) :
    unusedAmong used (bindings.map unplaced) = unusedAmong used bindings := by
  rw [unusedAmong, unusedAmong, ← List.map_nil (f := unplaced), ← map_unplaced_firstBindings,
    List.filter_map, List.map_map]
  rfl

/-- More used names mean fewer reports. -/
theorem unusedAmong_append (names used : List Text) (bindings : List ImportBinding) :
    unusedAmong (names ++ used) bindings =
      (unusedAmong used bindings).filter fun name => !names.contains name := by
  have split : (fun binding : ImportBinding =>
      !(names ++ used).contains binding.name && binding.module != exemptModule) =
      fun binding => !names.contains binding.name &&
        (!used.contains binding.name && binding.module != exemptModule) := by
    funext binding
    simp only [List.contains_append, Bool.not_or, Bool.and_assoc]
  rw [unusedAmong, unusedAmong, split, List.filter_map, List.filter_filter]
  rfl

/-! ## Statements -/

section Statement

open Import

variable {layout : Layout} {module header list ending shown : Text} {members : List Member}
  (heads : Heads module header) (shows : Shows layout members list ending shown)

/-- The names of a statement that are read as uses: those on the lines that it goes on over, unless
they stand in parentheses. -/
def ownUses : Layout → Text → List Text
  | .parenthesized, _ => []
  | .oneLine, statement | .continued, statement =>
      (names (behindBreak statement)).map Word.text

theorem ownUses_of_bare {statement : Text} (bare : layout ≠ .parenthesized) :
    ownUses layout statement = (names (behindBreak statement)).map Word.text := by
  cases layout with
  | parenthesized => exact absurd rfl bare
  | oneLine => rfl
  | continued => rfl

include heads shows in
theorem isDirective_of_others {line : SourceLine} {others : List SourceLine}
    (blockLines : sourceLines (header ++ (list ++ ending)) = line :: others) :
    ∀ other ∈ others, SourceLine.isDirective other.raw = false := by
  have unbroken := heads.not_mem (.inl rfl)
  obtain ⟨first, more, split⟩ := List.exists_cons_of_ne_nil (lines_ne_nil (list ++ ending))
  have raws := map_raw_sourceLines (header ++ (list ++ ending))
  rw [blockLines, lines_append_of_not_mem unbroken, split, List.modifyHead_cons] at raws
  intro other member
  apply (Unmarked.of_shownAs shows.shownAs shows.unmarked).isDirective_eq
  rw [split, ← (List.cons.inj raws).2]
  exact List.mem_cons_of_mem _ (List.mem_map_of_mem member)

theorem number_of_others {source : Text} {line : SourceLine} {others : List SourceLine}
    (split : sourceLines source = line :: others) :
    ∀ other ∈ others, 1 < other.number ∧ other.number ≤ lineCount source := by
  have numbers := map_number_sourceLines source
  rw [split, lineCount, List.range'_succ] at numbers
  intro other member
  have placed : other.number ∈ others.map SourceLine.number := List.mem_map_of_mem member
  rw [(List.cons.inj numbers).2, List.mem_range'_1] at placed
  rw [lineCount]
  omega

include heads shows in
theorem exists_usedFrom_statement {importLines : List Nat} (listed : importLines.contains 1 = true)
    (unlisted : ∀ number, 1 < number → number ≤ lineCount (header ++ (list ++ ending)) →
      importLines.contains number = false) (below : List SourceLine) :
    ∃ further, usedFrom importLines false
        (CodeLine.ofLines 0 (sourceLines (header ++ (list ++ ending)) ++ below)) =
      ownUses layout (header ++ list) ++
        usedFrom importLines false (CodeLine.ofLines further below) := by
  obtain ⟨first, more, line, others, split, blockLines, number, code, clean⟩ :=
    exists_sourceLines_statement heads shows.shownAs
  have othersCode := isDirective_of_others heads shows blockLines
  have othersUnlisted : ∀ other ∈ others, importLines.contains other.number = false := by
    intro other member
    obtain ⟨above, within⟩ := number_of_others blockLines other member
    exact unlisted _ above within
  rw [List.map_cons, List.cons.injEq] at clean
  obtain ⟨firstClean, otherCleans⟩ := clean
  rw [blockLines, List.cons_append, CodeLine.ofLines, if_neg (by simp [code]), usedFrom, number,
    if_pos listed, firstClean]
  have unopenedHeader : '(' ∉ header := heads.not_mem (.inr (.inl rfl))
  have unclosedHeader : ')' ∉ header := heads.not_mem (.inr (.inr rfl))
  cases shows.spans with
  | @enclosed list inside gap unclosed space =>
      have notBefore : ')' ∉ '(' :: inside := by
        rw [List.mem_cons, not_or]
        exact ⟨by decide, unclosed⟩
      obtain ⟨tail, begun⟩ := exists_head_of_lines (by decide) split
      rcases throughParenthesis_lines notBefore space.2 split [[]] with
        ⟨closed, none⟩ | ⟨unclosedFirst, through⟩
      · have closedLine : ((header ++ first).contains '(' && !(header ++ first).contains ')') =
            false := by
          simp [closed]
        rw [none, List.map_eq_nil_iff] at otherCleans
        rw [closedLine, otherCleans]
        exact ⟨_, rfl⟩
      · have openedFirst : '(' ∈ first := begun ▸ List.mem_cons_self
        have openedLine : ((header ++ first).contains '(' && !(header ++ first).contains ')') =
            true := by
          simp [openedFirst, unclosedHeader, unclosedFirst]
        rw [openedLine]
        exact exists_usedFrom_inList othersCode othersUnlisted (otherCleans ▸ through) _ below
  | @plain layout list gap bare unopened space =>
      have unopenedFirst : '(' ∉ first := by
        intro inside
        apply unopened
        have flat : '(' ∈ (lines (list ++ gap)).flatten := by
          rw [split, List.flatten_cons]
          exact List.mem_append_left _ inside
        rw [flatten_lines] at flat
        exact List.mem_of_mem_filter flat
      have unopenedLine : ((header ++ first).contains '(' && !(header ++ first).contains ')') =
          false := by
        simp [unopenedHeader, unopenedFirst]
      have separators : ∀ char ∈ gap, isWordChar char = false := by
        intro char inside
        exact not_isWordChar_of_isBlank (List.all_eq_true.mp space.1 char inside)
      rw [unopenedLine, ownUses_of_bare bare, behindBreak_append (heads.not_mem (.inl rfl)),
        ← map_text_names_behindBreak_append space.2 separators, ← flatMap_names_of_lines split,
        ← otherCleans]
      exact exists_usedFrom_append othersCode othersUnlisted _ below

theorem members_ne_nil (arranges : Arranges members layout list) : members ≠ [] := by
  cases arranges with
  | oneLine lists => exact lists.ne_nil
  | parenthesized spread lists closes => exact lists.ne_nil
  | continued lists => exact lists.ne_nil

theorem ownUses_oneLine {statement : Text} (writes : Writes .oneLine module members statement) :
    ownUses .oneLine statement = [] := by
  obtain ⟨header, list, heads, arranges, rfl⟩ := writes
  cases arranges with
  | oneLine lists =>
      have unbroken : '\n' ∉ header ++ list := by
        rw [List.mem_append, not_or]
        exact ⟨heads.not_mem (.inl rfl),
          lists.not_mem_members (fun gap space => space.2) (by decide) (.inr rfl) (by decide)⟩
      rw [ownUses, behindBreak_of_not_mem unbroken]
      rfl

section Below

variable {rest : Text} {below : List SourceLine} (nonempty : members ≠ [])
  (split : sourceLines (header ++ (list ++ ending) ++ rest) =
    sourceLines (header ++ (list ++ ending)) ++
      below.map (SourceLine.moveDown (lineCount (header ++ (list ++ ending)))))

include heads shows nonempty split in
theorem mem_lines_importBindings (number : Nat) :
    number ∈ (importBindings (header ++ (list ++ ending) ++ rest)).map ImportBinding.line ↔
      number = 1 ∨ ∃ binding ∈ bindingsOf below,
        binding.line + lineCount (header ++ (list ++ ending)) = number := by
  have single : (∃ member ∈ members, 1 = number) ↔ number = 1 := by
    obtain ⟨member, inMembers⟩ := List.exists_mem_of_ne_nil _ nonempty
    constructor
    · intro ⟨_, _, first⟩
      exact first.symm
    · intro first
      exact ⟨member, inMembers, first.symm⟩
  simp only [importBindings, split, bindingsOf_statement_append heads shows, bindingsOf_moveDown,
    List.map_append, List.map_map, List.mem_append, List.mem_map]
  exact or_congr single Iff.rfl

include heads shows nonempty split in
theorem usedNames_statement_append (positive : ∀ line ∈ below, 1 ≤ line.number) :
    usedNames (header ++ (list ++ ending) ++ rest) = ownUses layout (header ++ list) ++
      usedFrom ((bindingsOf below).map ImportBinding.line) false (CodeLine.ofLines 0 below) := by
  let height := lineCount (header ++ (list ++ ending))
  let importLines := (importBindings (header ++ (list ++ ending) ++ rest)).map ImportBinding.line
  have lines := mem_lines_importBindings heads shows nonempty split
  have bounded : ∀ binding ∈ bindingsOf below, 1 ≤ binding.line := by
    intro binding member
    obtain ⟨line, inBelow, placed⟩ := exists_line_of_mem_bindingsOf member
    rw [placed]
    exact positive line inBelow
  have listed : importLines.contains 1 = true := by
    rw [List.contains_iff_mem, lines]
    exact .inl rfl
  have unlisted : ∀ number, 1 < number → number ≤ height → importLines.contains number = false := by
    intro number above within
    rw [← Bool.not_eq_true, List.contains_iff_mem, lines]
    intro isLine
    cases isLine with
    | inl first => omega
    | inr later =>
        obtain ⟨binding, member, placed⟩ := later
        have positive := bounded binding member
        omega
  have same : ∀ line ∈ below, importLines.contains (line.number + height) =
      ((bindingsOf below).map ImportBinding.line).contains line.number := by
    intro line member
    have positive : 1 ≤ line.number := positive line member
    have tall : 1 ≤ height := Nat.le_add_left 1 _
    rw [Bool.eq_iff_iff, List.contains_iff_mem, List.contains_iff_mem, lines, List.mem_map]
    constructor
    · intro isLine
      cases isLine with
      | inl first => omega
      | inr later =>
          obtain ⟨binding, inBelow, placed⟩ := later
          exact ⟨binding, inBelow, Nat.add_right_cancel placed⟩
    · intro ⟨binding, inBelow, placed⟩
      exact .inr ⟨binding, inBelow, by rw [placed]⟩
  obtain ⟨further, used⟩ := exists_usedFrom_statement heads shows listed unlisted
    (below.map (SourceLine.moveDown height))
  rw [usedNames, codeLines, split, used, usedFrom_moveDown same false further 0]

end Below

end Statement

open Import in
/-- Behind statements with the same members the reports differ by what the statements use of their
own members. -/
theorem exists_reportedUnused (reportUnused : Bool) (module : Text) (members : List Member)
    {after : Text} (ended : EndsLine after) :
    ∃ reported : List Text, ∀ {layout : Layout} {statement : Text},
      Writes layout module members statement →
        reportedUnused reportUnused (statement ++ after) =
          reported.filter fun name => !(ownUses layout statement).contains name := by
  obtain ⟨ending, rest, rfl, ends, endsBlock⟩ := ended.exists_eq_append
  obtain ⟨below, positive, belowSplit⟩ := exists_sourceLines_below endsBlock
  let used := usedFrom ((bindingsOf below).map ImportBinding.line) false (CodeLine.ofLines 0 below)
  let bindings : List ImportBinding :=
    (members.map fun member => ⟨member.bound, module, 1⟩) ++ bindingsOf below
  refine ⟨if reportUnused then unusedAmong used bindings else [], ?_⟩
  intro layout statement writes
  obtain ⟨header, list, heads, arranges, rfl⟩ := writes
  obtain ⟨shown, shows⟩ := arranges.exists_shows ends
  have regroup : header ++ list ++ (ending ++ rest) = header ++ (list ++ ending) ++ rest := by simp
  have split := belowSplit (shows.shownAs.code_append heads.isCode)
  have uses := usedNames_statement_append heads shows (members_ne_nil arranges) split positive
  have unmoved : ∀ (height : Nat) (later : List ImportBinding),
      (later.map (moveDown height)).map unplaced = later.map unplaced := by
    intro height later
    rw [List.map_map]
    rfl
  have bound : (importBindings (header ++ (list ++ ending) ++ rest)).map unplaced =
      bindings.map unplaced := by
    rw [importBindings, split, bindingsOf_statement_append heads shows, bindingsOf_moveDown,
      List.map_append, unmoved, ← List.map_append]
  rw [regroup, reportedUnused_eq, uses, ← unusedAmong_map_unplaced, bound,
    unusedAmong_map_unplaced, unusedAmong_append]
  cases reportUnused <;> rfl

open Import in
/-- A from-import in parentheses is reported like the one on a single line. Of one that is continued
by backslashes, the names that stand behind the first of them are not reported. -/
theorem reportedUnused_of_layouts {module : Text} {members : List Member}
    {oneLine parenthesized continued after : Text}
    (single : Writes .oneLine module members oneLine)
    (enclosed : Writes .parenthesized module members parenthesized)
    (broken : Writes .continued module members continued) (ended : EndsLine after)
    (reportUnused : Bool) :
    reportedUnused reportUnused (parenthesized ++ after) =
        reportedUnused reportUnused (oneLine ++ after) ∧
      reportedUnused reportUnused (continued ++ after) =
        (reportedUnused reportUnused (oneLine ++ after)).filter fun name =>
          !((names (behindBreak continued)).map Word.text).contains name := by
  obtain ⟨reported, reports⟩ := exists_reportedUnused reportUnused module members ended
  have none : ∀ names : List Text,
      (names.filter fun name => !([] : List Text).contains name) = names :=
    fun names => List.filter_eq_self.mpr fun _ _ => rfl
  rw [reports single, reports enclosed, reports broken, ownUses_oneLine single, ownUses, ownUses,
    none]
  exact ⟨rfl, rfl⟩

section Example

open Import

theorem isFreeName_join : IsFreeName "join".toList := by
  decide +kernel

theorem isFreeName_exists : IsFreeName "exists".toList := by
  decide +kernel

theorem isFreeName_of_mem_none : ∀ other ∈ (none : Option Text), IsFreeName other := by
  intro other named
  cases named

def pathMembers : List Member :=
  [⟨"join".toList, none, isFreeName_join, isFreeName_of_mem_none⟩,
    ⟨"exists".toList, none, isFreeName_exists, isFreeName_of_mem_none⟩]

theorem heads_path : Heads "os.path".toList "from os.path import ".toList := by
  have none : InLine [] := by decide
  have space : InLine [' '] := by decide
  exact .intro none (by decide) space (by decide) (by decide) space (by decide) space

theorem writes_oneLine_path :
    Writes .oneLine "os.path".toList pathMembers "from os.path import join, exists".toList := by
  have none : InLine [] := by decide
  have space : InLine [' '] := by decide
  exact ⟨_, _, heads_path, .oneLine (.cons (.bare rfl) none space (.last (.bare rfl) none)), rfl⟩

theorem writes_continued_path :
    Writes .continued "os.path".toList pathMembers
      "from os.path import join, \\\n    exists".toList := by
  have none : Continues [] := .inLine (by decide)
  have space : InLine [' '] := by decide
  have inset : InLine "    ".toList := by decide
  exact ⟨_, _, heads_path, .continued
    (.cons (.bare rfl) none (.backslash space (.inLine inset)) (.last (.bare rfl) none)), rfl⟩

theorem writes_parenthesized_path :
    Writes .parenthesized "os.path".toList pathMembers
      "from os.path import (\n    join,\n    exists,\n)".toList := by
  have inset : Spreads "\n    ".toList :=
    .blank rfl (.blank rfl (.blank rfl (.blank rfl (.blank rfl .nil))))
  have lineBreak : Spreads ['\n'] := .blank rfl .nil
  exact ⟨_, _, heads_path, .parenthesized inset
    (.cons (.bare rfl) .nil inset (.last (.bare rfl) .nil)) (.comma lineBreak), rfl⟩

/-- With a use of `join` below, only the statement that is continued hides that `exists` is unused. -/
theorem reportedUnused_of_layouts_path :
    let oneLine : Text := "from os.path import join, exists".toList
    let parenthesized : Text := "from os.path import (\n    join,\n    exists,\n)".toList
    let continued : Text := "from os.path import join, \\\n    exists".toList
    let after : Text := "\nprint(join)".toList
    (Import.Writes .oneLine "os.path".toList pathMembers oneLine ∧
        Import.Writes .parenthesized "os.path".toList pathMembers parenthesized ∧
        Import.Writes .continued "os.path".toList pathMembers continued ∧ Import.EndsLine after) ∧
      reportedUnused true (oneLine ++ after) = ["exists".toList] ∧
      (names (behindBreak continued)).map Word.text = ["exists".toList] ∧
      (reportedUnused true (parenthesized ++ after) = reportedUnused true (oneLine ++ after) ∧
        reportedUnused true (continued ++ after) =
          (reportedUnused true (oneLine ++ after)).filter fun name =>
            !((names (behindBreak continued)).map Word.text).contains name) := by
  intro oneLine parenthesized continued after
  have ended : EndsLine after := .inr ⟨[], "print(join)".toList, .bare (by decide), rfl⟩
  refine ⟨⟨writes_oneLine_path, writes_parenthesized_path, writes_continued_path, ended⟩,
    by decide +kernel, by decide +kernel, ?_⟩
  exact reportedUnused_of_layouts writes_oneLine_path writes_parenthesized_path
    writes_continued_path ended true

/-- Without any use the statement on one line is reported for both of its members, and the continued one
for the first of them only. -/
theorem reportedUnused_continued_ne_oneLine :
    let oneLine : Text := "from os.path import join, exists".toList
    let continued : Text := "from os.path import join, \\\n    exists".toList
    Import.Writes .oneLine "os.path".toList pathMembers oneLine ∧
      Import.Writes .continued "os.path".toList pathMembers continued ∧
      reportedUnused true oneLine = ["join".toList, "exists".toList] ∧
      reportedUnused true continued = ["join".toList] := by
  exact ⟨writes_oneLine_path, writes_continued_path, by decide +kernel, by decide +kernel⟩

end Example

end ImportIssues

end NotebookLint
