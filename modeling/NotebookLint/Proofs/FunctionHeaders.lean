import NotebookLint.Proofs.CellJoining

/-! Headers of functions. The scan for functions reads exactly what is written as a header at the
beginning of a line, up to the parenthesis that opens the parameter list, and the functions of a text
are those of its headers in the order in which they are written. -/

set_option autoImplicit false

namespace NotebookLint.Names

open Text

/-! ## Written headers -/

abbrev Spaces (text : Text) : Prop :=
  text.all isSpaceOrTab = true

/-- The texts before the word that defines a function: an indent, and perhaps a mark. -/
inductive Margins : Text → Prop
  | bare {indent : Text} (indented : Spaces indent) : Margins indent
  | marked {indent gap : Text} (indented : Spaces indent) (apart : gap ≠ []) (spaced : Spaces gap) :
      Margins (indent ++ ("async".toList ++ gap))

/-- The texts of a header up to the parenthesis that opens the parameter list. -/
inductive Heads (name : Text) : Text → Prop
  | define {margin gap pause : Text} (begins : Margins margin) (apart : gap ≠ [])
      (spaced : Spaces gap) (named : isName name = true) (paused : Spaces pause) :
      Heads name (margin ++ ("def".toList ++ (gap ++ (name ++ (pause ++ ['('])))))

/-- Whether what follows a text is at the beginning of a line. -/
def EndsLine (before : Text) : Prop :=
  ∀ last ∈ before.getLast?, last = '\n'

/-! ## Reading a header -/

private theorem skipSpaces_append {gap text : Text} (spaced : Spaces gap)
    (visible : ∀ char ∈ text.head?, isSpaceOrTab char = false) : skipSpaces (gap ++ text) = text := by
  rw [skipSpaces, List.dropWhile_append_of_pos (List.all_eq_true.mp spaced)]
  cases text with
  | nil => rfl
  | cons char rest => exact List.dropWhile_cons_of_neg (by simp [visible char rfl])

private theorem spaces?_append {gap text : Text} (apart : gap ≠ []) (spaced : Spaces gap)
    (visible : ∀ char ∈ text.head?, isSpaceOrTab char = false) :
    spaces? (gap ++ text) = some text := by
  have first : (gap ++ text).head?.any isSpaceOrTab = true := by
    obtain ⟨char, others, rfl⟩ := List.exists_cons_of_ne_nil apart
    simpa using List.all_eq_true.mp spaced char List.mem_cons_self
  rw [spaces?_eq, if_pos first, skipSpaces_append spaced visible]

private theorem exists_eq_append_skipSpaces (text : Text) :
    ∃ gap, Spaces gap ∧ text = gap ++ skipSpaces text :=
  ⟨text.takeWhile isSpaceOrTab, List.all_takeWhile, (List.takeWhile_append_dropWhile).symm⟩

private theorem exists_gap_of_spaces? {text rest : Text} (read : spaces? text = some rest) :
    ∃ gap, gap ≠ [] ∧ Spaces gap ∧ text = gap ++ rest := by
  cases text with
  | nil => cases read
  | cons char others =>
      rw [spaces?] at read
      split at read
      · rename_i blank
        obtain ⟨gap, spaced, split⟩ := exists_eq_append_skipSpaces others
        rw [Option.some.inj read] at split
        refine ⟨char :: gap, List.cons_ne_nil _ _, ?_, congrArg (char :: ·) split⟩
        rw [Spaces, List.all_cons, blank, Bool.true_and]
        exact spaced
      · cases read

private theorem not_isSpaceOrTab_of_isWordChar {char : Char} (word : isWordChar char = true) :
    isSpaceOrTab char = false := by
  cases blank : isSpaceOrTab char with
  | false => rfl
  | true =>
      simp only [isSpaceOrTab, Bool.or_eq_true, beq_iff_eq] at blank
      rcases blank with rfl | rfl <;> exact absurd word (by decide)

private theorem eq_append_of_name? {text name after : Text}
    (read : name? text = some (name, after)) : isName name = true ∧ text = name ++ after := by
  cases text with
  | nil => cases read
  | cons char rest =>
      rw [name?] at read
      split at read
      · rename_i starts
        cases read
        refine ⟨?_, congrArg (char :: ·) List.takeWhile_append_dropWhile.symm⟩
        rw [isName, starts, Bool.true_and]
        exact List.all_takeWhile
      · cases read

/-- The name and the parenthesis, which follow the spaces after the defining word. -/
private theorem read_name {name pause : Text} (named : isName name = true) (paused : Spaces pause)
    (rest : Text) :
    name? (name ++ (pause ++ '(' :: rest)) = some (name, pause ++ '(' :: rest) ∧
      char? '(' (skipSpaces (pause ++ '(' :: rest)) = some rest := by
  obtain ⟨first, others, split, starts, letters⟩ := exists_of_isName named
  have begins : name.head?.any isNameStart = true := by rw [split]; simpa using starts
  have ended : ∀ char ∈ (pause ++ '(' :: rest).head?, isWordChar char = false := by
    cases pause with
    | nil =>
        rintro char ⟨⟩
        decide
    | cons blank others =>
        rintro char ⟨⟩
        have isSpace := List.all_eq_true.mp paused blank List.mem_cons_self
        cases word : isWordChar blank with
        | false => rfl
        | true => rw [not_isSpaceOrTab_of_isWordChar word] at isSpace; cases isSpace
  refine ⟨name?_append begins letters ended, ?_⟩
  rw [skipSpaces_append paused (by rintro char ⟨⟩; decide)]
  rfl

/-- What follows the margin of a header. -/
private def afterMargin (text : Text) : Text :=
  ((after? "async".toList (skipSpaces text)).bind spaces?).getD (skipSpaces text)

private theorem afterMargin_append {margin : Text} (begins : Margins margin) (rest : Text) :
    afterMargin (margin ++ ("def".toList ++ rest)) = "def".toList ++ rest := by
  have visible : ∀ char ∈ ("def".toList ++ rest).head?, isSpaceOrTab char = false := by
    rintro char ⟨⟩
    decide
  unfold afterMargin
  cases begins with
  | bare indented =>
      rw [skipSpaces_append indented visible]
      rfl
  | marked indented apart spaced =>
      rw [List.append_assoc, List.append_assoc,
        skipSpaces_append indented (by rintro char ⟨⟩; decide), after?_append, Option.bind_some,
        spaces?_append apart spaced visible]
      rfl

private theorem exists_margin (text : Text) :
    ∃ margin, Margins margin ∧ text = margin ++ afterMargin text := by
  obtain ⟨indent, indented, split⟩ := exists_eq_append_skipSpaces text
  unfold afterMargin
  cases marked : (after? "async".toList (skipSpaces text)).bind spaces? with
  | none => exact ⟨indent, .bare indented, split⟩
  | some rest =>
      obtain ⟨afterMark, isMark, spaced⟩ := Option.bind_eq_some_iff.mp marked
      obtain ⟨gap, apart, isGap, rfl⟩ := exists_gap_of_spaces? spaced
      refine ⟨_, .marked indented apart isGap, ?_⟩
      rw [eq_append_of_after? isMark] at split
      simpa using split

private theorem functionHeader?_eq (text : Text) :
    functionHeader? text = ((after? "def".toList (afterMargin text)).bind spaces?).bind
      fun definition => (name? definition).bind fun named =>
        (char? '(' (skipSpaces named.2)).map fun rest => (named.1, rest) := by
  simp only [Option.map_eq_bind]
  rfl

/-- A written header is read up to its parenthesis. -/
theorem functionHeader?_append {name header : Text} (heads : Heads name header) (rest : Text) :
    functionHeader? (header ++ rest) = some (name, rest) := by
  obtain @⟨margin, gap, pause, begins, apart, spaced, named, paused⟩ := heads
  obtain ⟨nameRead, opened⟩ := read_name named paused rest
  have visible : ∀ char ∈ (name ++ (pause ++ '(' :: rest)).head?, isSpaceOrTab char = false := by
    obtain ⟨first, others, rfl, -, letters⟩ := exists_of_isName named
    rintro char ⟨⟩
    exact not_isSpaceOrTab_of_isWordChar (letters first List.mem_cons_self)
  have whole : margin ++ ("def".toList ++ (gap ++ (name ++ (pause ++ ['('])))) ++ rest =
      margin ++ ("def".toList ++ (gap ++ (name ++ (pause ++ '(' :: rest)))) := by simp
  rw [whole, functionHeader?_eq, afterMargin_append begins, after?_append, Option.bind_some,
    spaces?_append apart spaced visible, Option.bind_some, nameRead, Option.bind_some, opened,
    Option.map_some]

/-- What is read as a header is one. -/
theorem exists_header_of_functionHeader? {text name rest : Text}
    (read : functionHeader? text = some (name, rest)) :
    ∃ header, Heads name header ∧ text = header ++ rest := by
  rw [functionHeader?_eq] at read
  obtain ⟨definition, defined, read⟩ := Option.bind_eq_some_iff.mp read
  obtain ⟨⟨found, afterName⟩, nameRead, read⟩ := Option.bind_eq_some_iff.mp read
  obtain ⟨inner, opened, same⟩ := Option.map_eq_some_iff.mp read
  obtain ⟨rfl, rfl⟩ := Prod.mk.inj same
  obtain ⟨margin, begins, split⟩ := exists_margin text
  obtain ⟨afterDef, isDef, spaced⟩ := Option.bind_eq_some_iff.mp defined
  obtain ⟨gap, apart, isGap, rfl⟩ := exists_gap_of_spaces? spaced
  obtain ⟨named, rfl⟩ := eq_append_of_name? nameRead
  obtain ⟨pause, paused, pauseSplit⟩ := exists_eq_append_skipSpaces afterName
  refine ⟨_, .define begins apart isGap named paused, ?_⟩
  rw [eq_cons_of_char? opened] at pauseSplit
  rw [eq_append_of_after? isDef, pauseSplit] at split
  simpa using split

/-! ## The functions of a text -/

theorem mem_signatureAt {atLineStart : Bool} {text name parameters : Text} :
    (name, parameters) ∈ signatureAt atLineStart text ↔
      atLineStart = true ∧ ∃ header rest, text = header ++ rest ∧ Heads name header ∧
        parameters = parameterText rest := by
  unfold signatureAt
  cases atLineStart with
  | false => simp
  | true =>
      rw [if_pos rfl, List.mem_map]
      simp only [Option.mem_toList, Prod.mk.injEq, true_and]
      constructor
      · rintro ⟨⟨found, rest⟩, read, rfl, rfl⟩
        obtain ⟨header, heads, split⟩ := exists_header_of_functionHeader? read
        exact ⟨header, rest, split, heads, rfl⟩
      · rintro ⟨header, rest, rfl, heads, rfl⟩
        exact ⟨(name, rest), functionHeader?_append heads rest, rfl, rfl⟩

/-- Whether what follows a text is at the beginning of a line; `atLineStart` says this of the text
itself. -/
private def lineStartAfter (atLineStart : Bool) (before : Text) : Bool :=
  before.foldl (fun _ char => char == '\n') atLineStart

private theorem lineStartAfter_concat (atLineStart : Bool) (before : Text) (last : Char) :
    lineStartAfter atLineStart (before ++ [last]) = (last == '\n') := by
  rw [lineStartAfter, List.foldl_append]
  rfl

private theorem lineStartAfter_iff {before : Text} :
    lineStartAfter true before = true ↔ EndsLine before := by
  rcases List.eq_nil_or_concat before with rfl | ⟨front, last, rfl⟩
  · simp [lineStartAfter, EndsLine]
  · rw [List.concat_eq_append, lineStartAfter_concat]
    simp [EndsLine]

private theorem mem_signaturesFrom {atLineStart : Bool} {text name parameters : Text} :
    (name, parameters) ∈ signaturesFrom atLineStart text ↔
      ∃ before header rest, text = before ++ (header ++ rest) ∧
        lineStartAfter atLineStart before = true ∧ Heads name header ∧
        parameters = parameterText rest := by
  induction text generalizing atLineStart with
  | nil =>
      simp only [signaturesFrom, List.not_mem_nil, false_iff]
      rintro ⟨before, header, rest, split, -, heads, -⟩
      obtain ⟨-, inner⟩ := List.append_eq_nil_iff.mp split.symm
      cases heads
      simp at inner
  | cons char text ih =>
      rw [signaturesFrom_cons, List.mem_append, mem_signatureAt, ih]
      constructor
      · rintro (⟨starts, header, rest, split, heads, same⟩ |
          ⟨before, header, rest, rfl, starts, heads, same⟩)
        · exact ⟨[], header, rest, split, starts, heads, same⟩
        · exact ⟨char :: before, header, rest, rfl, starts, heads, same⟩
      · rintro ⟨before, header, rest, split, starts, heads, same⟩
        cases before with
        | nil => exact .inl ⟨starts, header, rest, split, heads, same⟩
        | cons first before =>
            obtain ⟨rfl, rfl⟩ := List.cons.inj split
            exact .inr ⟨before, header, rest, rfl, starts, heads, same⟩

/-- The functions of a text are those whose headers stand at the beginning of one of its lines. -/
theorem mem_signatures {text name parameters : Text} :
    (name, parameters) ∈ signatures text ↔
      ∃ before header rest, text = before ++ (header ++ rest) ∧ EndsLine before ∧
        Heads name header ∧ parameters = parameterText rest := by
  rw [signatures, mem_signaturesFrom]
  simp only [lineStartAfter_iff]

theorem exists_signatures_of_heads {name header : Text} (heads : Heads name header) (rest : Text) :
    ∃ later, signatures (header ++ rest) = (name, parameterText rest) :: later := by
  have read := functionHeader?_append heads rest
  cases split : header ++ rest with
  | nil =>
      rw [split] at read
      cases read
  | cons char others =>
      rw [split] at read
      refine ⟨signaturesFrom (char == '\n') others, ?_⟩
      rw [signatures, signaturesFrom_cons, signatureAt, if_pos rfl, read]
      rfl

/-- A header on a line that is complete is read whatever follows that line. -/
private theorem map_fst_signatureAt (atLineStart : Bool) (line more : Text) :
    (signatureAt atLineStart (line ++ '\n' :: more)).map Prod.fst =
      (signatureAt atLineStart (line ++ ['\n'])).map Prod.fst := by
  unfold signatureAt
  split
  · rw [functionHeader?_append_break, functionHeader?_append_break]
    cases functionHeader? line <;> rfl
  · rfl

private theorem exists_signaturesFrom_append {atLineStart : Bool} {before : Text}
    (ends : lineStartAfter atLineStart before = true) (text : Text) :
    ∃ earlier, signaturesFrom atLineStart (before ++ text) = earlier ++ signaturesFrom true text ∧
      earlier.map Prod.fst = (signaturesFrom atLineStart before).map Prod.fst := by
  induction before generalizing atLineStart with
  | nil =>
      obtain rfl : atLineStart = true := ends
      exact ⟨[], rfl, rfl⟩
  | cons char rest ih =>
      obtain ⟨later, split, names⟩ := ih ends
      have here : (signatureAt atLineStart (char :: rest ++ text)).map Prod.fst =
          (signatureAt atLineStart (char :: rest)).map Prod.fst := by
        obtain ⟨line, last, same⟩ :=
          (List.eq_nil_or_concat (char :: rest)).resolve_left (List.cons_ne_nil _ _)
        rw [List.concat_eq_append] at same
        rw [same, lineStartAfter_concat, beq_iff_eq] at ends
        rw [same, ends, List.append_assoc]
        exact map_fst_signatureAt atLineStart line text
      refine ⟨signatureAt atLineStart (char :: rest ++ text) ++ later, ?_, ?_⟩
      · rw [List.append_assoc, ← split]
        rfl
      · rw [List.map_append, here, names, signaturesFrom_cons, List.map_append]

/-- Behind complete lines the functions of a text follow those of the lines, which keep their
names. -/
theorem exists_signatures_append {before : Text} (ends : EndsLine before) (text : Text) :
    ∃ earlier, signatures (before ++ text) = earlier ++ signatures text ∧
      earlier.map Prod.fst = (signatures before).map Prod.fst :=
  exists_signaturesFrom_append (lineStartAfter_iff.mpr ends) text

end NotebookLint.Names
