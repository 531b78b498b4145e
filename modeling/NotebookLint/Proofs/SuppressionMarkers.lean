import NotebookLint.Proofs.Spacing
import NotebookLint.Suppression

/-! How suppression comments are read. A comment that ends after its marker covers every rule, and
one that goes on with a colon and rule names covers just these, whatever letter case it is written in
and however its parts are spaced. -/

set_option autoImplicit false

namespace NotebookLint.Suppression

/-- Whether a comment begins with a marker that `rest` follows. Its words may be written in any
letter case, with blanks before them. -/
inductive Opens (keyword : String) (rest : Text) : Text → Prop where
  | intro {gap program space word : Text} (blankGap : Text.isBlankText gap = true)
      (spelled : program.map foldLetter = "cellint:".toList)
      (blankSpace : Text.isBlankText space = true) (named : word.map foldLetter = keyword.toList) :
      Opens keyword rest ('#' :: (gap ++ (program ++ (space ++ (word ++ rest)))))

/-- Whether a name can be listed in a comment: it has ASCII letters, digits and underscores, and does
not begin with a digit. -/
def isRuleName (name : Text) : Bool :=
  name.head?.any isNameStart && name.all fun char => isNameStart char || isAsciiDigit char

/-- Whether a text is a name with blanks around it. -/
def Pads (name piece : Text) : Prop :=
  ∃ before after, Text.isBlankText before = true ∧ Text.isBlankText after = true ∧
    piece = before ++ (name ++ after)

/-- Whether a text lists rule names between commas. -/
def Lists (names : List Text) (list : Text) : Prop :=
  (∀ name ∈ names, isRuleName name = true) ∧
    ∃ pieces, List.Forall₂ Pads names pieces ∧ list = Text.join [','] pieces

theorem foldLetter_of_isBlank {char : Char} (blank : isBlank char = true) :
    foldLetter char = char := by
  have codes : char.toNat ≠ 0x130 ∧ char.toNat ≠ 0x131 ∧ char.toNat ≠ 0x17F ∧
      char.toNat ≠ 0x212A ∧ ¬(65 ≤ char.toNat ∧ char.toNat ≤ 90) := by
    simp only [isBlank, Bool.or_eq_true, Bool.and_eq_true, decide_eq_true_eq, beq_iff_eq] at blank
    omega
  obtain ⟨dotted, dotless, long, kelvin, small⟩ := codes
  have noCapital : ¬('A' ≤ char ∧ char ≤ 'Z') := small
  simp [foldLetter, dotted, dotless, long, kelvin, noCapital]

/-- What a character of a rule name is to a reader of comments. -/
private theorem reads_of_ruleName {char : Char}
    (allowed : (isNameStart char || isAsciiDigit char) = true) :
    isListChar char = true ∧ isBlank char = false ∧ char ≠ ',' ∧
      (isNameStart char = true → isListStart char = true) := by
  have codes : ∀ code < 128,
      (isNameStart (Char.ofNat code) || isAsciiDigit (Char.ofNat code)) = true →
        isListChar (Char.ofNat code) = true ∧ isBlank (Char.ofNat code) = false ∧
          Char.ofNat code ≠ ',' ∧
          (isNameStart (Char.ofNat code) = true → isListStart (Char.ofNat code) = true) := by
    decide
  have ascii : char.toNat < 128 := by
    simp only [isNameStart, isAsciiLetter, isAsciiDigit, Bool.or_eq_true, Bool.and_eq_true,
      decide_eq_true_eq, beq_iff_eq] at allowed
    have bounds : char.toNat ≤ 122 ∨ char.toNat ≤ 90 ∨ char = '_' ∨ char.toNat ≤ 57 := by
      rcases allowed with ((⟨-, high⟩ | ⟨-, high⟩) | score) | ⟨-, high⟩
      · exact .inl high
      · exact .inr (.inl high)
      · exact .inr (.inr (.inl score))
      · exact .inr (.inr (.inr high))
    rcases bounds with small | capital | rfl | digit
    · omega
    · omega
    · decide
    · omega
  rw [← Char.ofNat_toNat char] at allowed ⊢
  exact codes char.toNat ascii allowed

theorem afterFolded?_append {written expected : Text} (folded : written.map foldLetter = expected)
    (rest : Text) : afterFolded? expected (written ++ rest) = some rest := by
  subst folded
  induction written with
  | nil => simp [afterFolded?]
  | cons char others ih => simpa [afterFolded?] using ih

/-- Blanks before a word in any letter case are passed over. -/
theorem trimLeft_append_folded {gap written expected : Text} {first : Char} {others : Text}
    (blank : Text.isBlankText gap = true) (folded : written.map foldLetter = expected)
    (begins : expected = first :: others) (visible : isBlank first = false) (rest : Text) :
    Text.trimLeft (gap ++ (written ++ rest)) = written ++ rest := by
  apply Text.trimLeft_append gap (List.all_eq_true.mp blank)
  intro char starts
  cases written with
  | nil => rw [← folded] at begins; cases begins
  | cons head tail =>
      rw [List.cons_append, List.head?_cons, Option.mem_some_iff] at starts
      rw [← folded, List.map_cons, List.cons.injEq] at begins
      cases blankHead : isBlank char with
      | false => rfl
      | true =>
          rw [← starts] at blankHead
          rw [← begins.1, foldLetter_of_isBlank blankHead, blankHead] at visible
          cases visible

/-- A comment that begins with a marker covers what follows the marker says. -/
theorem marker?_of_opens {keyword : String} {rest comment : Text}
    (visible : keyword.toList.head?.any (fun char => !isBlank char) = true)
    (opens : Opens keyword rest comment) : marker? keyword comment = some (coverage rest) := by
  obtain ⟨blankGap, spelled, blankSpace, named⟩ := opens
  cases letters : keyword.toList with
  | nil => rw [letters] at visible; cases visible
  | cons first others =>
      have plain : isBlank first = false := by simpa [letters] using visible
      have program := trimLeft_append_folded blankGap spelled rfl (by decide)
      have word := trimLeft_append_folded blankSpace named letters plain
      simp only [marker?, Text.suffixes, List.findSome?_cons, markerAt?, Text.char?, if_pos, program,
        afterFolded?_append spelled, word, afterFolded?_append named, Option.bind_eq_bind,
        Option.bind_some, Option.pure_def]

/-- A comment that ends after its marker covers every rule. -/
theorem marker?_of_bare {keyword : String} {comment : Text}
    (visible : keyword.toList.head?.any (fun char => !isBlank char) = true)
    (opens : Opens keyword [] comment) : marker? keyword comment = some .all :=
  marker?_of_opens visible opens

/-! ## Lists of rule names -/

private theorem visible_of_isRuleName {name : Text} (valid : isRuleName name = true) :
    ∃ first others, name = first :: others ∧ isListStart first = true ∧
      ∀ char ∈ name, isListChar char = true ∧ isBlank char = false ∧ char ≠ ',' := by
  simp only [isRuleName, Bool.and_eq_true, List.all_eq_true] at valid
  obtain ⟨starts, allowed⟩ := valid
  cases name with
  | nil => cases starts
  | cons first others =>
      have start : isNameStart first = true := by simpa using starts
      refine ⟨first, others, rfl, ?_, ?_⟩
      · exact (reads_of_ruleName (allowed first List.mem_cons_self)).2.2.2 start
      · intro char member
        obtain ⟨listed, plain, uncut, -⟩ := reads_of_ruleName (allowed char member)
        exact ⟨listed, plain, uncut⟩

theorem trim_of_pads {name piece : Text} (valid : isRuleName name = true) (pads : Pads name piece) :
    Text.trim piece = name := by
  obtain ⟨before, after, blankBefore, blankAfter, rfl⟩ := pads
  obtain ⟨-, -, -, -, plain⟩ := visible_of_isRuleName valid
  apply Text.trim_append_append blankBefore blankAfter
  · intro char begins
    exact (plain char (List.mem_of_mem_head? begins)).2.1
  · intro char ends
    exact (plain char (List.mem_of_getLast? ends)).2.1

theorem mem_join {separator : Char} {pieces : List Text} {char : Char}
    (member : char ∈ Text.join [separator] pieces) :
    char = separator ∨ ∃ piece ∈ pieces, char ∈ piece := by
  induction pieces with
  | nil => cases member
  | cons piece rest ih =>
      cases rest with
      | nil => exact .inr ⟨piece, List.mem_cons_self, member⟩
      | cons next others =>
          rw [Text.join, List.append_assoc, List.singleton_append] at member
          rcases List.mem_append.mp member with here | later
          · exact .inr ⟨piece, List.mem_cons_self, here⟩
          · rcases List.mem_cons.mp later with same | inside
            · exact .inl same
            · obtain found | ⟨other, isPiece, holds⟩ := ih inside
              · exact .inl found
              · exact .inr ⟨other, List.mem_cons_of_mem _ isPiece, holds⟩

private theorem listed_of_mem_pads {name piece : Text} (valid : isRuleName name = true)
    (pads : Pads name piece) {char : Char} (member : char ∈ piece) :
    isListChar char = true ∧ char ≠ ',' := by
  obtain ⟨before, after, blankBefore, blankAfter, rfl⟩ := pads
  obtain ⟨-, -, -, -, plain⟩ := visible_of_isRuleName valid
  have blanks : isBlank char = true → isListChar char = true ∧ char ≠ ',' := by
    intro blank
    refine ⟨by simp [isListChar, blank], ?_⟩
    rintro rfl
    exact absurd blank (by decide)
  rcases List.mem_append.mp member with inBefore | later
  · exact blanks (List.all_eq_true.mp blankBefore char inBefore)
  · rcases List.mem_append.mp later with inName | inAfter
    · obtain ⟨listed, -, uncut⟩ := plain char inName
      exact ⟨listed, uncut⟩
    · exact blanks (List.all_eq_true.mp blankAfter char inAfter)

theorem listed_of_mem_pieces {names pieces : List Text}
    (valid : ∀ name ∈ names, isRuleName name = true) (padded : List.Forall₂ Pads names pieces)
    {piece : Text} (isPiece : piece ∈ pieces) {char : Char} (member : char ∈ piece) :
    isListChar char = true ∧ char ≠ ',' := by
  induction padded with
  | nil => cases isPiece
  | cons pads _ ih =>
      rcases List.mem_cons.mp isPiece with rfl | later
      · exact listed_of_mem_pads (valid _ List.mem_cons_self) pads member
      · exact ih (fun name known => valid name (List.mem_cons_of_mem _ known)) later

private theorem map_trim_pieces {names pieces : List Text}
    (valid : ∀ name ∈ names, isRuleName name = true) (padded : List.Forall₂ Pads names pieces) :
    pieces.map Text.trim = names := by
  induction padded with
  | nil => rfl
  | cons pads _ ih =>
      rw [List.map_cons, trim_of_pads (valid _ List.mem_cons_self) pads,
        ih fun name known => valid name (List.mem_cons_of_mem _ known)]

theorem ofList_join {names pieces : List Text} (valid : ∀ name ∈ names, isRuleName name = true)
    (padded : List.Forall₂ Pads names pieces) (nonempty : names ≠ []) :
    Coverage.ofList (Text.join [','] pieces) = .only (names.map Text.lower) := by
  have some : pieces ≠ [] := by
    rintro rfl
    cases padded
    exact nonempty rfl
  have cut : Text.splitOn ',' (Text.join [','] pieces) = pieces := by
    rw [Text.splitOn_eq, Text.join_eq_intercalate]
    apply List.splitOn_intercalate ',' _ some
    intro piece isPiece inside
    exact (listed_of_mem_pieces valid padded isPiece inside).2 rfl
  have named : names.filter (fun name => !name.isEmpty) = names := by
    rw [List.filter_eq_self]
    intro name known
    obtain ⟨first, others, rfl, -⟩ := visible_of_isRuleName (valid name known)
    rfl
  rw [Coverage.ofList, cut, map_trim_pieces valid padded, named]
  cases names with
  | nil => exact absurd rfl nonempty
  | cons name rest => rfl

/-- A comment that goes on with a colon and rule names covers exactly these rules. -/
theorem marker?_of_lists {keyword : String} {names : List Text} {list comment : Text}
    (visible : keyword.toList.head?.any (fun char => !isBlank char) = true)
    (opens : Opens keyword (':' :: list) comment) (lists : Lists names list)
    (nonempty : names ≠ []) : marker? keyword comment = some (.only (names.map Text.lower)) := by
  obtain ⟨valid, pieces, padded, rfl⟩ := lists
  rw [marker?_of_opens visible opens]
  congr 1
  cases padded with
  | nil => exact absurd rfl nonempty
  | @cons name piece others pieces pads rest =>
      -- Only the blanks after the colon are skipped, so what is left is again such a list.
      obtain ⟨before, after, blankBefore, blankAfter, rfl⟩ := pads
      have padded : List.Forall₂ Pads (name :: others) ((name ++ after) :: pieces) :=
        .cons ⟨[], after, rfl, blankAfter, rfl⟩ rest
      obtain ⟨first, letters, begins, starts, plain⟩ :=
        visible_of_isRuleName (valid name List.mem_cons_self)
      have joined : Text.join [','] ((before ++ (name ++ after)) :: pieces) =
          before ++ Text.join [','] ((name ++ after) :: pieces) := by
        cases pieces <;> simp [Text.join]
      have head : (Text.join [','] ((name ++ after) :: pieces)).head? = some first := by
        cases pieces <;> simp [Text.join, begins]
      have left : Text.trimLeft (before ++ Text.join [','] ((name ++ after) :: pieces)) =
          Text.join [','] ((name ++ after) :: pieces) := by
        apply Text.trimLeft_append before (List.all_eq_true.mp blankBefore)
        intro char isHead
        rw [head, Option.mem_some_iff] at isHead
        exact (plain char (by rw [begins, isHead]; exact List.mem_cons_self)).2.1
      have whole : (Text.join [','] ((name ++ after) :: pieces)).takeWhile isListChar =
          Text.join [','] ((name ++ after) :: pieces) := by
        rw [List.takeWhile_eq_self_iff]
        intro char member
        rcases mem_join member with rfl | ⟨piece, isPiece, inside⟩
        · decide
        · exact (listed_of_mem_pieces valid padded isPiece inside).1
      simp only [coverage, joined, left, head, Option.any_some, starts, if_true, whole]
      exact ofList_join valid padded nonempty

end NotebookLint.Suppression
