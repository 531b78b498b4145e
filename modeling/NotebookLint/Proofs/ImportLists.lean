import NotebookLint.Imports.Binding
import NotebookLint.Proofs.BindingSpacing
import NotebookLint.Proofs.CommaLists

/-! How the members of a from-import are written and read. The list may stand on one line, in
parentheses with line breaks and comments between its members, or be continued by backslashes. Joining
its lines and cutting it at the commas gives the same members for each of these. -/

set_option autoImplicit false

namespace NotebookLint.Import

open Text

/-! ## Written members -/

/-- Whether a text is a name and no reserved word. -/
def IsFreeName (name : Text) : Prop :=
  isName name = true ∧ name ∉ Names.keywords

instance (name : Text) : Decidable (IsFreeName name) :=
  inferInstanceAs (Decidable (_ ∧ _))

/-- A member of a from-import, with the alias that it is bound to if it has one. -/
structure Member where
  name : Text
  alias? : Option Text
  free : IsFreeName name
  freeAlias : ∀ other ∈ alias?, IsFreeName other

namespace Member

def bound (member : Member) : Text :=
  member.alias?.getD member.name

def words (member : Member) : List Text :=
  member.name :: member.alias?.elim [] fun other => ["as".toList, other]

end Member

/-- Whether a text holds only blanks, on one line. -/
def InLine (gap : Text) : Prop :=
  isBlankText gap = true ∧ '\n' ∉ gap

instance (gap : Text) : Decidable (InLine gap) :=
  inferInstanceAs (Decidable (_ ∧ _))

/-- The texts that a member may be written as. -/
inductive Spells (member : Member) : Text → Prop
  | bare (unnamed : member.alias? = none) : Spells member member.name
  | renamed {other before after : Text} (named : member.alias? = some other)
      (first : before ≠ []) (space : InLine before) (second : after ≠ []) (gap : InLine after) :
      Spells member (member.name ++ (before ++ ("as".toList ++ (after ++ other))))

/-- Blanks, line breaks and comments, as they may stand in parentheses. -/
inductive Spreads : Text → Prop
  | nil : Spreads []
  | blank {char : Char} {gap : Text} (isBlank : isBlank char = true) (later : Spreads gap) :
      Spreads (char :: gap)
  | comment {text gap : Text} (unbroken : '\n' ∉ text) (later : Spreads gap) :
      Spreads ('#' :: (text ++ '\n' :: gap))

/-- Blanks on lines that are continued by backslashes. -/
inductive Continues : Text → Prop
  | inLine {gap : Text} (space : InLine gap) : Continues gap
  | backslash {gap later : Text} (space : InLine gap) (continued : Continues later) :
      Continues (gap ++ '\\' :: '\n' :: later)

/-! ## Reading a member -/

namespace Spells

variable {member : Member} {written : Text}

theorem isWordChar_or_isBlank (spelled : Spells member written) :
    ∀ char ∈ written, isWordChar char = true ∨ isBlank char = true ∧ char ≠ '\n' := by
  obtain ⟨-, -, -, -, letters⟩ := Names.exists_of_isName member.free.1
  have inGap : ∀ {gap : Text}, InLine gap → ∀ char ∈ gap, isBlank char = true ∧ char ≠ '\n' := by
    intro gap space char inside
    refine ⟨List.all_eq_true.mp space.1 char inside, ?_⟩
    rintro rfl
    exact space.2 inside
  intro char inside
  cases spelled with
  | bare unnamed => exact .inl (letters char inside)
  | @renamed other before after named first space second gap =>
      obtain ⟨-, -, -, -, otherLetters⟩ :=
        Names.exists_of_isName (member.freeAlias other named).1
      have keyword : ∀ char ∈ "as".toList, isWordChar char = true :=
        List.all_eq_true.mp (by decide)
      simp only [List.mem_append] at inside
      rcases inside with inName | inSpace | inWord | inGapText | inOther
      · exact .inl (letters char inName)
      · exact .inr (inGap space char inSpace)
      · exact .inl (keyword char inWord)
      · exact .inr (inGap gap char inGapText)
      · exact .inl (otherLetters char inOther)

/-- A written member has no signs and no line break in it. -/
theorem not_mem (spelled : Spells member written) {sign : Char}
    (noWord : isWordChar sign = false) (noSpace : isBlank sign = false ∨ sign = '\n') :
    sign ∉ written := by
  intro inside
  rcases spelled.isWordChar_or_isBlank sign inside with word | ⟨blank, visible⟩
  · rw [noWord] at word
    cases word
  · rcases noSpace with noBlank | isBreak
    · rw [noBlank] at blank
      cases blank
    · exact visible isBreak

theorem ne_of_mem (spelled : Spells member written) {char sign : Char} (inside : char ∈ written)
    (noWord : isWordChar sign = false) (noSpace : isBlank sign = false ∨ sign = '\n') :
    char ≠ sign := by
  rintro rfl
  exact spelled.not_mem noWord noSpace inside

theorem begins (spelled : Spells member written) :
    ∃ first others, written = first :: others ∧ isNameStart first = true := by
  obtain ⟨first, others, name, starts, -⟩ := Names.exists_of_isName member.free.1
  cases spelled with
  | bare => exact ⟨first, others, name, starts⟩
  | renamed => exact ⟨first, _, by rw [name, List.cons_append], starts⟩

theorem ends (spelled : Spells member written) :
    ∀ char ∈ written.getLast?, isWordChar char = true := by
  intro char isLast
  cases spelled with
  | bare =>
      obtain ⟨-, -, -, -, letters⟩ := Names.exists_of_isName member.free.1
      exact letters char (List.mem_of_getLast? isLast)
  | @renamed other before after named =>
      obtain ⟨first, others, rfl, -, letters⟩ :=
        Names.exists_of_isName (member.freeAlias other named).1
      simp only [← List.append_assoc] at isLast
      rw [List.getLast?_append_of_ne_nil _ (List.cons_ne_nil _ _)] at isLast
      exact letters char (List.mem_of_getLast? isLast)

theorem trim_eq (spelled : Spells member written) {before after : Text}
    (blankBefore : isBlankText before = true) (blankAfter : isBlankText after = true) :
    trim (before ++ (written ++ after)) = written := by
  apply trim_append_append blankBefore blankAfter
  · obtain ⟨first, others, rfl, starts⟩ := spelled.begins
    intro char isFirst
    obtain rfl := Option.some.inj isFirst
    exact not_isBlank_of_isWordChar (Names.isWordChar_of_isNameStart starts)
  · intro char isLast
    exact not_isBlank_of_isWordChar (spelled.ends char isLast)

theorem memberName?_eq (spelled : Spells member written) :
    memberName? written = some member.bound := by
  obtain ⟨first, others, name, starts, letters⟩ := Names.exists_of_isName member.free.1
  have begins : member.name.head?.any isNameStart = true := by rw [name]; simpa using starts
  cases spelled with
  | bare unnamed =>
      have read : name? (member.name ++ []) = some (member.name, []) :=
        name?_append begins letters (by simp)
      rw [List.append_nil] at read
      simp [memberName?, read, alias?, Member.bound, unnamed]
  | @renamed other before after named nonempty space nonemptyGap gap =>
      have free := (member.freeAlias other named).1
      obtain ⟨head, tail, rfl, otherStarts, otherLetters⟩ := Names.exists_of_isName free
      have otherRead : name? (head :: tail ++ []) = some (head :: tail, []) :=
        name?_append (by simpa using otherStarts) otherLetters (by simp)
      rw [List.append_nil] at otherRead
      have visible := trimLeft_of_visible (Names.visible_of_isName free [])
      rw [List.append_nil] at visible
      have keyword : trimLeft ("as".toList ++ (after ++ head :: tail)) =
          "as".toList ++ (after ++ head :: tail) :=
        trimLeft_cons_of_visible (by decide) _
      have ended : ∀ char ∈ (before ++ ("as".toList ++ (after ++ head :: tail))).head?,
          isWordChar char = false := by
        intro char isFirst
        rw [List.head?_append_of_ne_nil _ nonempty] at isFirst
        exact not_isWordChar_of_isBlank
          (List.all_eq_true.mp space.1 char (List.mem_of_mem_head? isFirst))
      have more : (before ++ ("as".toList ++ (after ++ head :: tail))).isEmpty = false := by
        simp [nonempty]
      simp only [memberName?, name?_append begins letters ended, alias?, more, Bool.false_eq_true,
        if_false, gap?_append nonempty space.1, keyword, after?_append,
        gap?_append nonemptyGap gap.1, visible, otherRead, List.isEmpty_nil, if_true,
        Option.bind_eq_bind, Option.bind_some, Option.pure_def, Member.bound, named,
        Option.getD_some]

theorem words_eq (spelled : Spells member written) :
    (Text.words written).map Word.text = member.words := by
  have single : ∀ {name : Text}, isName name = true → (Text.words name).map Word.text = [name] := by
    intro name named
    obtain ⟨first, others, rfl, -, letters⟩ := Names.exists_of_isName named
    exact words_of_word (List.cons_ne_nil _ _) letters
  have separators : ∀ {gap : Text}, InLine gap → ∀ char ∈ gap, isWordChar char = false := by
    intro gap space char inside
    exact not_isWordChar_of_isBlank (List.all_eq_true.mp space.1 char inside)
  cases spelled with
  | bare unnamed => rw [single member.free.1, Member.words, unnamed]; rfl
  | @renamed other before after named nonempty space nonemptyGap gap =>
      rw [map_text_words_append_gap nonempty (separators space),
        map_text_words_append_gap nonemptyGap (separators gap), single member.free.1,
        single (member.freeAlias other named).1, Member.words, named]
      rfl

end Spells

theorem filterMap_of_forall₂ {members : List Member} {pieces : List Text}
    (spelled : List.Forall₂ Spells members pieces) {Bound : Type} (bind : Text → Bound) :
    (pieces.filterMap fun piece =>
      if piece == ['*'] then some (bind piece) else (memberName? piece).map bind) =
      members.map fun member => bind member.bound := by
  induction spelled with
  | nil => rfl
  | @cons member piece _ _ here _ ih =>
      have named : piece ≠ ['*'] := by
        obtain ⟨first, others, rfl, starts⟩ := here.begins
        intro star
        cases star
        exact absurd starts (by decide)
      simp only [List.filterMap_cons, beq_iff_eq, named, if_false, here.memberName?_eq,
        Option.map_some, List.map_cons]
      exact congrArg (bind member.bound :: ·) (by simpa using ih)

/-! ## Joining the lines of a list -/

/-- What becomes of a character when the parentheses of a list are dropped. -/
def bare (char : Char) : Char :=
  if char == '(' || char == ')' then ' ' else char

theorem members_eq (list : Text) : members list = (splitOn ',' (list.map bare)).map trim := rfl

/-- What is left of a character when the lines of a list are joined, too. -/
def joined (char : Char) : Text :=
  if char == '\\' then []
  else if char == '\n' then [' ']
  else [bare char]

theorem flatMap_joined_of_plain {text : Text}
    (plain : ∀ char ∈ text, char ≠ '\\' ∧ char ≠ '\n' ∧ char ≠ '(' ∧ char ≠ ')') :
    text.flatMap joined = text := by
  induction text with
  | nil => rfl
  | cons char rest ih =>
      obtain ⟨here, later⟩ := List.forall_mem_cons.mp plain
      rw [List.flatMap_cons, ih later]
      simp [joined, bare, here]

/-- Whether joining the lines of a list leaves no more than a blank of a character. -/
def Fades (char : Char) : Prop :=
  isBlank char = true ∨ char = '\\' ∨ char = '(' ∨ char = ')'

instance (char : Char) : Decidable (Fades char) :=
  inferInstanceAs (Decidable (_ ∨ _))

theorem Fades.not_isWordChar {char : Char} (fades : Fades char) : isWordChar char = false := by
  rcases fades with blank | rfl | rfl | rfl
  · exact not_isWordChar_of_isBlank blank
  · decide
  · decide
  · decide

theorem fades_of_isBlankText {gap : Text} (blank : isBlankText gap = true) :
    ∀ char ∈ gap, Fades char :=
  fun char inside => .inl (List.all_eq_true.mp blank char inside)

theorem isBlankText_flatMap_joined {text : Text} (fades : ∀ char ∈ text, Fades char) :
    Blank (text.flatMap joined) := by
  induction text with
  | nil => rfl
  | cons char rest ih =>
      obtain ⟨here, later⟩ := List.forall_mem_cons.mp fades
      rw [List.flatMap_cons, Blank, isBlankText_append, ih later, Bool.and_true]
      rcases here with blank | rfl | rfl | rfl
      · by_cases isBreak : char = '\n'
        · subst isBreak
          rfl
        · have plain : char ≠ '\\' ∧ char ≠ '(' ∧ char ≠ ')' := by
            refine ⟨?_, ?_, ?_⟩ <;> rintro rfl <;> exact absurd blank (by decide)
          simpa [isBlankText, joined, bare, isBreak, plain] using blank
      · rfl
      · rfl
      · rfl

private theorem join_cons (separator : Text) (piece : Text) {pieces : List Text}
    (more : pieces ≠ []) :
    join separator (piece :: pieces) = piece ++ (separator ++ join separator pieces) := by
  cases pieces with
  | nil => exact absurd rfl more
  | cons next others => rw [join, List.append_assoc]

private theorem join_modifyHead (separator : Text) (char : Char) {pieces : List Text}
    (some : pieces ≠ []) :
    join separator (pieces.modifyHead (char :: ·)) = char :: join separator pieces := by
  cases pieces with
  | nil => exact absurd rfl some
  | cons piece others => cases others <;> rfl

theorem map_bare_join_lines {text : Text} (unescaped : '\\' ∉ text) :
    (join [' '] (lines text)).map bare = text.flatMap joined := by
  induction text with
  | nil => rfl
  | cons char rest ih =>
      rw [List.mem_cons, not_or] at unescaped
      obtain ⟨plain, others⟩ := unescaped
      rw [List.flatMap_cons, ← ih others]
      by_cases isBreak : char = '\n'
      · subst isBreak
        rw [lines_cons_break, join_cons _ _ (lines_ne_nil rest)]
        rfl
      · rw [lines_cons_of_ne isBreak, join_modifyHead _ _ (lines_ne_nil rest), List.map_cons]
        simp [joined, isBreak, Ne.symm plain]

private theorem backslashPieces_ne_nil (piece : Text) (following : List Text) :
    backslashPieces piece following ≠ [] := by
  cases following with
  | nil => exact List.cons_ne_nil _ _
  | cons next others => rw [backslashPieces]; split <;> exact List.cons_ne_nil _ _

theorem not_endsWithBackslash {line : Text} (unescaped : '\\' ∉ line) :
    endsWithBackslash line = false := by
  rw [endsWithBackslash, beq_eq_false_iff_ne]
  intro last
  have kept := List.mem_of_mem_head? (Option.mem_def.mpr last)
  exact unescaped (List.mem_reverse.mp ((List.dropWhile_sublist _).subset kept))

theorem backslashPieces_of_unescaped {line : Text} (unescaped : '\\' ∉ line)
    (following : List Text) : backslashPieces line following = [line] := by
  cases following with
  | nil => rfl
  | cons next others => simp [backslashPieces, not_endsWithBackslash unescaped]

/-- Whether every line of a text but the last one ends in the backslash that carries it on. -/
inductive CarriesOn : Text → Prop
  | last {line : Text} (plain : ∀ char ∈ line, char ≠ '\\' ∧ char ≠ '\n') : CarriesOn line
  | backslash {line later : Text} (plain : ∀ char ∈ line, char ≠ '\\' ∧ char ≠ '\n')
      (carried : CarriesOn later) : CarriesOn (line ++ '\\' :: '\n' :: later)

namespace CarriesOn

theorem plain_append {line text : Text} (plain : ∀ char ∈ line, char ≠ '\\' ∧ char ≠ '\n')
    (carries : CarriesOn text) : CarriesOn (line ++ text) := by
  have both : ∀ {other : Text}, (∀ char ∈ other, char ≠ '\\' ∧ char ≠ '\n') →
      ∀ char ∈ line ++ other, char ≠ '\\' ∧ char ≠ '\n' := by
    intro other plainOther char inside
    exact (List.mem_append.mp inside).elim (plain char) (plainOther char)
  cases carries with
  | last plainText => exact .last (both plainText)
  | backslash plainText carried =>
      rw [← List.append_assoc]
      exact .backslash (both plainText) carried

theorem append {text more : Text} (first : CarriesOn text) (second : CarriesOn more) :
    CarriesOn (text ++ more) := by
  induction first with
  | last plain => exact second.plain_append plain
  | backslash plain _ ih =>
      rw [List.append_assoc, List.cons_append, List.cons_append]
      exact .backslash plain ih

/-- A text that backslashes carry on is read up to its end and no further. -/
theorem map_bare_backslashPieces {text : Text} (carries : CarriesOn text) {first : Text}
    {more : List Text} (split : lines text = first :: more) (following : List Text) :
    (join [' '] (backslashPieces first (more ++ following))).map bare = text.flatMap joined := by
  induction carries generalizing first more with
  | @last line plain =>
      have unescaped : '\\' ∉ line := fun inside => (plain _ inside).1 rfl
      have single := lines_of_not_mem fun inside => (plain _ inside).2 rfl
      have joinedLine := map_bare_join_lines unescaped
      rw [single] at split joinedLine
      obtain ⟨rfl, rfl⟩ := List.cons.inj split
      rw [List.nil_append, backslashPieces_of_unescaped unescaped]
      exact joinedLine
  | @backslash line later plain carried ih =>
      have unescaped : '\\' ∉ line := fun inside => (plain _ inside).1 rfl
      have unbroken : '\n' ∉ line := fun inside => (plain _ inside).2 rfl
      have joinedLine := map_bare_join_lines unescaped
      rw [lines_of_not_mem unbroken] at joinedLine
      obtain ⟨next, others, laterLines⟩ := List.exists_cons_of_ne_nil (lines_ne_nil later)
      have cut : lines (line ++ '\\' :: '\n' :: later) =
          (line ++ ['\\']) :: next :: others := by
        have whole : '\n' ∉ line ++ ['\\'] := by
          rw [List.mem_append, not_or]
          exact ⟨unbroken, by decide⟩
        rw [← List.singleton_append, ← List.append_assoc, lines_append_break,
          lines_of_not_mem whole, laterLines]
        rfl
      rw [cut] at split
      obtain ⟨rfl, rfl⟩ := List.cons.inj split
      have continued : endsWithBackslash (line ++ ['\\']) = true := by
        simp [endsWithBackslash, lastVisible?, isBlank]
      have dropped : (trimRight (line ++ ['\\'])).dropLast = line := by
        simp [trimRight, isBlank]
      rw [List.cons_append, backslashPieces, if_pos continued, dropped,
        join_cons _ _ (backslashPieces_ne_nil _ _), List.map_append, List.map_append,
        ih laterLines, List.flatMap_append, ← joinedLine]
      rfl

end CarriesOn

/-- Following a list to its closing parenthesis: this is on the first line, or the lines after it are
taken up to the last one. -/
theorem throughParenthesis_lines {inside ending : Text} (unclosed : ')' ∉ inside)
    (unbroken : '\n' ∉ ending) {first : Text} {more : List Text}
    (split : lines (inside ++ ')' :: ending) = first :: more) (following : List Text) :
    ')' ∈ first ∧ more = [] ∨
      ')' ∉ first ∧ throughParenthesis (more ++ following) = more := by
  induction inside generalizing first more with
  | nil =>
      have single : '\n' ∉ ')' :: ending := by
        rw [List.mem_cons, not_or]
        exact ⟨by decide, unbroken⟩
      rw [List.nil_append, lines_of_not_mem single] at split
      obtain ⟨rfl, rfl⟩ := List.cons.inj split
      exact .inl ⟨List.mem_cons_self, rfl⟩
  | cons char rest ih =>
      rw [List.mem_cons, not_or] at unclosed
      obtain ⟨noParenthesis, unclosedRest⟩ := unclosed
      obtain ⟨next, others, restLines⟩ :=
        List.exists_cons_of_ne_nil (lines_ne_nil (rest ++ ')' :: ending))
      have later := ih unclosedRest restLines
      by_cases isBreak : char = '\n'
      · subst isBreak
        rw [List.cons_append, lines_cons_break, restLines] at split
        obtain ⟨rfl, rfl⟩ := List.cons.inj split
        refine .inr ⟨by simp, ?_⟩
        rcases later with ⟨closed, rfl⟩ | ⟨unclosedNext, through⟩
        · simp [throughParenthesis, closed]
        · simp [throughParenthesis, unclosedNext, through]
      · rw [List.cons_append, lines_cons_of_ne isBreak, restLines, List.modifyHead_cons] at split
        obtain ⟨rfl, rfl⟩ := List.cons.inj split
        rcases later with ⟨closed, rfl⟩ | ⟨unclosedNext, through⟩
        · exact .inl ⟨List.mem_cons_of_mem _ closed, rfl⟩
        · refine .inr ⟨?_, through⟩
          rw [List.mem_cons, not_or]
          exact ⟨noParenthesis, unclosedNext⟩

theorem exists_head_of_lines {char : Char} (visible : char ≠ '\n') {rest first : Text}
    {more : List Text} (split : lines (char :: rest) = first :: more) :
    ∃ others, first = char :: others := by
  obtain ⟨next, others, restLines⟩ := List.exists_cons_of_ne_nil (lines_ne_nil rest)
  rw [lines_cons_of_ne visible, restLines, List.modifyHead_cons] at split
  exact ⟨next, (List.cons.inj split).1.symm⟩

theorem trimLeft_of_begins {first others : Text} {char : Char} (visible : isBlank char = false)
    (begun : first = char :: others) : trimLeft first = char :: others := by
  rw [begun]
  exact trimLeft_cons_of_visible visible others

/-- All lines of a list in parentheses are joined, and no line after them. -/
theorem memberList_of_parenthesized {inside ending : Text} (unclosed : ')' ∉ inside)
    (unbroken : '\n' ∉ ending) (unescaped : '\\' ∉ '(' :: (inside ++ ')' :: ending)) {first : Text}
    {more : List Text} (split : lines ('(' :: (inside ++ ')' :: ending)) = first :: more)
    (following : List Text) :
    memberList first (more ++ following) =
      join [' '] (lines ('(' :: (inside ++ ')' :: ending))) := by
  obtain ⟨tail, begun⟩ := exists_head_of_lines (by decide) split
  have notBefore : ')' ∉ '(' :: inside := by
    rw [List.mem_cons, not_or]
    exact ⟨by decide, unclosed⟩
  rw [memberList, trimLeft_of_begins (by decide) begun, split]
  rcases throughParenthesis_lines notBefore unbroken split following with
    ⟨closed, rfl⟩ | ⟨unclosedFirst, through⟩
  · have whole : first = '(' :: (inside ++ ')' :: ending) := by
      rw [← ofLines_lines ('(' :: (inside ++ ')' :: ending)), split]
      rfl
    rw [← whole] at unescaped
    simp [closed, backslashPieces_of_unescaped unescaped]
  · simp [unclosedFirst, through]

/-! ## Reading a list over its lines -/

/-- Whether a text over several lines is read as a list of these members, whatever lines follow. -/
structure ReadsAs (members : List Member) (text : Text) : Prop where
  begins : ∃ first others, text = first :: others ∧ isBlank first = false
  listed : ∀ first more, lines text = first :: more → ∀ following, ∃ pieces,
    List.Forall₂ Spells members pieces ∧
      (Import.members (memberList first (more ++ following)) = pieces ∨
        Import.members (memberList first (more ++ following)) = pieces ++ [[]])
  words : (Text.words text).map Word.text = members.flatMap Member.words

theorem Continues.blank_or_backslash {gap : Text} (continues : Continues gap) :
    ∀ char ∈ gap, isBlank char = true ∨ char = '\\' := by
  induction continues with
  | inLine space => exact fun char inside => .inl (List.all_eq_true.mp space.1 char inside)
  | @backslash gap later space _ ih =>
      intro char inside
      simp only [List.mem_append, List.mem_cons] at inside
      rcases inside with inGap | rfl | rfl | inLater
      · exact .inl (List.all_eq_true.mp space.1 char inGap)
      · exact .inr rfl
      · exact .inl rfl
      · exact ih char inLater

theorem Continues.fades {gap : Text} (continues : Continues gap) : ∀ char ∈ gap, Fades char :=
  fun char inside => (continues.blank_or_backslash char inside).imp_right .inl

theorem InLine.plain {gap : Text} (space : InLine gap) :
    ∀ char ∈ gap, char ≠ '\\' ∧ char ≠ '\n' := by
  intro char inside
  have blank := List.all_eq_true.mp space.1 char inside
  constructor
  · rintro rfl
    exact absurd blank (by decide)
  · rintro rfl
    exact space.2 inside

theorem Continues.carriesOn {gap : Text} (continues : Continues gap) : CarriesOn gap := by
  induction continues with
  | inLine space => exact .last space.plain
  | backslash space _ ih => exact .backslash space.plain ih

theorem Spells.carriesOn {member : Member} {written : Text} (spelled : Spells member written) :
    CarriesOn written := by
  apply CarriesOn.last
  intro char inside
  exact ⟨spelled.ne_of_mem inside (by decide) (.inl (by decide)),
    spelled.ne_of_mem inside (by decide) (.inr rfl)⟩

end NotebookLint.Import

namespace NotebookLint.Text.Lists

open Import

variable {Gap : Text → Prop} {members : List Member} {list ending : Text}

theorem begins_name (lists : Lists Spells Gap members list) :
    ∃ first others, list = first :: others ∧ isNameStart first = true := by
  obtain ⟨member, written, rest, spelled, rfl⟩ := lists.exists_first
  obtain ⟨first, others, rfl, starts⟩ := spelled.begins
  exact ⟨first, others ++ rest, rfl, starts⟩

theorem words_members (separators : ∀ gap, Gap gap → ∀ char ∈ gap, isWordChar char = false)
    (lists : Lists Spells Gap members list) :
    (words list).map Word.text = members.flatMap Member.words :=
  lists.words_eq (fun _ _ spelled => spelled.words_eq) separators

theorem forall₂_members (lists : Lists Spells Blank members list) {before after : Text}
    (blankBefore : Blank before) (blankAfter : Blank after) :
    List.Forall₂ Spells members ((splitOn ',' (before ++ (list ++ after))).map trim) := by
  refine lists.forall₂_splitOn ?_ ?_ blankBefore blankAfter
  · intro member written spelled
    exact spelled.not_mem (by decide) (.inl (by decide))
  · intro member written spelled before after blankBefore blankAfter
    exact spelled.trim_eq blankBefore blankAfter

theorem not_mem_members (lists : Lists Spells Gap members list) {sign : Char}
    (absent : ∀ gap, Gap gap → sign ∉ gap) (noWord : isWordChar sign = false)
    (noSpace : isBlank sign = false ∨ sign = '\n') (noComma : sign ≠ ',') : sign ∉ list :=
  lists.not_mem noComma (fun _ _ spelled => spelled.not_mem noWord noSpace) absent

theorem flatMap_joined (blank : ∀ gap, Gap gap → Blank (gap.flatMap joined))
    (lists : Lists Spells Gap members list) : Lists Spells Blank members (list.flatMap joined) := by
  have kept : ∀ {member : Member} {written : Text}, Spells member written →
      written.flatMap joined = written := by
    intro member written spelled
    apply flatMap_joined_of_plain
    intro char inside
    exact ⟨spelled.ne_of_mem inside (by decide) (.inl (by decide)),
      spelled.ne_of_mem inside (by decide) (.inr rfl),
      spelled.ne_of_mem inside (by decide) (.inl (by decide)),
      spelled.ne_of_mem inside (by decide) (.inl (by decide))⟩
  have comma : joined ',' = [','] := rfl
  induction lists with
  | last spelled ended =>
      rw [List.flatMap_append, kept spelled]
      exact .last spelled (blank _ ended)
  | cons spelled ended begun _ ih =>
      rw [List.flatMap_append, List.flatMap_append, List.flatMap_cons, List.flatMap_append,
        kept spelled, comma, List.singleton_append]
      exact .cons spelled (blank _ ended) (blank _ begun) ih

theorem carriesOn (lists : Lists Spells Continues members list) : CarriesOn list := by
  have comma : ∀ char ∈ [','], char ≠ '\\' ∧ char ≠ '\n' :=
    List.forall_mem_singleton.mpr (by decide)
  induction lists with
  | last spelled ended => exact spelled.carriesOn.append ended.carriesOn
  | cons spelled ended begun _ ih =>
      refine spelled.carriesOn.append (ended.carriesOn.append ?_)
      exact (begun.carriesOn.append ih).plain_append comma

theorem readsAs_of_carried (lists : Lists Spells Continues members list) (space : InLine ending) :
    ReadsAs members (list ++ ending) := by
  obtain ⟨first, others, begun, starts⟩ := lists.begins_name
  have visible := not_isBlank_of_isWordChar (Names.isWordChar_of_isNameStart starts)
  have plain : first ≠ '\n' ∧ first ≠ '(' := by
    constructor <;> rintro rfl <;> exact absurd starts (by decide)
  have gaps : ∀ gap, Continues gap → Blank (gap.flatMap joined) :=
    fun gap continues => isBlankText_flatMap_joined continues.fades
  have separators : ∀ gap, Continues gap → ∀ char ∈ gap, isWordChar char = false :=
    fun gap continues char inside => (continues.fades char inside).not_isWordChar
  constructor
  case begins => exact ⟨first, others ++ ending, by rw [begun, List.cons_append], visible⟩
  case listed =>
    intro head more split following
    have carries := lists.carriesOn.append (.last space.plain)
    have split' := split
    rw [begun, List.cons_append] at split'
    obtain ⟨tail, headBegun⟩ := exists_head_of_lines plain.1 split'
    have memberList_eq : memberList head (more ++ following) =
        join [' '] (backslashPieces head (more ++ following)) := by
      rw [memberList, trimLeft_of_begins visible headBegun]
      simp [plain.2]
    refine ⟨_, ?_, .inl rfl⟩
    rw [memberList_eq, members_eq, carries.map_bare_backslashPieces split, List.flatMap_append]
    have nothing : Blank [] := rfl
    exact (lists.flatMap_joined gaps).forall₂_members nothing (gaps ending (.inLine space))
  case words =>
    rw [map_text_words_append_separators (separators ending (.inLine space)),
      lists.words_members separators]

theorem not_mem_enclosed (lists : Lists Spells Blank members list)
    {gap closing : Text} (blank : Blank gap)
    (closes : Closes Blank closing) {sign : Char}
    (noWord : isWordChar sign = false) (visible : isBlank sign = false) (noComma : sign ≠ ',') :
    sign ∉ gap ++ (list ++ closing) := by
  have inClosing : sign ∉ closing := by
    cases closes with
    | bare => exact List.not_mem_nil
    | comma begun =>
        rw [List.mem_cons, not_or]
        exact ⟨noComma, not_mem_of_isBlankText visible begun⟩
  simp only [List.mem_append, not_or]
  exact ⟨not_mem_of_isBlankText visible blank,
    lists.not_mem_members (fun gap => not_mem_of_isBlankText visible) noWord (.inl visible) noComma,
    inClosing⟩

section Parenthesized

variable (lists : Lists Spells Blank members list) {gap closing : Text} (blank : Blank gap)
  (closes : Closes Blank closing) (space : InLine ending)

theorem fades_opening {gap : Text} (blank : Blank gap) : ∀ char ∈ '(' :: gap, Fades char :=
  List.forall_mem_cons.mpr ⟨.inr (.inr (.inl rfl)), fades_of_isBlankText blank⟩

theorem fades_ending {ending : Text} (space : InLine ending) : ∀ char ∈ ')' :: ending, Fades char :=
  List.forall_mem_cons.mpr ⟨.inr (.inr (.inr rfl)), fades_of_isBlankText space.1⟩

include lists blank closes space

theorem exists_members_parenthesized :
    ∃ pieces, List.Forall₂ Spells members pieces ∧
      let text := ('(' :: ((gap ++ (list ++ closing)) ++ ')' :: ending)).flatMap joined
      ((splitOn ',' text).map trim = pieces ∨ (splitOn ',' text).map trim = pieces ++ [[]]) := by
  have inOneLine := lists.flatMap_joined fun gap blankGap =>
    isBlankText_flatMap_joined (fades_of_isBlankText blankGap)
  have listed : ∀ {rest : Text}, Blank rest → List.Forall₂ Spells members
      ((splitOn ',' (('(' :: gap).flatMap joined ++ (list.flatMap joined ++ rest))).map trim) :=
    inOneLine.forall₂_members (isBlankText_flatMap_joined (fades_opening blank))
  cases closes with
  | bare =>
      have text : ('(' :: ((gap ++ (list ++ [])) ++ ')' :: ending)).flatMap joined =
          ('(' :: gap).flatMap joined ++
            (list.flatMap joined ++ (')' :: ending).flatMap joined) := by
        simp
      rw [text]
      exact ⟨_, listed (isBlankText_flatMap_joined (fades_ending space)), .inl rfl⟩
  | @comma next begun =>
      have text : ('(' :: ((gap ++ (list ++ ',' :: next)) ++ ')' :: ending)).flatMap joined =
          (('(' :: gap).flatMap joined ++ (list.flatMap joined ++ [])) ++
            ',' :: (next ++ ')' :: ending).flatMap joined := by
        simp [joined, bare]
      -- Behind the last comma a blank piece is left, which names no member.
      have blankRest : Blank ((next ++ ')' :: ending).flatMap joined) := by
        apply isBlankText_flatMap_joined
        intro char inside
        exact (List.mem_append.mp inside).elim (fades_of_isBlankText begun char)
          (fades_ending space char)
      have single : ',' ∉ (next ++ ')' :: ending).flatMap joined :=
        not_mem_of_isBlankText (by decide) blankRest
      have none : trim ((next ++ ')' :: ending).flatMap joined) = [] :=
        trim_append_of_isBlankText blankRest []
      have nothing : Blank [] := rfl
      refine ⟨_, listed nothing, .inr ?_⟩
      rw [text, splitOn_eq, List.splitOn_append_cons_self, ← splitOn_eq, List.map_append,
        List.splitOn_eq_singleton single, List.map_singleton, none]

theorem words_parenthesized :
    (words ('(' :: ((gap ++ (list ++ closing)) ++ ')' :: ending))).map Word.text =
      members.flatMap Member.words := by
  have separatorsBefore : ∀ char ∈ '(' :: gap, isWordChar char = false := by
    intro char inside
    exact (fades_opening blank char inside).not_isWordChar
  have separatorsAfter : ∀ char ∈ closing ++ ')' :: ending, isWordChar char = false := by
    intro char inside
    rcases List.mem_append.mp inside with inClosing | later
    · cases closes with
      | bare => cases inClosing
      | comma begun =>
          rcases List.mem_cons.mp inClosing with rfl | inGap
          · decide
          · exact (fades_of_isBlankText begun char inGap).not_isWordChar
    · exact (fades_ending space char later).not_isWordChar
  have text : '(' :: ((gap ++ (list ++ closing)) ++ ')' :: ending) =
      ('(' :: gap) ++ (list ++ (closing ++ ')' :: ending)) := by
    simp
  rw [text, map_text_words_separators_append separatorsBefore,
    map_text_words_append_separators separatorsAfter]
  exact lists.words_members fun gap blankGap char inside =>
    (fades_of_isBlankText blankGap char inside).not_isWordChar

theorem readsAs_of_parenthesized :
    ReadsAs members ('(' :: ((gap ++ (list ++ closing)) ++ ')' :: ending)) := by
  constructor
  case begins => exact ⟨'(', _, rfl, rfl⟩
  case listed =>
    intro head more split following
    have unescaped : '\\' ∉ '(' :: ((gap ++ (list ++ closing)) ++ ')' :: ending) := by
      have inside : '\\' ∉ gap ++ (list ++ closing) :=
        lists.not_mem_enclosed blank closes (by decide) (by decide) (by decide)
      have afterwards : '\\' ∉ ending := not_mem_of_isBlankText (by decide) space.1
      simp only [List.mem_cons, List.mem_append, not_or] at inside ⊢
      exact ⟨by decide, inside, by decide, afterwards⟩
    have unclosed : ')' ∉ gap ++ (list ++ closing) :=
      lists.not_mem_enclosed blank closes (by decide) (by decide) (by decide)
    rw [memberList_of_parenthesized unclosed space.2 unescaped split, members_eq,
      map_bare_join_lines unescaped]
    exact exists_members_parenthesized lists blank closes space
  case words => exact words_parenthesized lists blank closes space

end Parenthesized

end NotebookLint.Text.Lists
