import NotebookLint.Proofs.CellJoining
import NotebookLint.Proofs.CommentRewriting
import NotebookLint.Proofs.FindingPlaces
import NotebookLint.Proofs.ImportLists
import NotebookLint.Proofs.LineAssignments
import NotebookLint.Proofs.ScanRestart

/-! From-imports bind the same names in every layout. A statement on one line, in parentheses over
several lines with comments and blank lines, or continued by backslashes binds its members on the line
of the word that begins it, and no line that it goes on over binds anything. -/

set_option autoImplicit false

namespace NotebookLint

/-! ## Text without literals -/

/-- Text that no literal is part of, and the same text with its comments blanked. -/
inductive Text.ShownAs : Text → Text → Prop
  | code {code : Text} (isCode : Lexeme.IsCode code) : ShownAs code code
  | comment {code text written shown : Text} (isCode : Lexeme.IsCode code) (unbroken : '\n' ∉ text)
      (ends : ∀ next ∈ written.head?, next = '\n') (later : ShownAs written shown) :
      ShownAs (code ++ '#' :: (text ++ written))
        (code ++ (List.replicate (text.length + 1) ' ' ++ shown))

namespace Text.ShownAs

open Glyph (ofComment scanFrom_hash)

variable {written shown : Text}

theorem code_append {code : Text} (isCode : Lexeme.IsCode code) (shows : ShownAs written shown) :
    ShownAs (code ++ written) (code ++ shown) := by
  cases shows with
  | code isOther => exact .code (isCode.append isOther)
  | comment isOther unbroken ends later =>
      rw [← List.append_assoc, ← List.append_assoc code]
      exact .comment (isCode.append isOther) unbroken ends later

theorem exists_scanFrom (shows : ShownAs written shown) :
    ∃ glyphs, glyphs.map Glyph.shown = shown ∧
      ∀ rest : Text, (∀ next ∈ rest.head?, next = '\n') → ∀ afterWord, ∃ endsInWord,
        Glyph.scanFrom (.code afterWord) (written ++ rest) =
          glyphs ++ Glyph.scanFrom (.code endsInWord) rest := by
  induction shows with
  | @code code isCode =>
      refine ⟨Glyph.ofRole .code code, Glyph.map_shown_ofRole_of_isKept rfl code, ?_⟩
      intro rest ends afterWord
      apply Lexeme.scanFrom_code_append isCode rest
      intro next isNext
      rw [ends next isNext]
      decide
  | @comment code text written shown isCode unbroken ends _ ih =>
      obtain ⟨glyphs, views, scans⟩ := ih
      refine ⟨Glyph.ofRole .code code ++ (ofComment ('#' :: text) ++ glyphs), ?_, ?_⟩
      · have noBreak : '\n' ∉ '#' :: text := by
          rw [List.mem_cons, not_or]
          exact ⟨by decide, unbroken⟩
        rw [List.map_append, List.map_append, Glyph.map_shown_ofRole_of_isKept rfl,
          Glyph.map_shown_ofComment noBreak, views]
        rfl
      · intro rest restEnds afterWord
        have hash : ∀ next ∈ ('#' :: (text ++ (written ++ rest))).head?,
            isQuote next = false ∧ isMarkerLetter next = false := by
          rintro next ⟨⟩
          decide
        obtain ⟨inWord, codeScan⟩ := Lexeme.scanFrom_code_append isCode _ hash afterWord
        have commentEnds : ∀ next ∈ (written ++ rest).head?, next = '\n' := by
          cases written with
          | nil => exact restEnds
          | cons first others => exact ends
        obtain ⟨endsInWord, later⟩ := scans rest restEnds false
        refine ⟨endsInWord, ?_⟩
        rw [List.append_assoc, List.cons_append, List.append_assoc, codeScan,
          scanFrom_hash unbroken commentEnds, later, List.append_assoc, List.append_assoc]
        rfl

theorem blanked_eq (shows : ShownAs written shown) : blanked written = shown := by
  obtain ⟨glyphs, views, scans⟩ := shows.exists_scanFrom
  obtain ⟨endsInWord, scan⟩ := scans [] (by simp) false
  rw [List.append_nil, Glyph.scanFrom_nil, List.append_nil] at scan
  rw [blanked, Glyph.scan, scan, views]

/-- The scan restarts at the line break after a text without literals. -/
theorem scan_append_break (shows : ShownAs written shown) (following : Text) :
    Glyph.scan (written ++ '\n' :: following) =
      Glyph.scan written ++ ⟨'\n', .code⟩ :: Glyph.scan following := by
  obtain ⟨glyphs, -, scans⟩ := shows.exists_scanFrom
  obtain ⟨endsAlone, alone⟩ := scans [] (by simp) false
  obtain ⟨endsInWord, before⟩ := scans ('\n' :: following) (by rintro next ⟨⟩; rfl) false
  rw [List.append_nil, Glyph.scanFrom_nil, List.append_nil] at alone
  rw [Glyph.scan, Glyph.scan, before, alone]
  rfl

end Text.ShownAs

namespace Import

open Text

/-! ## Layouts -/

/-- Whether a text can stand for a module: it has no blank, quote, hash sign, parenthesis or
backslash. -/
def IsModule (module : Text) : Prop :=
  module ≠ [] ∧ ∀ char ∈ module, isBlank char = false ∧ isQuote char = false ∧
    char ∉ ['#', '(', ')', '\\']

instance (module : Text) : Decidable (IsModule module) :=
  @instDecidableAnd _ _ inferInstance (List.decidableBAll _ _)

/-- The beginnings of a from-import, up to its first member. -/
inductive Heads (module : Text) : Text → Prop
  | intro {margin gap space before : Text} (inset : InLine margin) (first : gap ≠ [])
      (inGap : InLine gap) (isModule : IsModule module) (second : space ≠ [])
      (inSpace : InLine space) (third : before ≠ []) (inBefore : InLine before) :
      Heads module (margin ++ ("from".toList ++ (gap ++ (module ++
        (space ++ ("import".toList ++ before))))))

/-- How a from-import is spread over lines. -/
inductive Layout where
  | oneLine
  | parenthesized
  | continued

/-- The texts in which a layout lists the members of a from-import. -/
inductive Arranges (members : List Member) : Layout → Text → Prop
  | oneLine {list : Text} (lists : Lists Spells InLine members list) :
      Arranges members .oneLine list
  | parenthesized {gap list closing : Text} (spread : Spreads gap)
      (lists : Lists Spells Spreads members list) (closes : Closes Spreads closing) :
      Arranges members .parenthesized ('(' :: ((gap ++ (list ++ closing)) ++ [')']))
  | continued {list : Text} (lists : Lists Spells Continues members list) :
      Arranges members .continued list

/-- Whether a text is a from-import in the given layout. -/
def Writes (layout : Layout) (module : Text) (members : List Member) (statement : Text) : Prop :=
  ∃ header list, Heads module header ∧ Arranges members layout list ∧ statement = header ++ list

/-- What may follow a statement on its last line. -/
inductive Ends : Text → Prop
  | bare {space : Text} (inSpace : InLine space) : Ends space
  | comment {space text : Text} (inSpace : InLine space) (unbroken : '\n' ∉ text) :
      Ends (space ++ '#' :: text)

/-- Whether a text goes on with the end of a line. -/
def EndsLine (after : Text) : Prop :=
  Ends after ∨ ∃ ending following, Ends ending ∧ after = ending ++ '\n' :: following

/-! ## What is shown of a statement -/

theorem isCode_of_blank {gap : Text} (blank : Blank gap) : Lexeme.IsCode gap :=
  Lexeme.isCode_of_not_mem (not_mem_of_isBlankText (by decide) blank)
    (not_mem_of_isBlankText (by decide) blank) (not_mem_of_isBlankText (by decide) blank)

theorem isCode_comma : Lexeme.IsCode [','] :=
  List.forall_mem_singleton.mpr (by decide)

theorem Spreads.exists_shown {gap : Text} (spreads : Spreads gap) :
    ∃ blanks, Blank blanks ∧ ∀ written shown, ShownAs written shown →
      ShownAs (gap ++ written) (blanks ++ shown) := by
  induction spreads with
  | nil => exact ⟨[], rfl, fun _ _ shows => shows⟩
  | @blank char gap isBlank _ ih =>
      obtain ⟨blanks, blank, shown⟩ := ih
      have blankChar : Blank [char] := by rw [Blank, isBlankText, List.all_cons, isBlank]; rfl
      refine ⟨char :: blanks, ?_, ?_⟩
      · rw [Blank, isBlankText, List.all_cons, isBlank]
        exact blank
      · intro written rest shows
        exact (shown written rest shows).code_append (isCode_of_blank blankChar)
  | @comment text gap unbroken _ ih =>
      obtain ⟨blanks, blank, shown⟩ := ih
      refine ⟨List.replicate (text.length + 1) ' ' ++ '\n' :: blanks, ?_, ?_⟩
      · rw [Blank, isBlankText_append, isBlankText_spaces]
        exact blank
      · intro written rest shows
        have lineBreak : Lexeme.IsCode ['\n'] := isCode_of_blank (by decide)
        have later := (shown written rest shows).code_append lineBreak
        have whole := ShownAs.comment Lexeme.isCode_nil unbroken (by rintro next ⟨⟩; rfl) later
        simpa using whole

theorem Spells.isCode {member : Member} {written : Text} (spelled : Spells member written) :
    Lexeme.IsCode written :=
  Lexeme.isCode_of_not_mem (spelled.not_mem (by decide) (.inl (by decide)))
    (spelled.not_mem (by decide) (.inl (by decide))) (spelled.not_mem (by decide) (.inl (by decide)))

theorem isCode_of_lists {Gap : Text → Prop} {members : List Member} {list : Text}
    (gaps : ∀ gap, Gap gap → Lexeme.IsCode gap) (lists : Lists Spells Gap members list) :
    Lexeme.IsCode list :=
  lists.forall_mem (by decide) (fun _ _ spelled => spelled.isCode) gaps

theorem Continues.isCode {gap : Text} (continues : Continues gap) : Lexeme.IsCode gap := by
  intro char inside
  rcases continues.fades char inside with blank | rfl | rfl | rfl
  · have single : Blank [char] := by rw [Blank, isBlankText, List.all_cons, blank]; rfl
    exact isCode_of_blank single char List.mem_cons_self
  · decide
  · decide
  · decide

theorem exists_shown_of_lists {members : List Member} {list : Text}
    (lists : Lists Spells Spreads members list) :
    ∃ shownList, Lists Spells Blank members shownList ∧
      ∀ written shown, ShownAs written shown → ShownAs (list ++ written) (shownList ++ shown) := by
  induction lists with
  | @last member written gap spelled ended =>
      obtain ⟨blanks, blank, gapShown⟩ := ended.exists_shown
      refine ⟨written ++ blanks, .last spelled blank, ?_⟩
      intro further shown shows
      rw [List.append_assoc, List.append_assoc]
      exact (gapShown further shown shows).code_append spelled.isCode
  | @cons member members written before after list spelled ended begun _ ih =>
      obtain ⟨blanksBefore, blankBefore, beforeShown⟩ := ended.exists_shown
      obtain ⟨blanksAfter, blankAfter, afterShown⟩ := begun.exists_shown
      obtain ⟨shownList, shownLists, listShown⟩ := ih
      refine ⟨written ++ (blanksBefore ++ ',' :: (blanksAfter ++ shownList)),
        .cons spelled blankBefore blankAfter shownLists, ?_⟩
      intro further shown shows
      have fromComma := (afterShown _ _ (listShown further shown shows)).code_append isCode_comma
      simpa using (beforeShown _ _ fromComma).code_append spelled.isCode

theorem exists_shown_of_closes {closing : Text} (closes : Closes Spreads closing) :
    ∃ shownClosing, Closes Blank shownClosing ∧
      ∀ written shown, ShownAs written shown →
        ShownAs (closing ++ written) (shownClosing ++ shown) := by
  cases closes with
  | bare => exact ⟨[], .bare, fun _ _ shows => shows⟩
  | @comma gap begun =>
      obtain ⟨blanks, blank, gapShown⟩ := begun.exists_shown
      refine ⟨',' :: blanks, .comma blank, ?_⟩
      intro written shown shows
      exact (gapShown written shown shows).code_append isCode_comma

theorem Ends.exists_shown {ending : Text} (ends : Ends ending) :
    ∃ blanks, InLine blanks ∧ ShownAs ending blanks := by
  cases ends with
  | bare inSpace => exact ⟨ending, inSpace, .code (isCode_of_blank inSpace.1)⟩
  | @comment space text inSpace unbroken =>
      refine ⟨space ++ (List.replicate (text.length + 1) ' ' ++ []), ⟨?_, ?_⟩, ?_⟩
      · rw [List.append_nil, isBlankText_append, inSpace.1, isBlankText_spaces]
        rfl
      · simp [inSpace.2]
      · have whole := ShownAs.comment (isCode_of_blank inSpace.1) unbroken (by simp)
          (.code Lexeme.isCode_nil)
        simpa using whole

/-- How far a shown list reaches: to its closing parenthesis if it is in parentheses, and otherwise as
it is written. -/
inductive Spans : Layout → Text → Text → Prop
  | enclosed {list inside ending : Text} (unclosed : ')' ∉ inside) (space : InLine ending) :
      Spans .parenthesized list ('(' :: (inside ++ ')' :: ending))
  | plain {layout : Layout} {list ending : Text} (bare : layout ≠ .parenthesized)
      (unopened : '(' ∉ list ++ ending) (space : InLine ending) :
      Spans layout list (list ++ ending)

/-- What is shown of a list and the end of its line: the members of the list, and nothing that a
directive begins with. -/
structure Shows (layout : Layout) (members : List Member) (list ending shown : Text) : Prop where
  shownAs : ShownAs (list ++ ending) shown
  reads : ReadsAs members shown
  spans : Spans layout list shown
  unmarked : ∀ sign ∈ ['!', '%'], sign ∉ shown

theorem shows_of_carried {layout : Layout} {members : List Member} {list ending blanks : Text}
    (bare : layout ≠ .parenthesized) (lists : Lists Spells Continues members list)
    (space : InLine blanks) (endShown : ShownAs ending blanks) : Shows layout members list ending (list ++ blanks) := by
  have absent : ∀ {sign : Char}, isWordChar sign = false → isBlank sign = false → sign ≠ ',' →
      sign ≠ '\\' → sign ∉ list ++ blanks := by
    intro sign noWord visible noComma noBackslash
    have inGaps : ∀ gap, Continues gap → sign ∉ gap := by
      intro gap continues inside
      rcases continues.blank_or_backslash sign inside with blank | escape
      · rw [blank] at visible
        cases visible
      · exact noBackslash escape
    rw [List.mem_append, not_or]
    exact ⟨lists.not_mem_members inGaps noWord (.inl visible) noComma,
      not_mem_of_isBlankText visible space.1⟩
  constructor
  case shownAs => exact endShown.code_append (isCode_of_lists (fun _ => Continues.isCode) lists)
  case reads => exact lists.readsAs_of_carried space
  case spans =>
    exact .plain bare (absent (by decide) (by decide) (by decide) (by decide)) space
  case unmarked =>
    intro sign special
    simp only [List.mem_cons, List.not_mem_nil, or_false] at special
    rcases special with rfl | rfl
    · exact absent (by decide) (by decide) (by decide) (by decide)
    · exact absent (by decide) (by decide) (by decide) (by decide)

theorem Arranges.exists_shows {members : List Member} {layout : Layout} {list ending : Text}
    (arranges : Arranges members layout list) (ends : Ends ending) :
    ∃ shown, Shows layout members list ending shown := by
  obtain ⟨blanks, space, endShown⟩ := ends.exists_shown
  cases arranges with
  | oneLine lists =>
      exact ⟨_, shows_of_carried nofun (lists.imp fun gap => Continues.inLine) space endShown⟩
  | continued lists => exact ⟨_, shows_of_carried nofun lists space endShown⟩
  | @parenthesized gap list closing spread lists closes =>
      obtain ⟨blanksFirst, blankFirst, firstShown⟩ := spread.exists_shown
      obtain ⟨shownList, shownLists, listShown⟩ := exists_shown_of_lists lists
      obtain ⟨shownClosing, shownCloses, closingShown⟩ := exists_shown_of_closes closes
      have absent : ∀ {sign : Char}, isWordChar sign = false → isBlank sign = false → sign ≠ ',' →
          sign ∉ blanksFirst ++ (shownList ++ shownClosing) :=
        shownLists.not_mem_enclosed blankFirst shownCloses
      refine ⟨'(' :: ((blanksFirst ++ (shownList ++ shownClosing)) ++ ')' :: blanks), ?_⟩
      constructor
      case shownAs =>
        have opening : Lexeme.IsCode ['('] := List.forall_mem_singleton.mpr (by decide)
        have closing : Lexeme.IsCode [')'] := List.forall_mem_singleton.mpr (by decide)
        have fromClosing := closingShown _ _ (endShown.code_append closing)
        have whole := (firstShown _ _ (listShown _ _ fromClosing)).code_append opening
        simpa using whole
      case reads => exact shownLists.readsAs_of_parenthesized blankFirst shownCloses space
      case spans => exact .enclosed (absent (by decide) (by decide) (by decide)) space
      case unmarked =>
        intro sign special
        have inside : sign ∉ blanksFirst ++ (shownList ++ shownClosing) ∧ sign ∉ blanks ∧
            sign ≠ '(' ∧ sign ≠ ')' := by
          simp only [List.mem_cons, List.not_mem_nil, or_false] at special
          rcases special with rfl | rfl
          · exact ⟨absent (by decide) (by decide) (by decide),
              not_mem_of_isBlankText (by decide) space.1, by decide, by decide⟩
          · exact ⟨absent (by decide) (by decide) (by decide),
              not_mem_of_isBlankText (by decide) space.1, by decide, by decide⟩
        rw [List.mem_cons, List.mem_append, List.mem_cons]
        tauto

/-! ## Reading the first line -/

namespace Heads

variable {module header : Text}

theorem isCode (heads : Heads module header) : Lexeme.IsCode header := by
  obtain ⟨inset, first, inGap, isModule, second, inSpace, third, inBefore⟩ := heads
  have words : Lexeme.IsCode ("from".toList ++ "import".toList) := by
    have plain : ("from".toList ++ "import".toList).all (fun char => char != '#' && !isQuote char) =
        true := by
      decide
    simpa [Lexeme.IsCode] using List.all_eq_true.mp plain
  intro char inside
  simp only [List.mem_append] at inside
  rcases inside with inMargin | inFrom | inFirst | inModule | inSecond | inImport | inThird
  · exact isCode_of_blank inset.1 char inMargin
  · exact words char (List.mem_append_left _ inFrom)
  · exact isCode_of_blank inGap.1 char inFirst
  · obtain ⟨-, noQuote, noSign⟩ := isModule.2 char inModule
    exact ⟨fun hash => noSign (by simp [hash]), noQuote⟩
  · exact isCode_of_blank inSpace.1 char inSecond
  · exact words char (List.mem_append_right _ inImport)
  · exact isCode_of_blank inBefore.1 char inThird

theorem not_mem (heads : Heads module header) {sign : Char}
    (special : sign = '\n' ∨ sign = '(' ∨ sign = ')') : sign ∉ header := by
  obtain ⟨inset, first, inGap, isModule, second, inSpace, third, inBefore⟩ := heads
  have inLine : ∀ {gap : Text}, InLine gap → sign ∉ gap := by
    intro gap space inside
    rcases special with rfl | rfl | rfl
    · exact space.2 inside
    · exact absurd (List.all_eq_true.mp space.1 _ inside) (by decide)
    · exact absurd (List.all_eq_true.mp space.1 _ inside) (by decide)
  have inModule : sign ∉ module := by
    intro inside
    obtain ⟨noBlank, -, noSign⟩ := isModule.2 sign inside
    rcases special with rfl | rfl | rfl
    · exact absurd noBlank (by decide)
    · exact noSign (by decide)
    · exact noSign (by decide)
  have inWords : sign ∉ "from".toList ∧ sign ∉ "import".toList := by
    rcases special with rfl | rfl | rfl <;> decide
  simp only [List.mem_append, not_or]
  exact ⟨inLine inset, inWords.1, inLine inGap, inModule, inLine inSpace, inWords.2,
    inLine inBefore⟩

theorem isDirective_append (heads : Heads module header) (line : Text) :
    SourceLine.isDirective (header ++ line) = false := by
  obtain ⟨inset, first, inGap, isModule, second, inSpace, third, inBefore⟩ := heads
  simp only [List.append_assoc]
  exact Names.isDirective_line (List.all_eq_true.mp inset.1) (by decide) _

theorem fromHeader?_append (heads : Heads module header) (line : Text) :
    fromHeader? (header ++ line) = some (module, trimLeft line) := by
  obtain @⟨margin, gap, space, before, inset, first, inGap, isModule, second, inSpace, third,
    inBefore⟩ := heads
  let members := space ++ ("import".toList ++ (before ++ line))
  have visible : ∀ char ∈ module, (!isBlank char) = true := by
    intro char inside
    rw [(isModule.2 char inside).1]
    rfl
  have ended : ∀ char ∈ members.head?, isBlank char = true := by
    intro char isFirst
    rw [List.head?_append_of_ne_nil _ second] at isFirst
    exact List.all_eq_true.mp inSpace.1 char (List.mem_of_mem_head? isFirst)
  have taken : (module ++ members).takeWhile (fun char => !isBlank char) = module := by
    rw [List.takeWhile_append_of_pos visible]
    cases rest : members with
    | nil => simp
    | cons char others => simp [ended char (by rw [rest]; rfl)]
  have dropped : (module ++ members).dropWhile (fun char => !isBlank char) = members := by
    rw [List.dropWhile_append_of_pos visible]
    cases rest : members with
    | nil => rfl
    | cons char others => simp [ended char (by rw [rest]; rfl)]
  have atModule : trimLeft (module ++ members) = module ++ members := by
    apply trimLeft_of_visible
    intro char isFirst
    rw [List.head?_append_of_ne_nil _ isModule.1] at isFirst
    exact (isModule.2 char (List.mem_of_mem_head? isFirst)).1
  have atImport : trimLeft ("import".toList ++ (before ++ line)) =
      "import".toList ++ (before ++ line) :=
    trimLeft_cons_of_visible (by decide) _
  have split : margin ++ ("from".toList ++ (gap ++ (module ++ (space ++
      ("import".toList ++ before))))) ++ line =
      margin ++ ("from".toList ++ (gap ++ (module ++ members))) := by
    simp [members]
  have atFrom : trimLeft (margin ++ ("from".toList ++ (gap ++ (module ++ members)))) =
      "from".toList ++ (gap ++ (module ++ members)) :=
    trimLeft_append margin (List.all_eq_true.mp inset.1) (by rintro char ⟨⟩; decide)
  have named : module.isEmpty = false := by simpa using isModule.1
  rw [split]
  simp only [fromHeader?, atFrom, after?_append, Option.bind_some, gap?_append first inGap.1,
    atModule, taken, named, dropped, Bool.false_eq_true, if_false, Option.bind_eq_bind,
    Option.pure_def]
  simp only [members, gap?_append second inSpace.1, atImport, after?_append, Option.bind_some,
    gap?_append third inBefore.1]

end Heads

/-! ## The bindings of a statement -/

theorem mem_words_of_afterGap {word line rest : Text} (nonempty : word ≠ [])
    (letters : ∀ char ∈ word, isWordChar char = true)
    (read : (after? word (trimLeft line)).bind gap? = some rest) :
    word ∈ (Text.words line).map Word.text := by
  obtain ⟨following, begun, gap⟩ := Option.bind_eq_some_iff.mp read
  have separators : ∀ char ∈ line.takeWhile isBlank, isWordChar char = false :=
    fun char inside => not_isWordChar_of_isBlank (List.mem_takeWhile_imp inside)
  have split : line = line.takeWhile isBlank ++ (word ++ following) := by
    rw [← Names.eq_append_of_after? begun]
    exact List.takeWhile_append_dropWhile.symm
  cases following with
  | nil => cases gap
  | cons char others =>
      have blank : isBlank char = true := by
        by_contra visible
        rw [gap?, if_neg visible] at gap
        cases gap
      rw [split, map_text_words_separators_append separators,
        map_text_words_append (not_isWordChar_of_isBlank blank), words_of_word nonempty letters]
      exact List.mem_append_left _ List.mem_cons_self

/-- A line that has neither word of a from-import holds no import. -/
theorem headers_eq_none {line : Text}
    (free : ∀ word ∈ (Text.words line).map Word.text,
      word ≠ "from".toList ∧ word ≠ "import".toList) :
    fromHeader? line = none ∧ plainHeader? line = none := by
  constructor
  · cases read : (after? "from".toList (trimLeft line)).bind gap? with
    | none => simp only [fromHeader?, read, Option.bind_eq_bind, Option.bind_none]
    | some rest =>
        have inLine := mem_words_of_afterGap (by decide) (List.all_eq_true.mp (by decide)) read
        exact absurd rfl (free _ inLine).1
  · cases read : plainHeader? line with
    | none => rfl
    | some rest =>
        have inLine := mem_words_of_afterGap (by decide) (List.all_eq_true.mp (by decide)) read
        exact absurd rfl (free _ inLine).2

theorem Member.words_free (member : Member) :
    ∀ word ∈ member.words, word ≠ "from".toList ∧ word ≠ "import".toList := by
  have reserved : ∀ word : Text, word ∉ Names.keywords →
      word ≠ "from".toList ∧ word ≠ "import".toList := by
    intro word free
    constructor <;> rintro rfl <;> exact free (by decide +kernel)
  intro word inside
  rw [Member.words, List.mem_cons] at inside
  rcases inside with rfl | inAlias
  · exact reserved _ member.free.2
  · cases aliased : member.alias? with
    | none => rw [aliased] at inAlias; cases inAlias
    | some other =>
        rw [aliased] at inAlias
        simp only [Option.elim_some, List.mem_cons, List.not_mem_nil, or_false] at inAlias
        rcases inAlias with rfl | rfl
        · decide
        · exact reserved _ (member.freeAlias _ aliased).2

section Statement

variable {module header shown first : Text} {members : List Member} {more : List Text}
  (heads : Heads module header) (reads : ReadsAs members shown) (split : lines shown = first :: more)

include reads split in
theorem trimLeft_first : trimLeft first = first := by
  obtain ⟨char, others, rfl, visible⟩ := reads.begins
  have plain : char ≠ '\n' := by
    rintro rfl
    exact absurd visible (by decide)
  obtain ⟨tail, rfl⟩ := exists_head_of_lines plain split
  exact trimLeft_of_begins visible rfl

include heads reads split in
theorem lineBindings_statement {line : SourceLine} (clean : line.clean = header ++ first)
    (following : List Text) :
    lineBindings line (more ++ following) =
      members.map fun member => ⟨member.bound, module, line.number⟩ := by
  obtain ⟨pieces, spelled, listed⟩ := reads.listed first more split following
  have named := filterMap_of_forall₂ spelled fun name =>
    (⟨name, module, line.number⟩ : ImportBinding)
  rw [lineBindings, clean, heads.fromHeader?_append, trimLeft_first reads split]
  rcases listed with exact | trailing
  · simp only [exact]
    exact named
  · have none : memberName? [] = none := rfl
    simp only [trailing, List.filterMap_append]
    rw [named]
    simp [none]

include reads split in
/-- No line that a statement goes on over holds an import. -/
theorem headers_of_mem_more {line : Text} (member : line ∈ more) :
    fromHeader? line = none ∧ plainHeader? line = none := by
  apply headers_eq_none
  intro word inside
  have inShown : word ∈ (Text.words shown).map Word.text := by
    rw [map_text_words_lines, split, List.flatMap_cons, List.mem_append, List.mem_flatMap]
    exact .inr ⟨line, member, inside⟩
  rw [reads.words, List.mem_flatMap] at inShown
  obtain ⟨holder, -, isWord⟩ := inShown
  exact holder.words_free word isWord

theorem bindingsOf_of_silent {lines : List SourceLine}
    (silent : ∀ line ∈ lines, fromHeader? line.clean = none ∧ plainHeader? line.clean = none)
    (rest : List SourceLine) : bindingsOf (lines ++ rest) = bindingsOf rest := by
  induction lines with
  | nil => rfl
  | cons line others ih =>
      obtain ⟨⟨noFrom, noPlain⟩, later⟩ := List.forall_mem_cons.mp silent
      rw [List.cons_append, bindingsOf, ih later]
      simp [lineBindings, noFrom, noPlain]

include heads reads split in
/-- The lines of a statement bind its members on the first of them, and nothing more. -/
theorem bindingsOf_statement {line : SourceLine} {others : List SourceLine}
    (code : SourceLine.isDirective line.raw = false)
    (clean : (line :: others).map SourceLine.clean = (header ++ first) :: more)
    (rest : List SourceLine) :
    bindingsOf (line :: others ++ rest) =
      (members.map fun member => ⟨member.bound, module, line.number⟩) ++ bindingsOf rest := by
  rw [List.map_cons, List.cons.injEq] at clean
  obtain ⟨firstClean, otherCleans⟩ := clean
  have silent : ∀ line ∈ others, fromHeader? line.clean = none ∧ plainHeader? line.clean = none := by
    intro line member
    apply headers_of_mem_more reads split
    rw [← otherCleans]
    exact List.mem_map_of_mem member
  rw [List.cons_append, bindingsOf, if_neg (by simp [code]), List.map_append, otherCleans,
    lineBindings_statement heads reads split firstClean, bindingsOf_of_silent silent]

end Statement

/-! ## Statements in a cell -/

theorem EndsLine.exists_eq_append {after : Text} (ended : EndsLine after) :
    ∃ ending rest, after = ending ++ rest ∧ Ends ending ∧
      (rest = [] ∨ ∃ following, rest = '\n' :: following) := by
  rcases ended with atEnd | ⟨ending, following, ends, rfl⟩
  · exact ⟨after, [], (List.append_nil _).symm, atEnd, .inl rfl⟩
  · exact ⟨ending, '\n' :: following, rfl, ends, .inr ⟨following, rfl⟩⟩

/-- Below every text without literals the lines of what follows it are the same. -/
theorem exists_sourceLines_below {rest : Text}
    (ended : rest = [] ∨ ∃ following, rest = '\n' :: following) :
    ∃ below : List SourceLine, (∀ line ∈ below, 1 ≤ line.number) ∧
      ∀ {written shown : Text}, ShownAs written shown → sourceLines (written ++ rest) =
        sourceLines written ++ below.map (SourceLine.moveDown (lineCount written)) := by
  rcases ended with rfl | ⟨following, rfl⟩
  · exact ⟨[], by simp, by simp⟩
  · refine ⟨sourceLines following, ?_, ?_⟩
    · intro line member
      exact (getElem?_of_mem_sourceLines member).1
    · intro written shown shows
      exact sourceLines_of_scan (shows.scan_append_break following)

/-- The lines of a text that begins outside literals stand below those before it. -/
theorem exists_sourceLines_above {before rest : Text}
    (lineStart : before = [] ∨ before.getLast? = some '\n')
    (outside : before.count '\n' ∉ interiorLines (before ++ rest)) :
    ∃ above, sourceLines (before ++ rest) =
        above ++ (sourceLines rest).map (SourceLine.moveDown (before.count '\n')) ∧
      ∀ line ∈ above, line.number < lineCount before := by
  rcases lineStart with rfl | ended
  · refine ⟨[], ?_, by simp⟩
    have unmoved : ∀ line, SourceLine.moveDown 0 line = line := fun _ => rfl
    simp [funext unmoved]
  · obtain ⟨earlier, rfl⟩ := List.getLast?_eq_some_iff.mp ended
    have counted : (earlier ++ ['\n']).count '\n' = lineCount earlier := by
      simp [lineCount]
    rw [counted] at outside ⊢
    rw [List.append_assoc, List.singleton_append] at outside ⊢
    refine ⟨_, sourceLines_of_scan (scan_append_break outside), ?_⟩
    intro line member
    have bounded := (getElem?_of_mem_sourceLines member).2.1
    rw [lineCount, counted]
    omega

theorem exists_sourceLines_statement {module header list shown : Text}
    (heads : Heads module header) (shows : ShownAs list shown) :
    ∃ first more line others, lines shown = first :: more ∧
      sourceLines (header ++ list) = line :: others ∧ line.number = 1 ∧
        SourceLine.isDirective line.raw = false ∧
          (line :: others).map SourceLine.clean = (header ++ first) :: more := by
  have unbroken := heads.not_mem (.inl rfl)
  obtain ⟨first, more, split⟩ := List.exists_cons_of_ne_nil (lines_ne_nil shown)
  obtain ⟨rawFirst, rawMore, rawSplit⟩ := List.exists_cons_of_ne_nil (lines_ne_nil list)
  have cleans := map_clean_sourceLines (header ++ list)
  have raws := map_raw_sourceLines (header ++ list)
  have numbers := map_number_sourceLines (header ++ list)
  rw [(shows.code_append heads.isCode).blanked_eq, lines_append_of_not_mem unbroken, split,
    List.modifyHead_cons] at cleans
  rw [lines_append_of_not_mem unbroken, rawSplit, List.modifyHead_cons] at raws
  rw [lineCount, List.range'_succ] at numbers
  cases linesEq : sourceLines (header ++ list) with
  | nil => rw [linesEq] at cleans; cases cleans
  | cons line others =>
      rw [linesEq] at cleans raws numbers
      refine ⟨first, more, line, others, split, rfl, (List.cons.inj numbers).1, ?_, cleans⟩
      rw [(List.cons.inj raws).1]
      exact heads.isDirective_append rawFirst

/-- Lines above others bind names on their own numbers, whatever they go on over. -/
theorem exists_bindingsOf_append (above below : List SourceLine) :
    ∃ bindings, bindingsOf (above ++ below) = bindings ++ bindingsOf below ∧
      ∀ binding ∈ bindings, ∃ line ∈ above, binding.line = line.number := by
  induction above with
  | nil => exact ⟨[], rfl, by simp⟩
  | cons line rest ih =>
      obtain ⟨bindings, split, placed⟩ := ih
      rw [List.cons_append, bindingsOf, split]
      refine ⟨_, (List.append_assoc _ _ _).symm, ?_⟩
      intro binding member
      rcases List.mem_append.mp member with here | later
      · split at here
        · cases here
        · exact ⟨line, List.mem_cons_self, ImportIssues.line_of_mem_lineBindings here⟩
      · obtain ⟨holder, inRest, number⟩ := placed binding later
        exact ⟨holder, List.mem_cons_of_mem _ inRest, number⟩

theorem lineCount_append_ending {ending : Text} (ends : Ends ending) (statement : Text) :
    lineCount (statement ++ ending) = lineCount statement := by
  have unbroken : '\n' ∉ ending := by
    cases ends with
    | bare inSpace => exact inSpace.2
    | comment inSpace unbroken => simp [inSpace.2, unbroken]
  rw [lineCount, List.count_append, List.count_eq_zero_of_not_mem unbroken, lineCount, Nat.add_zero]

theorem bindingsOf_statement_append {layout : Layout} {module header list ending shown : Text}
    {members : List Member} (heads : Heads module header)
    (shows : Shows layout members list ending shown) (below : List SourceLine) :
    bindingsOf (sourceLines (header ++ (list ++ ending)) ++ below) =
      (members.map fun member => ⟨member.bound, module, 1⟩) ++ bindingsOf below := by
  obtain ⟨first, more, line, others, split, blockLines, number, code, clean⟩ :=
    exists_sourceLines_statement heads shows.shownAs
  rw [blockLines, bindingsOf_statement heads shows.reads split code clean below, number]

/-- The bindings of a cell that holds a statement: those of the lines above it, those of its members
and those of the lines below it. -/
theorem exists_importBindings {layout : Layout} {module : Text} {members : List Member}
    {before statement after : Text} (writes : Writes layout module members statement)
    (ended : EndsLine after) (lineStart : before = [] ∨ before.getLast? = some '\n')
    (outside : before.count '\n' ∉ interiorLines (before ++ (statement ++ after))) :
    ∃ earlier later, importBindings (before ++ (statement ++ after)) =
        earlier ++ ((members.map fun member => ⟨member.bound, module, lineCount before⟩) ++ later) ∧
      (∀ binding ∈ earlier, binding.line < lineCount before) ∧
        ∀ binding ∈ later, lineCount (before ++ statement) < binding.line := by
  obtain ⟨header, list, heads, arranges, rfl⟩ := writes
  obtain ⟨ending, rest, rfl, ends, endsBlock⟩ := ended.exists_eq_append
  obtain ⟨shown, shows⟩ := arranges.exists_shows ends
  have regroup : header ++ list ++ (ending ++ rest) = header ++ (list ++ ending) ++ rest := by simp
  rw [regroup] at outside ⊢
  obtain ⟨below, positive, belowSplit⟩ := exists_sourceLines_below endsBlock
  obtain ⟨above, aboveSplit, aboveNumbers⟩ := exists_sourceLines_above lineStart outside
  obtain ⟨earlier, bindings, earlierLines⟩ := exists_bindingsOf_append above
    ((sourceLines (header ++ (list ++ ending) ++ rest)).map
      (SourceLine.moveDown (before.count '\n')))
  let height := lineCount (header ++ (list ++ ending))
  refine ⟨earlier, (bindingsOf (below.map (SourceLine.moveDown height))).map
    (moveDown (before.count '\n')), ?_, ?_, ?_⟩
  · have start : 1 + before.count '\n' = lineCount before := Nat.add_comm _ _
    rw [importBindings, aboveSplit, bindings, bindingsOf_moveDown,
      belowSplit (shows.shownAs.code_append heads.isCode), bindingsOf_statement_append heads shows,
      List.map_append, List.map_map, ← start]
    rfl
  · intro binding member
    obtain ⟨holder, isAbove, placed⟩ := earlierLines binding member
    rw [placed]
    exact aboveNumbers holder isAbove
  · intro binding member
    obtain ⟨unmoved, isLater, rfl⟩ := List.mem_map.mp member
    obtain ⟨holder, isBelow, placed⟩ := ImportIssues.exists_line_of_mem_bindingsOf isLater
    obtain ⟨inner, inBelow, rfl⟩ := List.mem_map.mp isBelow
    have position : 1 ≤ inner.number := positive inner inBelow
    have counted : lineCount (before ++ (header ++ list)) = height + before.count '\n' := by
      rw [← lineCount_append_ending ends, List.append_assoc, List.append_assoc, lineCount,
        List.count_append]
      simp only [height, lineCount]
      omega
    simp only [counted, moveDown, placed, SourceLine.moveDown]
    omega

/-- A from-import binds its members in order on the line of its first word, in whatever layout it is
written, and the lines that it goes on over bind nothing. -/
theorem importBindings_of_writes {layout : Layout} {module : Text} {members : List Member}
    {before statement after : Text} (writes : Writes layout module members statement)
    (ended : EndsLine after) (lineStart : before = [] ∨ before.getLast? = some '\n')
    (outside : before.count '\n' ∉ interiorLines (before ++ (statement ++ after))) :
    ((importBindings (before ++ (statement ++ after))).filter fun binding =>
        lineCount before ≤ binding.line && binding.line ≤ lineCount (before ++ statement)) =
      members.map fun member => ⟨member.bound, module, lineCount before⟩ := by
  obtain ⟨earlier, later, bindings, above, below⟩ :=
    exists_importBindings writes ended lineStart outside
  have noEarlier : earlier.filter (fun binding => lineCount before ≤ binding.line &&
      binding.line ≤ lineCount (before ++ statement)) = [] := by
    rw [List.filter_eq_nil_iff]
    intro binding member
    have position := above binding member
    simp only [Bool.and_eq_true, decide_eq_true_eq, not_and]
    omega
  have noLater : later.filter (fun binding => lineCount before ≤ binding.line &&
      binding.line ≤ lineCount (before ++ statement)) = [] := by
    rw [List.filter_eq_nil_iff]
    intro binding member
    have position := below binding member
    simp only [Bool.and_eq_true, decide_eq_true_eq, not_and]
    omega
  have height : lineCount before ≤ lineCount (before ++ statement) := by
    rw [lineCount, lineCount, List.count_append]
    omega
  rw [bindings, List.filter_append, List.filter_append, noEarlier, noLater, List.filter_map]
  simp [Function.comp_def, height]

/-- Two members in parentheses, one with an alias, below a literal that spans lines. -/
theorem importBindings_of_writes_parenthesized :
    let before : Text := "s = '''(\n'''\n".toList
    let statement : Text := "from os.path import (\n  join as j,  # it's )\n\n  exists,\n)".toList
    let after : Text := "  # end\nimport re".toList
    let members : List Member :=
      [⟨"join".toList, some ['j'], by decide +kernel, by decide +kernel⟩,
        ⟨"exists".toList, none, by decide +kernel, by decide +kernel⟩]
    (Writes .parenthesized "os.path".toList members statement ∧ EndsLine after ∧
        before.getLast? = some '\n' ∧
        before.count '\n' ∉ interiorLines (before ++ (statement ++ after))) ∧
      ((importBindings (before ++ (statement ++ after))).filter fun binding =>
          lineCount before ≤ binding.line && binding.line ≤ lineCount (before ++ statement)) =
        [⟨['j'], "os.path".toList, 3⟩, ⟨"exists".toList, "os.path".toList, 3⟩] := by
  intro before statement after members
  have heads : Heads "os.path".toList ([] ++ ("from".toList ++ ([' '] ++ ("os.path".toList ++
      ([' '] ++ ("import".toList ++ [' '])))))) :=
    .intro (by decide) (by decide) (by decide) (by decide) (by decide) (by decide) (by decide)
      (by decide)
  have inset : Spreads "\n  ".toList := .blank rfl (.blank rfl (.blank rfl .nil))
  have unbroken : '\n' ∉ " it's )".toList := by decide
  have commented : Spreads ("  # it's )\n\n  ".toList) :=
    .blank rfl (.blank rfl (.comment unbroken (.blank rfl (.blank rfl (.blank rfl .nil)))))
  have join : Spells members[0] ("join".toList ++ ([' '] ++ ("as".toList ++ ([' '] ++ ['j'])))) :=
    .renamed rfl (by decide) (by decide) (by decide) (by decide)
  have arranges : Arranges members .parenthesized ('(' :: (("\n  ".toList ++
      (("join".toList ++ ([' '] ++ ("as".toList ++ ([' '] ++ ['j'])))) ++
        ([] ++ ',' :: ("  # it's )\n\n  ".toList ++ ("exists".toList ++ []))) ++
          ',' :: ['\n'])) ++ [')'])) :=
    .parenthesized inset (.cons join .nil commented (.last (.bare rfl) .nil))
      (.comma (.blank rfl .nil))
  have writes : Writes .parenthesized "os.path".toList members statement :=
    ⟨_, _, heads, arranges, by decide +kernel⟩
  have space : InLine "  ".toList := by decide
  have ending : Ends "  # end".toList := .comment space (by decide)
  have ended : EndsLine after := .inr ⟨_, "import re".toList, ending, by decide⟩
  have lineStart : before.getLast? = some '\n' := by decide
  have outside : before.count '\n' ∉ interiorLines (before ++ (statement ++ after)) := by
    decide +kernel
  exact ⟨⟨writes, ended, lineStart, outside⟩,
    importBindings_of_writes writes ended (.inr lineStart) outside⟩

end Import

end NotebookLint
