import Mathlib.Data.List.Infix
import NotebookLint.Proofs.CommaLists
import NotebookLint.Proofs.ParameterTexts

/-! Parameter lists. A list is cut at its own commas only, those inside the brackets of an annotation or
a default being part of it, and each parameter is cut at its first colon or equals sign. So the names
that are read off a written list are those of its parameters, however it is laid out. -/

set_option autoImplicit false

namespace NotebookLint.Names

open Text

/-! ## Written parameters -/

/-- Whether the brackets of a text are balanced and none of them closes a bracket from before. -/
structure Balanced (text : Text) : Prop where
  nonneg : ∀ beginning, beginning <+: text → 0 ≤ bracketDelta beginning
  level : bracketDelta text = 0

/-- Whether a text may be an annotation or a default: it is balanced and has no comma outside its
brackets. -/
structure IsTerm (text : Text) : Prop extends Balanced text where
  noComma : ∀ beginning, beginning ++ [','] <+: text → bracketDelta beginning ≠ 0

/-- The texts that attach a term to a parameter with a sign, or nothing. -/
inductive Attaches (sign : Char) : Text → Prop
  | nothing : Attaches sign []
  | term {gap written : Text} (spaced : Blank gap) (isTerm : IsTerm written) :
      Attaches sign (gap ++ sign :: written)

inductive Parameter where
  | star
  | slash
  | named (name : Text)
  deriving DecidableEq, Repr

namespace Parameter

def name? : Parameter → Option Text
  | named name => some name
  | _ => none

/-- The texts of a member of a parameter list. -/
inductive Spells : Parameter → Text → Prop
  | star : Spells star ['*']
  | slash : Spells slash ['/']
  | named {stars gap name hint default : Text} (starred : stars = [] ∨ stars = ['*'] ∨ stars = ['*', '*'])
      (spaced : Blank gap) (isName : isName name = true) (annotated : Attaches ':' hint)
      (preset : Attaches '=' default) :
      Spells (named name) (stars ++ (gap ++ (name ++ (hint ++ default))))

end Parameter

/-- The texts of a parameter list, which may end in a comma. -/
inductive Declares : List Parameter → Text → Prop
  | nothing {gap : Text} (blank : Blank gap) : Declares [] gap
  | list {parameters : List Parameter} {gap list closing : Text} (inset : Blank gap)
      (lists : Lists Parameter.Spells Blank parameters list) (closes : Closes Blank closing) :
      Declares parameters (gap ++ (list ++ closing))

/-! ## Balanced texts -/

private def isPlain (char : Char) : Bool :=
  bracketValue char == 0 && char != ','

private theorem prefix_append_cases {beginning front rest : Text}
    (begins : beginning <+: front ++ rest) :
    beginning <+: front ∨ ∃ more, more <+: rest ∧ beginning = front ++ more := by
  rcases List.prefix_or_prefix_of_prefix begins (List.prefix_append front rest) with shorter | longer
  · exact .inl shorter
  · obtain ⟨more, rfl⟩ := longer
    exact .inr ⟨more, (List.prefix_append_right_inj front).mp begins, rfl⟩

theorem bracketDelta_of_free {text : Text} (free : ∀ char ∈ text, bracketValue char = 0) :
    bracketDelta text = 0 := by
  induction text with
  | nil => rfl
  | cons char rest ih =>
      obtain ⟨first, later⟩ := List.forall_mem_cons.mp free
      rw [bracketDelta_cons, first, ih later, Int.add_zero]

namespace Balanced

variable {front rest text : Text}

theorem of_free (free : ∀ char ∈ text, bracketValue char = 0) : Balanced text where
  nonneg _ begins :=
    Int.le_of_eq (bracketDelta_of_free fun char inside => free char (begins.subset inside)).symm
  level := bracketDelta_of_free free

theorem append (first : Balanced front) (second : Balanced rest) : Balanced (front ++ rest) where
  nonneg beginning begins := by
    rcases prefix_append_cases begins with shorter | ⟨more, isMore, rfl⟩
    · exact first.nonneg beginning shorter
    · rw [bracketDelta_append, first.level, Int.zero_add]
      exact second.nonneg more isMore
  level := by rw [bracketDelta_append, first.level, second.level, Int.add_zero]

/-- A bracket opened before a balanced text stays open. -/
theorem staysInside (balanced : Balanced text) : StaysInside 1 text := by
  intro beginning begins
  have nonneg := balanced.nonneg beginning begins
  omega

end Balanced

namespace IsTerm

variable {front rest text : Text}

private theorem of_plain (plain : text.all isPlain = true) : IsTerm text where
  toBalanced := .of_free fun char inside => by
    have isFree := List.all_eq_true.mp plain char inside
    rw [isPlain, Bool.and_eq_true, beq_iff_eq] at isFree
    exact isFree.1
  noComma beginning begins := by
    have comma := List.all_eq_true.mp plain ',' (begins.subset (by simp))
    exact absurd comma (by decide)

theorem append (first : IsTerm front) (second : IsTerm rest) : IsTerm (front ++ rest) where
  toBalanced := first.toBalanced.append second.toBalanced
  noComma beginning begins := by
    rcases prefix_append_cases begins with shorter | ⟨more, isMore, same⟩
    · exact first.noComma beginning shorter
    · rcases List.eq_nil_or_concat more with rfl | ⟨inner, last, rfl⟩
      · rw [List.append_nil] at same
        exact first.noComma beginning (same ▸ List.prefix_refl _)
      · rw [List.concat_eq_append] at same isMore
        rw [← List.append_assoc] at same
        obtain ⟨rfl, comma⟩ := List.append_inj' same rfl
        rw [bracketDelta_append, first.level, Int.zero_add]
        rw [← comma] at isMore
        exact second.noComma inner isMore

end IsTerm

/-! ## Written lists -/

/-- What no bracket and no comma satisfies is satisfied by plain characters only. -/
private theorem all_isPlain {holds : Char → Bool} {text : Text}
    (special : ([',', '(', ')', '[', ']', '\x7b', '\x7d'].any holds) = false)
    (all : text.all holds = true) : text.all isPlain = true := by
  rw [List.all_eq_true] at all ⊢
  intro char inside
  have absent : char ∉ [',', '(', ')', '[', ']', '\x7b', '\x7d'] := by
    intro member
    exact List.any_eq_false.mp special char member (all char inside)
  have opens : ¬ isOpener char = true := by
    intro opens
    simp only [isOpener, Bool.or_eq_true, beq_iff_eq] at opens
    rcases opens with (rfl | rfl) | rfl <;> exact absent (by decide)
  have closes : ¬ isCloser char = true := by
    intro closes
    simp only [isCloser, Bool.or_eq_true, beq_iff_eq] at closes
    rcases closes with (rfl | rfl) | rfl <;> exact absent (by decide)
  have noComma : char ≠ ',' := by
    rintro rfl
    exact absent (by decide)
  rw [isPlain, bracketValue, if_neg opens, if_neg closes]
  simpa using noComma

private theorem isTerm_of_blank {gap : Text} (blank : Blank gap) : IsTerm gap :=
  .of_plain (all_isPlain rfl blank)

private theorem isTerm_of_isName {name : Text} (named : isName name = true) : IsTerm name := by
  obtain ⟨-, -, -, -, letters⟩ := exists_of_isName named
  exact .of_plain (all_isPlain rfl (List.all_eq_true.mpr letters))

private theorem Attaches.isTerm {sign : Char} (plain : isPlain sign = true) {text : Text}
    (attached : Attaches sign text) : IsTerm text := by
  cases attached with
  | nothing => exact .of_plain rfl
  | @term gap written spaced isTerm =>
      have signed : IsTerm [sign] := .of_plain (by simpa using plain)
      exact (isTerm_of_blank spaced).append (signed.append isTerm)

private theorem Parameter.Spells.isTerm {parameter : Parameter} {written : Text}
    (spelled : parameter.Spells written) : IsTerm written := by
  cases spelled with
  | star => exact .of_plain rfl
  | slash => exact .of_plain rfl
  | @named stars gap name hint default starred spaced named annotated preset =>
      have starsPlain : stars.all isPlain = true := by
        rcases starred with rfl | rfl | rfl <;> rfl
      exact (IsTerm.of_plain starsPlain).append ((isTerm_of_blank spaced).append
        ((isTerm_of_isName named).append ((annotated.isTerm rfl).append (preset.isTerm rfl))))

private theorem isTerm_inset {parameter : Parameter} {before written after : Text}
    (spelled : parameter.Spells written) (blankBefore : Blank before) (blankAfter : Blank after) :
    IsTerm (before ++ (written ++ after)) :=
  (isTerm_of_blank blankBefore).append (spelled.isTerm.append (isTerm_of_blank blankAfter))

private theorem balanced_comma : Balanced [','] :=
  .of_free fun char inside => by rw [List.mem_singleton.mp inside]; rfl

private theorem balanced_of_blank {gap : Text} (blank : Blank gap) : Balanced gap :=
  (isTerm_of_blank blank).toBalanced

private theorem balanced_of_lists {parameters : List Parameter} {list : Text}
    (lists : Lists Parameter.Spells Blank parameters list) : Balanced list := by
  induction lists with
  | last spelled ended => exact spelled.isTerm.toBalanced.append (balanced_of_blank ended)
  | cons spelled ended begun _ ih =>
      exact spelled.isTerm.toBalanced.append ((balanced_of_blank ended).append
        (balanced_comma.append ((balanced_of_blank begun).append ih)))

/-- A parameter list closes no bracket from before it and leaves none open. -/
theorem Declares.balanced {parameters : List Parameter} {list : Text}
    (declared : Declares parameters list) : Balanced list := by
  cases declared with
  | nothing blank => exact balanced_of_blank blank
  | @list _ _ _ closing inset lists closes =>
      have ending : Balanced closing := by
        cases closes with
        | bare => exact balanced_of_blank rfl
        | comma begun => exact balanced_comma.append (balanced_of_blank begun)
      exact (balanced_of_blank inset).append ((balanced_of_lists lists).append ending)

/-! ## Cutting a list -/

theorem parameterDepth_eq (depth : Int) (char : Char) :
    parameterDepth depth char = depth + bracketValue char := by
  unfold parameterDepth bracketValue
  split
  · rfl
  · split
    · rfl
    · rw [Int.add_zero]

/-- A text is not cut where no comma of it stands outside the brackets. -/
theorem splitParametersFrom_append (depth : Int) (current : Text) {piece : Text}
    (uncut : ∀ beginning, beginning ++ [','] <+: piece → depth + bracketDelta beginning ≠ 0)
    (rest : Text) :
    splitParametersFrom depth current (piece ++ rest) =
      splitParametersFrom (depth + bracketDelta piece) (piece.reverse ++ current) rest := by
  induction piece generalizing depth current with
  | nil => simp
  | cons char piece ih =>
      have goesOn : ¬ (char = ',' ∧ depth + bracketValue char = 0) := by
        rintro ⟨rfl, zero⟩
        exact uncut [] (by simp) zero
      have later : ∀ beginning, beginning ++ [','] <+: piece →
          depth + bracketValue char + bracketDelta beginning ≠ 0 := by
        intro beginning begins
        have longer := uncut (char :: beginning) ((List.prefix_cons_inj char).mpr begins)
        rwa [bracketDelta_cons, ← Int.add_assoc] at longer
      rw [List.cons_append, splitParametersFrom_step, parameterDepth_eq, if_neg goesOn,
        ih _ _ later, bracketDelta_cons, Int.add_assoc, List.reverse_cons, List.append_assoc]
      rfl

theorem splitParameters_append_comma {piece : Text} (isTerm : IsTerm piece) (rest : Text) :
    splitParameters (piece ++ ',' :: rest) = piece :: splitParameters rest := by
  have comma : (0 : Int) + bracketValue ',' = 0 := rfl
  rw [splitParameters, splitParametersFrom_append 0 [] (by simpa using isTerm.noComma), isTerm.level,
    Int.add_zero, List.append_nil, splitParametersFrom_step, parameterDepth_eq, comma,
    if_pos ⟨rfl, rfl⟩, List.reverse_reverse]
  rfl

theorem splitParameters_of_isTerm {piece : Text} (isTerm : IsTerm piece) :
    splitParameters piece = [piece] := by
  have whole := splitParametersFrom_append 0 [] (by simpa using isTerm.noComma) []
  rw [List.append_nil, List.append_nil] at whole
  rw [splitParameters, whole, splitParametersFrom, List.reverse_reverse]

/-! ## Reading a parameter -/

private theorem takeWhile_append_of_not_mem {sign : Char} {front : Text} (absent : sign ∉ front)
    (rest : Text) : (front ++ rest).takeWhile (fun char => char != sign) =
      front ++ rest.takeWhile fun char => char != sign := by
  apply List.takeWhile_append_of_pos
  intro char inside
  rw [bne_iff_ne]
  rintro rfl
  exact absent inside

/-- Whether a parameter that begins with the text `core` up to its first sign is read as `name`. -/
private structure Leads (name core : Text) : Prop where
  noEquals : '=' ∉ core
  noColon : ':' ∉ core
  begins : ∀ char ∈ core.head?, isBlank char = false
  ends : ∀ char ∈ core.getLast?, isBlank char = false
  trimmed : trim (core.dropWhile fun char => char == '*') = name

/-- A parameter is read up to the first sign that attaches a term to it. -/
private theorem parameterName?_append {name core before gap tail : Text} (leads : Leads name core)
    (blankBefore : Blank before) (blankGap : Blank gap)
    (stops : ∀ char ∈ tail.head?, char = '=' ∨ char = ':') :
    parameterName? (before ++ (core ++ (gap ++ tail))) =
      if isName name && !implicitNames.contains name then some name else none := by
  have absent : ∀ sign, isBlank sign = false → sign ∉ core → sign ∉ before ++ (core ++ gap) := by
    intro sign visible notInCore
    simp [not_mem_of_isBlankText visible blankBefore, not_mem_of_isBlankText visible blankGap,
      notInCore]
  have whole : before ++ (core ++ (gap ++ tail)) = (before ++ (core ++ gap)) ++ tail := by simp
  have rest : (tail.takeWhile fun char => char != '=').takeWhile (fun char => char != ':') = [] := by
    cases tail with
    | nil => rfl
    | cons char others => rcases stops char rfl with rfl | rfl <;> simp
  have declared : ((before ++ (core ++ (gap ++ tail))).takeWhile fun char => char != '=').takeWhile
      (fun char => char != ':') = before ++ (core ++ gap) := by
    rw [whole, takeWhile_append_of_not_mem (absent '=' (by decide) leads.noEquals),
      takeWhile_append_of_not_mem (absent ':' (by decide) leads.noColon), rest, List.append_nil]
  rw [parameterName?, declared, trim_append_append blankBefore blankGap leads.begins leads.ends,
    leads.trimmed]

private theorem parameterName?_eq_none {name core before after : Text} (leads : Leads name core)
    (unnamed : isName name = false) (blankBefore : Blank before) (blankAfter : Blank after) :
    parameterName? (before ++ (core ++ after)) = none := by
  have read := parameterName?_append leads blankBefore blankAfter
    fun next (inside : next ∈ [].head?) => nomatch inside
  rwa [List.append_nil, unnamed, if_neg (by simp)] at read

private theorem parameterName?_of_blank {gap : Text} (blank : Blank gap) :
    parameterName? gap = none := by
  have leads : Leads [] [] := ⟨by simp, by simp, by simp, by simp, by decide⟩
  have read := parameterName?_eq_none leads rfl blank (rfl : Blank [])
  rwa [List.append_nil, List.append_nil] at read

/-- What is attached to a name begins with blanks and a sign, if there is anything. -/
private theorem exists_sign {hint default after : Text} (annotated : Attaches ':' hint)
    (preset : Attaches '=' default) (blank : Blank after) :
    ∃ gap tail, hint ++ (default ++ after) = gap ++ tail ∧ Blank gap ∧
      ∀ char ∈ tail.head?, char = '=' ∨ char = ':' := by
  cases annotated with
  | term spaced =>
      refine ⟨_, _, List.append_assoc _ _ _, spaced, ?_⟩
      rintro char ⟨⟩
      exact .inr rfl
  | nothing =>
      cases preset with
      | term spaced =>
          refine ⟨_, _, List.append_assoc _ _ _, spaced, ?_⟩
          rintro char ⟨⟩
          exact .inl rfl
      | nothing => exact ⟨after, [], by simp, blank, fun char inside => nomatch inside⟩

section Names

variable {name : Text} (named : isName name = true)
include named

private theorem not_mem_of_isName {sign : Char} (special : isWordChar sign = false) :
    sign ∉ name := by
  obtain ⟨-, -, -, -, letters⟩ := exists_of_isName named
  intro inside
  rw [letters sign inside] at special
  cases special

private theorem visible_getLast?_of_isName (front : Text) :
    ∀ char ∈ (front ++ name).getLast?, isBlank char = false := by
  obtain ⟨first, others, split, -, letters⟩ := exists_of_isName named
  intro char last
  have nonempty : name ≠ [] := split ▸ List.cons_ne_nil _ _
  rw [List.getLast?_append_of_ne_nil _ nonempty] at last
  exact not_isBlank_of_isWordChar (letters char (List.mem_of_getLast? last))

/-- The stars before a name are taken away, and then the blanks behind them. -/
private theorem trim_dropWhile_stars {gap : Text} (spaced : Blank gap) {stars : Text}
    (onlyStars : ∀ char ∈ stars, char = '*') :
    trim ((stars ++ (gap ++ name)).dropWhile fun char => char == '*') = name := by
  have visible : isBlank '*' = false := by decide
  have special : isWordChar '*' = false := by decide
  have noStar : '*' ∉ gap ++ name := by
    simp [not_mem_of_isBlankText visible spaced, not_mem_of_isName named special]
  have kept : (gap ++ name).dropWhile (fun char => char == '*') = gap ++ name := by
    cases split : gap ++ name with
    | nil => rfl
    | cons char rest =>
        rw [split, List.mem_cons, not_or] at noStar
        exact List.dropWhile_cons_of_neg fun same => noStar.1 (beq_iff_eq.mp same).symm
  have trimmed : trim (gap ++ (name ++ [])) = name := trim_append_append spaced rfl
    (by simpa using visible_of_isName named []) (by simpa using visible_getLast?_of_isName named [])
  rw [List.append_nil] at trimmed
  rw [List.dropWhile_append_of_pos (by simpa using onlyStars), kept, trimmed]

private theorem leads_name : Leads name name where
  noEquals := not_mem_of_isName named (by decide)
  noColon := not_mem_of_isName named (by decide)
  begins := by simpa using visible_of_isName named []
  ends := by simpa using visible_getLast?_of_isName named []
  trimmed := trim_dropWhile_stars named (rfl : Blank []) fun char (inside : char ∈ []) => nomatch inside

private theorem leads_starred {gap : Text} (spaced : Blank gap) {stars : Text} (nonempty : stars ≠ [])
    (onlyStars : ∀ char ∈ stars, char = '*') : Leads name (stars ++ (gap ++ name)) := by
  have free : ∀ sign, isBlank sign = false → isWordChar sign = false → sign ≠ '*' →
      sign ∉ stars ++ (gap ++ name) := by
    intro sign visible special notStar
    have notInStars : sign ∉ stars := fun inside => notStar (onlyStars sign inside)
    simp [not_mem_of_isBlankText visible spaced, not_mem_of_isName named special, notInStars]
  refine ⟨free '=' (by decide) (by decide) (by decide), free ':' (by decide) (by decide) (by decide),
    ?_, ?_, trim_dropWhile_stars named spaced onlyStars⟩
  · obtain ⟨star, others, rfl⟩ := List.exists_cons_of_ne_nil nonempty
    rintro char ⟨⟩
    rw [onlyStars star List.mem_cons_self]
    decide
  · rw [← List.append_assoc]
    exact visible_getLast?_of_isName named _

end Names

/-- A written parameter is read as its name; stars alone and the slash have none. -/
theorem parameterName?_of_spells {parameter : Parameter} {written : Text}
    (spelled : parameter.Spells written) {before after : Text} (blankBefore : Blank before)
    (blankAfter : Blank after) :
    parameterName? (before ++ (written ++ after)) =
      parameter.name?.filter fun name => !implicitNames.contains name := by
  cases spelled with
  | star =>
      have visible : isBlank '*' = false := by decide
      have leads : Leads [] ['*'] :=
        ⟨by simp, by simp, by simp [visible], by simp [visible], by decide⟩
      exact parameterName?_eq_none leads rfl blankBefore blankAfter
  | slash =>
      have visible : isBlank '/' = false := by decide
      have leads : Leads ['/'] ['/'] :=
        ⟨by simp, by simp, by simp [visible], by simp [visible], by decide⟩
      exact parameterName?_eq_none leads rfl blankBefore blankAfter
  | @named stars gap name hint default starred spaced named annotated preset =>
      obtain ⟨ending, tail, attached, blankEnding, stops⟩ := exists_sign annotated preset blankAfter
      have known : (if isName name && !implicitNames.contains name then some name else none) =
          (some name).filter fun name => !implicitNames.contains name := by
        rw [named, Bool.true_and, Option.filter_some]
      rw [Parameter.name?, ← known]
      have onlyStars : ∀ char ∈ stars, char = '*' := by
        rcases starred with rfl | rfl | rfl <;> simp
      cases stars with
      | nil =>
          -- Without a star the blanks before the name are those before the parameter.
          have inset : Blank (before ++ gap) := by
            rw [Blank, isBlankText_append, blankBefore, spaced]
            rfl
          rw [← parameterName?_append (leads_name named) inset blankEnding stops]
          simp [← attached]
      | cons star others =>
          rw [← parameterName?_append (leads_starred named spaced (List.cons_ne_nil _ _)
            onlyStars) blankBefore blankEnding stops]
          simp [← attached]

/-! ## Names of a list -/

private theorem filterMap_splitParameters {parameters : List Parameter} {list : Text}
    (lists : Lists Parameter.Spells Blank parameters list) {before closing : Text}
    (blank : Blank before) (closes : Closes Blank closing) :
    (splitParameters (before ++ (list ++ closing))).filterMap parameterName? =
      parameters.filterMap fun parameter =>
        parameter.name?.filter fun name => !implicitNames.contains name := by
  induction lists generalizing before with
  | @last parameter written gap spelled ended =>
      have read := parameterName?_of_spells spelled blank ended
      cases closes with
      | bare =>
          rw [List.append_nil, splitParameters_of_isTerm (isTerm_inset spelled blank ended),
            List.filterMap_cons, List.filterMap_cons, read]
          rfl
      | @comma after begun =>
          have whole : before ++ (written ++ gap ++ ',' :: after) =
              (before ++ (written ++ gap)) ++ ',' :: after := by simp
          rw [whole, splitParameters_append_comma (isTerm_inset spelled blank ended),
            splitParameters_of_isTerm (isTerm_of_blank begun), List.filterMap_cons,
            List.filterMap_cons, List.filterMap_cons, read, parameterName?_of_blank begun]
          rfl
  | @cons parameter parameters written gap after list spelled ended begun _ ih =>
      have whole : before ++ (written ++ (gap ++ ',' :: (after ++ list)) ++ closing) =
          (before ++ (written ++ gap)) ++ ',' :: (after ++ (list ++ closing)) := by simp
      rw [whole, splitParameters_append_comma (isTerm_inset spelled blank ended),
        List.filterMap_cons, List.filterMap_cons, parameterName?_of_spells spelled blank ended,
        ih begun]

/-- The names that a parameter list declares are those of its parameters. -/
theorem parameterNames_of_declares {parameters : List Parameter} {list : Text}
    (declared : Declares parameters list) :
    parameterNames list =
      (parameters.filterMap Parameter.name?).filter fun name => !implicitNames.contains name := by
  rw [List.filter_filterMap, parameterNames]
  cases declared with
  | nothing blank =>
      rw [splitParameters_of_isTerm (isTerm_of_blank blank), List.filterMap_cons,
        parameterName?_of_blank blank]
      rfl
  | list inset lists closes => exact filterMap_splitParameters lists inset closes

/-- A function whose header stands at the beginning of a line is found with all of its parameter list,
and with the names in it, whatever stands before that line and behind the list. -/
theorem signatures_of_declares {before header list after name : Text} {parameters : List Parameter}
    (ends : EndsLine before) (heads : Heads name header) (declared : Declares parameters list) :
    (∃ earlier later,
      signatures (before ++ (header ++ (list ++ ')' :: after))) = earlier ++ (name, list) :: later ∧
        earlier.map Prod.fst = (signatures before).map Prod.fst) ∧
      parameterNames list =
        (parameters.filterMap Parameter.name?).filter fun name => !implicitNames.contains name := by
  refine ⟨?_, parameterNames_of_declares declared⟩
  obtain ⟨earlier, split, names⟩ := exists_signatures_append ends (header ++ (list ++ ')' :: after))
  obtain ⟨later, found⟩ := exists_signatures_of_heads heads (list ++ ')' :: after)
  have closed : parameterText (list ++ ')' :: after) = list :=
    parameterText_of_closed rfl declared.balanced.staysInside declared.balanced.level
  rw [closed] at found
  exact ⟨earlier, later, by rw [split, found], names⟩

/-- Whether a text is a term can be decided, as it has few beginnings. -/
instance (text : Text) : Decidable (IsTerm text) :=
  decidable_of_iff
    ((∀ beginning ∈ text.inits, 0 ≤ bracketDelta beginning) ∧ bracketDelta text = 0 ∧
      ∀ beginning ∈ text.inits, beginning ++ [','] ∈ text.inits → bracketDelta beginning ≠ 0)
    (by
      simp only [List.mem_inits]
      constructor
      · rintro ⟨nonneg, level, noComma⟩
        refine ⟨⟨nonneg, level⟩, fun beginning begins => ?_⟩
        exact noComma beginning ((List.prefix_append _ _).trans begins) begins
      · rintro ⟨⟨nonneg, level⟩, noComma⟩
        exact ⟨nonneg, level, fun beginning _ => noComma beginning⟩)

/-- A list over three lines, with brackets, colons, equals signs and commas inside its terms. -/
theorem signatures_of_declares_lines :
    let before : Text := "x = 1\n".toList
    let header : Text := "  async def fetch (".toList
    let list : Text := "self, /, url: D[s, t] = \x7b1: (2, 3)\x7d,\n  *, on=lambda: [a]\n,\n  ** kw : T=b==c,".toList
    let parameters : List Parameter := [.named "self".toList, .slash, .named "url".toList, .star,
      .named "on".toList, .named "kw".toList]
    EndsLine before ∧ Heads "fetch".toList header ∧ Declares parameters list ∧
      (∃ earlier later,
        signatures (before ++ (header ++ (list ++ ')' :: ": pass".toList))) =
            earlier ++ ("fetch".toList, list) :: later ∧
          earlier.map Prod.fst = (signatures before).map Prod.fst) ∧
      parameterNames list = ["url".toList, "on".toList, "kw".toList] := by
  intro before header list parameters
  have ends : EndsLine before := by simp [EndsLine, before]
  have heads : Heads "fetch".toList ([' ', ' '] ++ ("async".toList ++ [' ']) ++ ("def".toList ++
      ([' '] ++ ("fetch".toList ++ ([' '] ++ ['(']))))) :=
    .define (.marked rfl (by decide) rfl) (by decide) rfl (by decide) rfl
  have self : Parameter.Spells (.named "self".toList) ([] ++ ([] ++ ("self".toList ++ ([] ++ [])))) :=
    .named (by decide) rfl (by decide) .nothing .nothing
  have url : Parameter.Spells (.named "url".toList) ([] ++ ([] ++ ("url".toList ++
      (([] ++ ':' :: " D[s, t]".toList) ++
        ([' '] ++ '=' :: " \x7b1: (2, 3)\x7d".toList))))) :=
    .named (by decide) rfl (by decide) (.term rfl (by decide)) (.term rfl (by decide))
  have on : Parameter.Spells (.named "on".toList) ([] ++ ([] ++ ("on".toList ++
      ([] ++ ([] ++ '=' :: "lambda: [a]\n".toList))))) :=
    .named (by decide) rfl (by decide) .nothing (.term rfl (by decide))
  have kw : Parameter.Spells (.named "kw".toList) (['*', '*'] ++ ([' '] ++ ("kw".toList ++
      (([' '] ++ ':' :: " T".toList) ++ ([] ++ '=' :: "b==c".toList))))) :=
    .named (by decide) rfl (by decide) (.term rfl (by decide)) (.term rfl (by decide))
  have lists : Lists Parameter.Spells Blank parameters _ :=
    .cons self (rfl : Blank []) (rfl : Blank [' ']) (.cons .slash (rfl : Blank []) (rfl : Blank [' '])
      (.cons url (rfl : Blank []) (rfl : Blank "\n  ".toList) (.cons .star (rfl : Blank [])
        (rfl : Blank [' ']) (.cons on (rfl : Blank []) (rfl : Blank "\n  ".toList)
          (.last kw (rfl : Blank []))))))
  have declared : Declares parameters list :=
    Declares.list (rfl : Blank []) lists (.comma (rfl : Blank []))
  exact ⟨ends, heads, declared, signatures_of_declares ends heads declared⟩

end NotebookLint.Names
