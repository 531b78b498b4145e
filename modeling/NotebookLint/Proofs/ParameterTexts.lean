import NotebookLint.Names.Binding
import NotebookLint.Proofs.FunctionHeaders

/-! The text of a parameter list. It should be all that follows the parenthesis of a header while that
parenthesis is open, up to its closer or to the end of the text. A list that is closed is read in this
way. One that is never closed, as it is while it is being typed, loses its last character. -/

set_option autoImplicit false

namespace NotebookLint

namespace Text

/-! ## Stretches inside a bracket -/

/-- Whether the bracket depth never is zero in a text that begins at the given depth. -/
def StaysInside (depth : Int) (text : Text) : Prop :=
  ∀ beginning, beginning <+: text → depth + bracketDelta beginning ≠ 0

/-- Whether a stretch is the longest one with which a text begins and in which a bracket that is opened
before the text stays open. -/
structure LongestInside (text stretch : Text) : Prop where
  begins : stretch <+: text
  inside : StaysInside 1 stretch
  longest : ∀ other, other <+: text → StaysInside 1 other → other <+: stretch

theorem staysInside_nil {depth : Int} : StaysInside depth [] ↔ depth ≠ 0 := by
  simp [StaysInside]

theorem staysInside_cons {depth : Int} {char : Char} {rest : Text} :
    StaysInside depth (char :: rest) ↔
      depth ≠ 0 ∧ StaysInside (depth + bracketValue char) rest := by
  constructor
  · intro inside
    refine ⟨by simpa using inside [] List.nil_prefix, fun beginning begins => ?_⟩
    have longer := inside (char :: beginning) ((List.prefix_cons_inj char).mpr begins)
    rwa [bracketDelta_cons, ← Int.add_assoc] at longer
  · rintro ⟨nonzero, inside⟩ beginning begins
    rcases List.prefix_cons_iff.mp begins with rfl | ⟨shorter, rfl, rest⟩
    · simpa using nonzero
    · rw [bracketDelta_cons, ← Int.add_assoc]
      exact inside shorter rest

theorem LongestInside.unique {text stretch other : Text} (longest : LongestInside text stretch)
    (another : LongestInside text other) : stretch = other :=
  (another.longest stretch longest.begins longest.inside).eq_of_length_le
    (longest.longest other another.begins another.inside).length_le

theorem longestInside_self {text : Text} (inside : StaysInside 1 text) : LongestInside text text :=
  ⟨List.prefix_refl text, inside, fun _ begins _ => begins⟩

theorem longestInside_of_closer {stretch after : Text} {closer : Char}
    (closes : bracketValue closer = -1) (inside : StaysInside 1 stretch)
    (balanced : bracketDelta stretch = 0) : LongestInside (stretch ++ closer :: after) stretch where
  begins := List.prefix_append _ _
  inside := inside
  longest other begins stays := by
    have closed : stretch ++ [closer] <+: stretch ++ closer :: after := by simp
    rcases List.prefix_or_prefix_of_prefix begins closed with shorter | longer
    · rcases List.prefix_concat_iff.mp shorter with same | inStretch
      · exact absurd (by simp [same, balanced, closes]) (stays other (List.prefix_refl other))
      · exact inStretch
    · exact absurd (by simp [balanced, closes]) (stays _ longer)

end Text

namespace Names

open Text

/-! ## Reading up to a closer -/

/-- One character is the closer that is looked for, or it moves the depth by its value. -/
theorem beforeCloser?_step (depth : Nat) (char : Char) (rest : Text) :
    (depth = 0 ∧ isCloser char = true ∧ bracketValue char = -1 ∧
        beforeCloser? depth (char :: rest) = some []) ∨
      ∃ inner : Nat, (inner : Int) = depth + bracketValue char ∧
        beforeCloser? depth (char :: rest) = (beforeCloser? inner rest).map (char :: ·) := by
  unfold bracketValue
  cases opens : isOpener char with
  | true => exact .inr ⟨depth + 1, by simp, by simp [beforeCloser?, opens]⟩
  | false =>
      cases closes : isCloser char with
      | false => exact .inr ⟨depth, by simp, by simp [beforeCloser?, opens, closes]⟩
      | true =>
          cases depth with
          | zero => exact .inl ⟨rfl, rfl, by simp, by simp [beforeCloser?, opens, closes]⟩
          | succ outer => exact .inr ⟨outer, by simp, by simp [beforeCloser?, opens, closes]⟩

/-- What is read up to a closer: the brackets that are open before it stay open, and the closer ends
the outermost. -/
theorem exists_closer_of_beforeCloser? {depth : Nat} {text stretch : Text}
    (read : beforeCloser? depth text = some stretch) :
    ∃ closer after, text = stretch ++ closer :: after ∧ isCloser closer = true ∧
      bracketValue closer = -1 ∧ StaysInside (depth + 1) stretch ∧
      depth + bracketDelta stretch = 0 := by
  induction text generalizing depth stretch with
  | nil => cases read
  | cons char rest ih =>
      rcases beforeCloser?_step depth char rest with ⟨rfl, closes, value, ended⟩ |
        ⟨inner, innerDepth, goesOn⟩
      · rw [ended] at read
        cases read
        exact ⟨char, rest, rfl, closes, value, staysInside_nil.mpr (by decide), rfl⟩
      · rw [goesOn] at read
        obtain ⟨shorter, readInner, rfl⟩ := Option.map_eq_some_iff.mp read
        obtain ⟨closer, after, rfl, closes, value, inside, balanced⟩ := ih readInner
        refine ⟨closer, after, rfl, closes, value, staysInside_cons.mpr ⟨by omega, ?_⟩, ?_⟩
        · rwa [innerDepth, Int.add_right_comm] at inside
        · rw [bracketDelta_cons]
          omega

/-- Where no closer is found, the brackets stay open. -/
theorem staysInside_of_beforeCloser? {depth : Nat} {text : Text}
    (unclosed : beforeCloser? depth text = none) : StaysInside (depth + 1) text := by
  induction text generalizing depth with
  | nil => exact staysInside_nil.mpr (by omega)
  | cons char rest ih =>
      rcases beforeCloser?_step depth char rest with ⟨-, -, -, ended⟩ | ⟨inner, innerDepth, goesOn⟩
      · rw [ended] at unclosed
        cases unclosed
      · rw [goesOn, Option.map_eq_none_iff] at unclosed
        have inside := ih unclosed
        rw [innerDepth, Int.add_right_comm] at inside
        exact staysInside_cons.mpr ⟨by omega, inside⟩

/-- The two ways in which a parameter list is read: up to its closer, or to the end of the text without
the last character. -/
theorem parameterText_cases (rest : Text) :
    ∃ stretch, LongestInside rest stretch ∧
      ((∃ closer after, rest = stretch ++ closer :: after ∧ isCloser closer = true ∧
          bracketDelta stretch = 0 ∧ parameterText rest = stretch) ∨
        (stretch = rest ∧ parameterText rest = rest.dropLast)) := by
  unfold parameterText
  cases read : beforeCloser? 0 rest with
  | some stretch =>
      obtain ⟨closer, after, rfl, closes, value, inside, balanced⟩ :=
        exists_closer_of_beforeCloser? read
      have level : bracketDelta stretch = 0 := by omega
      exact ⟨stretch, longestInside_of_closer value inside level,
        .inl ⟨closer, after, rfl, closes, level, rfl⟩⟩
  | none =>
      have inside := staysInside_of_beforeCloser? read
      exact ⟨rest, longestInside_self inside, .inr ⟨rfl, rfl⟩⟩

theorem parameterText_of_closed {list after : Text} {closer : Char} (value : bracketValue closer = -1)
    (inside : StaysInside 1 list) (balanced : bracketDelta list = 0) :
    parameterText (list ++ closer :: after) = list := by
  have closed : LongestInside (list ++ closer :: after) list :=
    longestInside_of_closer value inside balanced
  obtain ⟨stretch, longest, read⟩ := parameterText_cases (list ++ closer :: after)
  obtain rfl := closed.unique longest
  rcases read with ⟨-, -, -, -, -, same⟩ | ⟨whole, -⟩
  · exact same
  · simp at whole

/-! ## Signatures -/

/-- The functions of a text with the texts of their parameter lists. The text is the longest stretch
behind the parenthesis in which that stays open, if the parenthesis is closed; otherwise the stretch goes
to the end of the text, and the last character of it is missing. -/
theorem mem_signatures_iff_longest (text name parameters : Text) :
    (name, parameters) ∈ signatures text ↔
      ∃ before header rest stretch, text = before ++ (header ++ rest) ∧ EndsLine before ∧
        Heads name header ∧ LongestInside rest stretch ∧
        ((∃ closer after, rest = stretch ++ closer :: after ∧ isCloser closer = true ∧
            bracketDelta stretch = 0 ∧ parameters = stretch) ∨
          (stretch = rest ∧ parameters = rest.dropLast)) := by
  rw [mem_signatures]
  constructor
  · rintro ⟨before, header, rest, split, ends, heads, rfl⟩
    obtain ⟨stretch, longest, read⟩ := parameterText_cases rest
    exact ⟨before, header, rest, stretch, split, ends, heads, longest, read⟩
  · rintro ⟨before, header, rest, stretch, split, ends, heads, longest, read⟩
    refine ⟨before, header, rest, split, ends, heads, ?_⟩
    obtain ⟨other, another, alsoRead⟩ := parameterText_cases rest
    obtain rfl := longest.unique another
    rcases read with ⟨closer, after, rfl, -, -, rfl⟩ | ⟨rfl, rfl⟩
    · rcases alsoRead with ⟨-, -, -, -, -, same⟩ | ⟨whole, -⟩
      · exact same.symm
      · simp at whole
    · rcases alsoRead with ⟨closer, after, whole, -⟩ | ⟨-, same⟩
      · simp at whole
      · exact same.symm

/-- While a parameter list is being typed, the name at its end is cut short. -/
theorem signatures_of_unclosed :
    let header : Text := "def f(".toList
    let rest : Text := "a, bc".toList
    Heads ['f'] header ∧ LongestInside rest rest ∧
      signatures (header ++ rest) = [(['f'], "a, b".toList)] ∧
      definedNames (header ++ rest) = [['f'], ['a'], ['b']] := by
  have heads : Heads ['f'] ([] ++ ("def".toList ++ ([' '] ++ (['f'] ++ ([] ++ ['(']))))) :=
    .define (.bare rfl) (by decide) rfl (by decide) rfl
  exact ⟨heads, longestInside_self (staysInside_of_beforeCloser? (by decide)), by decide,
    by decide +kernel⟩

end Names

end NotebookLint
