import Mathlib.Tactic.SplitIfs
import NotebookLint.File.Utf8

/-! Decoding of UTF-8 against its encoding. A file decodes to a text exactly if it holds the bytes of
that text, so it has a decoding fault exactly if it holds the bytes of no text. -/

set_option autoImplicit false

namespace NotebookLint.File

def encodeUtf8 (text : Text) : List UInt8 :=
  text.flatMap String.utf8EncodeChar

/-! ## The bytes of a character -/

/-- A byte that others follow, how many they are, and the bounds of the next one. The bounds keep out
values with a shorter form, surrogates and values beyond the last character. -/
inductive Leads : (byte following low high : Nat) → Prop where
  | two {byte low high : Nat} : 0xC2 ≤ byte → byte ≤ 0xDF → 0x80 ≤ low → high ≤ 0xBF →
      Leads byte 1 low high
  | three {byte low high : Nat} : 0xE0 ≤ byte → byte ≤ 0xEF → 0x80 ≤ low → high ≤ 0xBF →
      (byte = 0xE0 → 0xA0 ≤ low) → (byte = 0xED → high ≤ 0x9F) → Leads byte 2 low high
  | four {byte low high : Nat} : 0xF0 ≤ byte → byte ≤ 0xF4 → 0x80 ≤ low → high ≤ 0xBF →
      (byte = 0xF0 → 0x90 ≤ low) → (byte = 0xF4 → high ≤ 0x8F) → Leads byte 3 low high

theorem leads_of_leadingByte? {byte following low high : Nat}
    (found : leadingByte? byte = some (following, low, high)) (several : following ≠ 0) :
    Leads byte following low high := by
  simp only [leadingByte?, Bool.and_eq_true, decide_eq_true_eq] at found
  split_ifs at found with single pair e0 ed triple f0 quadruple f4 <;> cases found
  · exact absurd rfl several
  · exact .two pair.1 pair.2 (by omega) (by omega)
  · exact .three (by omega) (by omega) (by omega) (by omega) (by omega) (by omega)
  · exact .three (by omega) (by omega) (by omega) (by omega) (by omega) (by omega)
  · exact .three (by omega) (by omega) (by omega) (by omega) (by omega) (by omega)
  · exact .four (by omega) (by omega) (by omega) (by omega) (by omega) (by omega)
  · exact .four (by omega) (by omega) (by omega) (by omega) (by omega) (by omega)
  · exact .four (by omega) (by omega) (by omega) (by omega) (by omega) (by omega)

/-- A byte that leads the next one is read as such. -/
theorem exists_leadingByte? {byte following next : Nat} (leads : Leads byte following next next) :
    ∃ low high, leadingByte? byte = some (following, low, high) ∧ low ≤ next ∧ next ≤ high := by
  simp only [leadingByte?, Bool.and_eq_true, decide_eq_true_eq]
  cases leads with
  | two least most =>
      rw [if_neg (by omega), if_pos ⟨least, most⟩]
      exact ⟨_, _, rfl, by omega, by omega⟩
  | three least most low high e0 ed =>
      rw [if_neg (by omega), if_neg (by omega)]
      split_ifs <;> first | exact ⟨_, _, rfl, by omega, by omega⟩ | omega
  | four least most low high f0 f4 =>
      rw [if_neg (by omega), if_neg (by omega), if_neg (by omega), if_neg (by omega),
        if_neg (by omega)]
      split_ifs <;> first | exact ⟨_, _, rfl, by omega, by omega⟩ | omega

theorem le_of_leadingByte?_eq_zero {byte low high : Nat}
    (found : leadingByte? byte = some (0, low, high)) : byte ≤ 0x7F := by
  simp only [leadingByte?] at found
  split_ifs at found with single <;> cases found
  exact single

/-- The bytes that complete a character: as many as are missing, the first of them within its bounds.
With them the value of the bits read so far becomes that of the character. -/
inductive Completes : (missing low high value : Nat) → List UInt8 → Nat → Prop where
  | last {low high value : Nat} {byte : UInt8} :
      low ≤ byte.toNat → byte.toNat ≤ high →
      Completes 1 low high value [byte] (value * 0x40 + byte.toNat % 0x40)
  | more {missing low high value whole : Nat} {byte : UInt8} {bytes : List UInt8} :
      low ≤ byte.toNat → byte.toNat ≤ high →
      Completes (missing + 1) 0x80 0xBF (value * 0x40 + byte.toNat % 0x40) bytes whole →
      Completes (missing + 2) low high value (byte :: bytes) whole

/-- The bytes that the decoder takes for a character, and the character's value. -/
inductive Spells : List UInt8 → Nat → Prop where
  | single {byte : UInt8} {low high : Nat} :
      leadingByte? byte.toNat = some (0, low, high) → Spells [byte] byte.toNat
  | several {byte : UInt8} {bytes : List UInt8} {following low high whole : Nat} :
      leadingByte? byte.toNat = some (following + 1, low, high) →
      Completes (following + 1) low high (leadingBits byte.toNat (following + 1)) bytes whole →
      Spells (byte :: bytes) whole

theorem ofNat_eq_iff {value : Nat} (small : value < 0x100) (byte : UInt8) :
    UInt8.ofNat value = byte ↔ byte.toNat = value := by
  rw [UInt8.ofNat_eq_iff_mod_eq_toNat, Nat.mod_eq_of_lt (by omega)]
  exact eq_comm

theorem exists_byte (value : Nat) (small : value < 0x100) : ∃ byte : UInt8, byte.toNat = value :=
  ⟨.ofNat value, (ofNat_eq_iff small _).mp rfl⟩

section Encoding

variable {char : Char} {first second third fourth : UInt8}

theorem toNat_isValidChar (char : Char) : char.toNat.isValidChar :=
  char.valid

theorem utf8EncodeChar_eq_one_iff (most : char.toNat ≤ 0x7F) :
    String.utf8EncodeChar char = [first] ↔ first.toNat = char.toNat := by
  simp only [String.utf8EncodeChar, Char.toNat_val]
  rw [if_pos most, List.cons_eq_cons, and_iff_left rfl, ofNat_eq_iff (by omega)]

theorem utf8EncodeChar_eq_two_iff (least : 0x80 ≤ char.toNat) (most : char.toNat ≤ 0x7FF) :
    String.utf8EncodeChar char = [first, second] ↔
      first.toNat = char.toNat / 0x40 + 0xC0 ∧ second.toNat = char.toNat % 0x40 + 0x80 := by
  simp only [String.utf8EncodeChar, Char.toNat_val]
  rw [if_neg (by omega), if_pos most]
  simp only [List.cons_eq_cons, and_true]
  rw [ofNat_eq_iff (by omega), ofNat_eq_iff (by omega)]
  omega

theorem utf8EncodeChar_eq_three_iff (least : 0x800 ≤ char.toNat) (most : char.toNat ≤ 0xFFFF) :
    String.utf8EncodeChar char = [first, second, third] ↔
      first.toNat = char.toNat / 0x1000 + 0xE0 ∧
        second.toNat = char.toNat / 0x40 % 0x40 + 0x80 ∧
          third.toNat = char.toNat % 0x40 + 0x80 := by
  simp only [String.utf8EncodeChar, Char.toNat_val]
  rw [if_neg (by omega), if_neg (by omega), if_pos most]
  simp only [List.cons_eq_cons, and_true]
  rw [ofNat_eq_iff (by omega), ofNat_eq_iff (by omega), ofNat_eq_iff (by omega)]
  omega

theorem utf8EncodeChar_eq_four_iff (least : 0x10000 ≤ char.toNat) :
    String.utf8EncodeChar char = [first, second, third, fourth] ↔
      first.toNat = char.toNat / 0x40000 + 0xF0 ∧
        second.toNat = char.toNat / 0x1000 % 0x40 + 0x80 ∧
          third.toNat = char.toNat / 0x40 % 0x40 + 0x80 ∧
            fourth.toNat = char.toNat % 0x40 + 0x80 := by
  have valid := toNat_isValidChar char
  rw [Nat.isValidChar] at valid
  simp only [String.utf8EncodeChar, Char.toNat_val]
  rw [if_neg (by omega), if_neg (by omega), if_neg (by omega)]
  simp only [List.cons_eq_cons, and_true]
  rw [ofNat_eq_iff (by omega), ofNat_eq_iff (by omega), ofNat_eq_iff (by omega),
    ofNat_eq_iff (by omega)]
  omega

end Encoding

theorem toNat_ofNat {value : Nat} (valid : value.isValidChar) : (Char.ofNat value).toNat = value := by
  rw [Char.ofNat, dif_pos valid]
  rfl

theorem Completes.one {low high value whole : Nat} {bytes : List UInt8}
    (completes : Completes 1 low high value bytes whole) :
    ∃ byte : UInt8, bytes = [byte] ∧ low ≤ byte.toNat ∧ byte.toNat ≤ high ∧
      whole = value * 0x40 + byte.toNat % 0x40 := by
  cases completes with
  | last least most => exact ⟨_, rfl, least, most, rfl⟩

theorem Completes.next {missing low high value whole : Nat} {bytes : List UInt8}
    (completes : Completes (missing + 2) low high value bytes whole) :
    ∃ (byte : UInt8) (rest : List UInt8), bytes = byte :: rest ∧ low ≤ byte.toNat ∧
      byte.toNat ≤ high ∧
      Completes (missing + 1) 0x80 0xBF (value * 0x40 + byte.toNat % 0x40) rest whole := by
  cases completes with
  | more least most later => exact ⟨_, _, rfl, least, most, later⟩

theorem Spells.utf8EncodeChar {bytes : List UInt8} {whole : Nat} (spells : Spells bytes whole) :
    String.utf8EncodeChar (Char.ofNat whole) = bytes := by
  cases spells with
  | @single byte low high leads =>
      have most := le_of_leadingByte?_eq_zero leads
      have value : (Char.ofNat byte.toNat).toNat = byte.toNat := toNat_ofNat (.inl (by omega))
      rw [utf8EncodeChar_eq_one_iff (by omega), value]
  | several leads completes =>
      cases leads_of_leadingByte? leads (Nat.succ_ne_zero _) with
      | two least most low high =>
          obtain ⟨second, rfl, least₂, most₂, isWhole⟩ := completes.one
          simp only [leadingBits] at isWhole
          have value : (Char.ofNat whole).toNat = whole := toNat_ofNat (.inl (by omega))
          rw [utf8EncodeChar_eq_two_iff (by omega) (by omega), value]
          omega
      | three least most low high e0 ed =>
          obtain ⟨second, _, rfl, least₂, most₂, later⟩ := completes.next
          obtain ⟨third, rfl, least₃, most₃, isWhole⟩ := later.one
          simp only [leadingBits] at isWhole
          have value : (Char.ofNat whole).toNat = whole := by
            apply toNat_ofNat
            rw [Nat.isValidChar]
            omega
          rw [utf8EncodeChar_eq_three_iff (by omega) (by omega), value]
          omega
      | four least most low high f0 f4 =>
          obtain ⟨second, _, rfl, least₂, most₂, later⟩ := completes.next
          obtain ⟨third, _, rfl, least₃, most₃, last⟩ := later.next
          obtain ⟨fourth, rfl, least₄, most₄, isWhole⟩ := last.one
          simp only [leadingBits] at isWhole
          have value : (Char.ofNat whole).toNat = whole := by
            apply toNat_ofNat
            rw [Nat.isValidChar]
            omega
          rw [utf8EncodeChar_eq_four_iff (by omega), value]
          omega

theorem Completes.last_of_eq {low high value whole : Nat} {byte : UInt8} (least : low ≤ byte.toNat)
    (most : byte.toNat ≤ high) (isWhole : whole = value * 0x40 + byte.toNat % 0x40) :
    Completes 1 low high value [byte] whole := by
  rw [isWhole]
  exact .last least most

theorem spells_utf8EncodeChar (char : Char) : Spells (String.utf8EncodeChar char) char.toNat := by
  have valid := toNat_isValidChar char
  rw [Nat.isValidChar] at valid
  obtain one | two | three | four : char.toNat ≤ 0x7F ∨ 0x80 ≤ char.toNat ∧ char.toNat ≤ 0x7FF ∨
      0x800 ≤ char.toNat ∧ char.toNat ≤ 0xFFFF ∨ 0x10000 ≤ char.toNat := by omega
  · obtain ⟨byte, value⟩ := exists_byte char.toNat (by omega)
    rw [(utf8EncodeChar_eq_one_iff one).mpr value, ← value]
    exact .single (if_pos (by omega))
  · obtain ⟨first, isFirst⟩ := exists_byte (char.toNat / 0x40 + 0xC0) (by omega)
    obtain ⟨second, isSecond⟩ := exists_byte (char.toNat % 0x40 + 0x80) (by omega)
    have leads : Leads first.toNat 1 second.toNat second.toNat :=
      .two (by omega) (by omega) (by omega) (by omega)
    obtain ⟨low, high, leading, least, most⟩ := exists_leadingByte? leads
    rw [(utf8EncodeChar_eq_two_iff two.1 two.2).mpr ⟨isFirst, isSecond⟩]
    refine .several leading (Completes.last_of_eq least most ?_)
    rw [leadingBits]
    omega
  · obtain ⟨first, isFirst⟩ := exists_byte (char.toNat / 0x1000 + 0xE0) (by omega)
    obtain ⟨second, isSecond⟩ := exists_byte (char.toNat / 0x40 % 0x40 + 0x80) (by omega)
    obtain ⟨third, isThird⟩ := exists_byte (char.toNat % 0x40 + 0x80) (by omega)
    have leads : Leads first.toNat 2 second.toNat second.toNat :=
      .three (by omega) (by omega) (by omega) (by omega) (by omega) (by omega)
    obtain ⟨low, high, leading, least, most⟩ := exists_leadingByte? leads
    rw [(utf8EncodeChar_eq_three_iff three.1 three.2).mpr ⟨isFirst, isSecond, isThird⟩]
    refine .several leading (.more least most (.last_of_eq (by omega) (by omega) ?_))
    rw [leadingBits]
    omega
  · obtain ⟨first, isFirst⟩ := exists_byte (char.toNat / 0x40000 + 0xF0) (by omega)
    obtain ⟨second, isSecond⟩ := exists_byte (char.toNat / 0x1000 % 0x40 + 0x80) (by omega)
    obtain ⟨third, isThird⟩ := exists_byte (char.toNat / 0x40 % 0x40 + 0x80) (by omega)
    obtain ⟨fourth, isFourth⟩ := exists_byte (char.toNat % 0x40 + 0x80) (by omega)
    have leads : Leads first.toNat 3 second.toNat second.toNat :=
      .four (by omega) (by omega) (by omega) (by omega) (by omega) (by omega)
    obtain ⟨low, high, leading, least, most⟩ := exists_leadingByte? leads
    rw [(utf8EncodeChar_eq_four_iff four).mpr ⟨isFirst, isSecond, isThird, isFourth⟩]
    refine .several leading
      (.more least most (.more (by omega) (by omega) (.last_of_eq (by omega) (by omega) ?_)))
    simp only [leadingBits]
    omega

/-! ## Whole files -/

section Partial

variable {low high value : Nat} {byte : UInt8} (start : Nat) (firstByte : UInt8)
  (count position : Nat) (done : Text) (rest : List UInt8)

theorem decodeFrom_last (least : low ≤ byte.toNat) (most : byte.toNat ≤ high) :
    decodeFrom position done (some ⟨start, firstByte, count, value, 1, low, high⟩) (byte :: rest) =
      decodeFrom (position + 1) (Char.ofNat (value * 0x40 + byte.toNat % 0x40) :: done) none rest := by
  have fits : (low ≤ byte.toNat && byte.toNat ≤ high) = true := by simp [least, most]
  rw [decodeFrom, if_pos fits]
  exact if_pos (Nat.le_refl 1)

theorem decodeFrom_more {missing : Nat} (least : low ≤ byte.toNat) (most : byte.toNat ≤ high) :
    decodeFrom position done (some ⟨start, firstByte, count, value, missing + 2, low, high⟩)
        (byte :: rest) =
      decodeFrom (position + 1) done
        (some ⟨start, firstByte, count + 1, value * 0x40 + byte.toNat % 0x40, missing + 1, 0x80, 0xBF⟩)
        rest := by
  have fits : (low ≤ byte.toNat && byte.toNat ≤ high) = true := by simp [least, most]
  rw [decodeFrom, if_pos fits]
  exact if_neg (by simp)

/-- The bytes that complete a character bring the decoder behind it. -/
theorem Completes.decodeFrom_eq {missing whole : Nat} {bytes : List UInt8}
    (completes : Completes missing low high value bytes whole) :
    decodeFrom position done (some ⟨start, firstByte, count, value, missing, low, high⟩)
        (bytes ++ rest) =
      decodeFrom (position + bytes.length) (Char.ofNat whole :: done) none rest := by
  induction completes generalizing count position with
  | last least most => exact decodeFrom_last start firstByte count position done rest least most
  | @more missing low high value whole byte bytes least most _ ih =>
      have width : position + (byte :: bytes).length = position + 1 + bytes.length :=
        Nat.add_right_comm position bytes.length 1
      rw [List.cons_append, decodeFrom_more start firstByte count position done _ least most, width]
      exact ih (count + 1) (position + 1)

end Partial

/-- Inside a character nothing but bytes that complete it is decoded. -/
theorem exists_completes {missing low high value : Nat} {bytes : List UInt8} {start : Nat}
    {firstByte : UInt8} {count position : Nat} {done text : Text}
    (decoded : decodeFrom position done
      (some ⟨start, firstByte, count, value, missing + 1, low, high⟩) bytes = .ok text) :
    ∃ read whole rest, bytes = read ++ rest ∧ Completes (missing + 1) low high value read whole := by
  induction bytes generalizing missing low high value count position with
  | nil => cases decoded
  | cons byte bytes ih =>
      by_cases fits : low ≤ byte.toNat ∧ byte.toNat ≤ high
      · cases missing with
        | zero => exact ⟨[byte], _, bytes, rfl, .last fits.1 fits.2⟩
        | succ missing =>
            rw [decodeFrom_more start firstByte count position done bytes fits.1 fits.2] at decoded
            obtain ⟨read, whole, rest, split, completes⟩ := ih decoded
            exact ⟨byte :: read, whole, rest, congrArg _ split, .more fits.1 fits.2 completes⟩
      · have unfit : ¬(low ≤ byte.toNat && byte.toNat ≤ high) = true := by simpa using fits
        rw [decodeFrom, if_neg unfit] at decoded
        cases decoded

/-- The bytes of a character are decoded to it. -/
theorem Spells.decodeFrom_eq {bytes : List UInt8} {whole : Nat} (spells : Spells bytes whole)
    (position : Nat) (done : Text) (rest : List UInt8) :
    decodeFrom position done none (bytes ++ rest) =
      decodeFrom (position + bytes.length) (Char.ofNat whole :: done) none rest := by
  cases spells with
  | single leads => simp only [List.singleton_append, decodeFrom, leads, List.length_singleton]
  | @several byte bytes following low high _ leads completes =>
      have width : position + (byte :: bytes).length = position + 1 + bytes.length :=
        Nat.add_right_comm position bytes.length 1
      rw [List.cons_append, width]
      simp only [decodeFrom, leads]
      exact completes.decodeFrom_eq position byte 1 (position + 1) done rest

theorem exists_spells {position : Nat} {done text : Text} {byte : UInt8} {bytes : List UInt8}
    (decoded : decodeFrom position done none (byte :: bytes) = .ok text) :
    ∃ read whole rest, byte :: bytes = read ++ rest ∧ Spells read whole := by
  cases leads : leadingByte? byte.toNat with
  | none =>
      rw [decodeFrom, leads] at decoded
      cases decoded
  | some bounds =>
      obtain ⟨following, low, high⟩ := bounds
      cases following with
      | zero => exact ⟨[byte], _, bytes, rfl, .single leads⟩
      | succ following =>
          simp only [decodeFrom, leads] at decoded
          obtain ⟨read, whole, rest, split, completes⟩ := exists_completes decoded
          exact ⟨byte :: read, whole, rest, congrArg _ split, .several leads completes⟩

theorem decodeFrom_encodeUtf8 (position : Nat) (done text : Text) :
    decodeFrom position done none (encodeUtf8 text) = .ok (done.reverse ++ text) := by
  induction text generalizing position done with
  | nil => simp [encodeUtf8, decodeFrom]
  | cons char text ih =>
      have bytes : encodeUtf8 (char :: text) = String.utf8EncodeChar char ++ encodeUtf8 text := rfl
      rw [bytes, (spells_utf8EncodeChar char).decodeFrom_eq, ih, Char.ofNat_toNat]
      simp

/-- What is decoded is put together from characters, each of which takes at least one byte. -/
theorem exists_encodeUtf8_eq {position : Nat} {done text : Text} {bytes : List UInt8}
    (decoded : decodeFrom position done none bytes = .ok text) :
    ∃ further, encodeUtf8 further = bytes := by
  -- A character takes one to four of the bytes, so the induction is on how many there are.
  induction width : bytes.length using Nat.strongRecOn generalizing position done bytes with
  | ind size ih =>
      cases bytes with
      | nil => exact ⟨[], rfl⟩
      | cons byte bytes =>
          obtain ⟨read, whole, rest, split, spells⟩ := exists_spells decoded
          rw [split, spells.decodeFrom_eq] at decoded
          have shorter : rest.length < size := by
            have nonempty : read.length ≠ 0 := by
              cases spells with
              | single => simp
              | several => simp
            have sizes := congrArg List.length split
            rw [width, List.length_append] at sizes
            omega
          obtain ⟨further, encoded⟩ := ih rest.length shorter decoded rfl
          refine ⟨Char.ofNat whole :: further, ?_⟩
          rw [split, ← encoded, ← spells.utf8EncodeChar]
          rfl

/-- Bytes are decoded to a text exactly if they are the bytes of that text. -/
theorem decodeUtf8_eq_ok_iff {bytes : List UInt8} {text : Text} :
    decodeUtf8 bytes = .ok text ↔ encodeUtf8 text = bytes := by
  have decodes (text : Text) : decodeUtf8 (encodeUtf8 text) = .ok text :=
    decodeFrom_encodeUtf8 0 [] text
  constructor
  · intro decoded
    obtain ⟨further, encoded⟩ := exists_encodeUtf8_eq decoded
    rw [← encoded, decodes, Except.ok.injEq] at decoded
    rw [← decoded, encoded]
  · intro encoded
    rw [← encoded, decodes]

end NotebookLint.File
