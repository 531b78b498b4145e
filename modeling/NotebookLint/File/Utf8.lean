import NotebookLint.Text.Basic

/-!
# UTF-8

Decoding of file contents. A fault names the bytes at which decoding stops: a byte that starts no
character, the bytes of a character whose next byte cannot continue it, or the bytes that the end
of the data cuts short.
-/

set_option autoImplicit false

namespace NotebookLint.File

inductive Utf8Cause where
  | invalidStart
  | invalidContinuation
  | unexpectedEnd
  deriving DecidableEq, Repr

/-- The faulty bytes: how many there are, where they start and the first of them. -/
structure Utf8Fault where
  cause : Utf8Cause
  position : Nat
  count : Nat
  firstByte : UInt8
  deriving DecidableEq, Repr

def Utf8Cause.message : Utf8Cause → String
  | .invalidStart => "invalid start byte"
  | .invalidContinuation => "invalid continuation byte"
  | .unexpectedEnd => "unexpected end of data"

def byteDigits (byte : UInt8) : String :=
  let digits := Nat.toDigits 16 byte.toNat
  String.ofList (if digits.length < 2 then '0' :: digits else digits)

def Utf8Fault.message (fault : Utf8Fault) : String :=
  let place :=
    if fault.count ≤ 1 then s!"byte 0x{byteDigits fault.firstByte} in position {fault.position}"
    else s!"bytes in position {fault.position}-{fault.position + fault.count - 1}"
  s!"'utf-8' codec can't decode {place}: {fault.cause.message}"

/-- The bytes that may follow the first byte of a character directly, and how many bytes follow it
in all; nothing if the byte starts no character. -/
def leadingByte? (byte : Nat) : Option (Nat × Nat × Nat) :=
  if byte ≤ 0x7F then some (0, 0, 0)
  else if 0xC2 ≤ byte && byte ≤ 0xDF then some (1, 0x80, 0xBF)
  else if byte = 0xE0 then some (2, 0xA0, 0xBF)
  else if byte = 0xED then some (2, 0x80, 0x9F)
  else if 0xE1 ≤ byte && byte ≤ 0xEF then some (2, 0x80, 0xBF)
  else if byte = 0xF0 then some (3, 0x90, 0xBF)
  else if 0xF1 ≤ byte && byte ≤ 0xF3 then some (3, 0x80, 0xBF)
  else if byte = 0xF4 then some (3, 0x80, 0x8F)
  else none

def leadingBits (byte following : Nat) : Nat :=
  match following with
  | 0 => byte
  | 1 => byte % 0x20
  | 2 => byte % 0x10
  | _ => byte % 0x8

structure PartialChar where
  start : Nat
  firstByte : UInt8
  count : Nat
  value : Nat
  /-- The bytes still to come, at least one. -/
  missing : Nat
  /-- The least and the greatest byte that may come next. -/
  low : Nat
  high : Nat

def PartialChar.fault (char : PartialChar) (cause : Utf8Cause) : Utf8Fault :=
  ⟨cause, char.start, char.count, char.firstByte⟩

/-- Decodes bytes from a position on; `done` holds the characters so far, last one first. -/
def decodeFrom (position : Nat) (done : Text) :
    Option PartialChar → List UInt8 → Except Utf8Fault Text
  | none, [] => .ok done.reverse
  | some char, [] => .error (char.fault .unexpectedEnd)
  | none, byte :: rest =>
      match leadingByte? byte.toNat with
      | none => .error ⟨.invalidStart, position, 1, byte⟩
      | some (0, _, _) => decodeFrom (position + 1) (Char.ofNat byte.toNat :: done) none rest
      | some (following, low, high) =>
          decodeFrom (position + 1) done
            (some ⟨position, byte, 1, leadingBits byte.toNat following, following, low, high⟩) rest
  | some char, byte :: rest =>
      if char.low ≤ byte.toNat && byte.toNat ≤ char.high then
        let value := char.value * 0x40 + byte.toNat % 0x40
        if char.missing ≤ 1 then decodeFrom (position + 1) (Char.ofNat value :: done) none rest
        else
          decodeFrom (position + 1) done
            (some { char with
              value, count := char.count + 1, missing := char.missing - 1
              low := 0x80, high := 0xBF })
            rest
      else .error (char.fault .invalidContinuation)

def decodeUtf8 (bytes : List UInt8) : Except Utf8Fault Text :=
  decodeFrom 0 [] none bytes

/-- Makes every line end in a line feed alone: a carriage return counts as a line break, together
with a line feed that follows it. -/
def unifyLineBreaks : Text → Text
  | [] => []
  | '\r' :: '\n' :: rest => '\n' :: unifyLineBreaks rest
  | char :: rest => (if char = '\r' then '\n' else char) :: unifyLineBreaks rest

def utf8Length (text : Text) : Nat :=
  text.foldr (fun char length => char.utf8Size + length) 0

end NotebookLint.File
