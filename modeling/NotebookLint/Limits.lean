/-!
# Limits of the readers

What no document may exceed: the number of digits of a decimal integer, and the depth to which
values stand inside each other. A document beyond a limit does not count as malformed. It cannot be
read at all, and whatever needs it stops.
-/

set_option autoImplicit false

namespace NotebookLint

inductive Container where
  | jsonArray
  | jsonObject
  | tomlValue
  deriving DecidableEq, Repr

inductive LimitFault where
  | tooManyDigits (digits : Nat)
  | tooDeep (container : Container)
  deriving DecidableEq, Repr

def maxDigits : Nat := 4300

namespace LimitFault

def place : Container → String
  | .jsonArray => " while decoding a JSON array from a unicode string"
  | .jsonObject => " while decoding a JSON object from a unicode string"
  | .tomlValue => ""

def message : LimitFault → String
  | .tooManyDigits digits =>
      s!"Exceeds the limit ({maxDigits} digits) for integer string conversion: " ++
        s!"value has {digits} digits; use sys.set_int_max_str_digits() to increase the limit"
  | .tooDeep container => s!"maximum recursion depth exceeded{place container}"

end LimitFault

structure WrittenNumber where
  negative : Bool
  /-- The values of the digits before a fraction, the first one first. -/
  digits : List Nat
  /-- There is neither a fraction nor an exponent. -/
  isWhole : Bool
  deriving DecidableEq, Repr

namespace WrittenNumber

def valueOf (base : Nat) (digits : List Nat) : Nat :=
  digits.foldl (fun value digit => value * base + digit) 0

def integer (number : WrittenNumber) : Except LimitFault Int :=
  if number.digits.length > maxDigits then .error (.tooManyDigits number.digits.length)
  else
    let value : Int := valueOf 10 number.digits
    .ok (if number.negative then -value else value)

end WrittenNumber

end NotebookLint
