/-!
Decimal text of bounded integers. A numeral is an optional sign and ASCII digits; reading stops at the first fault from
the left, so an overflow hides a bad digit behind it.
-/

set_option autoImplicit false
set_option relaxedAutoImplicit false

namespace PathBinding

/-- Why a text is no numeral of the requested range. -/
inductive NumeralFault
  | empty
  | invalidDigit
  | tooLarge
  | tooSmall
  deriving DecidableEq, Repr

def NumeralFault.message : NumeralFault → String
  | .empty => "cannot parse integer from empty string"
  | .invalidDigit => "invalid digit found in string"
  | .tooLarge => "number too large to fit in target type"
  | .tooSmall => "number too small to fit in target type"

namespace Numeral

def digitValue (c : Char) : Nat :=
  c.toNat - '0'.toNat

/-- Reads digits onto `value`, never exceeding `limit`. -/
def accumulate (limit : Nat) (overflow : NumeralFault) : Nat → List Char → Except NumeralFault Nat
  | value, [] => .ok value
  | value, c :: rest =>
    if c.isDigit then
      if value * 10 + digitValue c ≤ limit then accumulate limit overflow (value * 10 + digitValue c) rest
      else .error overflow
    else .error .invalidDigit

/-- The digits after a sign, of which there must be one. -/
def magnitude (limit : Nat) (overflow : NumeralFault) : List Char → Except NumeralFault Nat
  | [] => .error .invalidDigit
  | digits => accumulate limit overflow 0 digits

/-- Reads an integer from `-below` to `above`. -/
def readInt (below above : Nat) : List Char → Except NumeralFault Int
  | [] => .error .empty
  | '-' :: digits => (magnitude below .tooSmall digits).map fun n ↦ -(n : Int)
  | '+' :: digits => (magnitude above .tooLarge digits).map Int.ofNat
  | digits => (accumulate above .tooLarge 0 digits).map Int.ofNat

/-- Reads a natural number up to `limit`; a minus sign is no part of it. -/
def readNat (limit : Nat) : List Char → Except NumeralFault Nat
  | [] => .error .empty
  | '+' :: digits => magnitude limit .tooLarge digits
  | digits => accumulate limit .tooLarge 0 digits

/-- Signed numbers of 32 bits. -/
def readInt32 (text : List Char) : Except NumeralFault Int32 :=
  (readInt (Nat.pow 2 31) (Nat.pow 2 31 - 1) text).map Int32.ofInt

/-- Signed numbers of 64 bits. -/
def readInt64 (text : List Char) : Except NumeralFault Int64 :=
  (readInt (Nat.pow 2 63) (Nat.pow 2 63 - 1) text).map Int64.ofInt

/-- Unsigned numbers of 64 bits. -/
def readWord (text : List Char) : Except NumeralFault Nat :=
  readNat (Nat.pow 2 64 - 1) text

end Numeral

end PathBinding
