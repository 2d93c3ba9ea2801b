/-!
Decimal numerals without a sign: the number that digits denote, and whether a numeral with an exponent rounds to a finite
number of double precision.
-/

set_option autoImplicit false
set_option relaxedAutoImplicit false

namespace PathBinding.Decimal

def ofDigits (digits : List Char) : Nat :=
  digits.foldl (fun n c ↦ n * 10 + (c.toNat - '0'.toNat)) 0

/-- The number of 53 bits, with zeros behind them, that is nearest to a number; of two the one with an even last bit. -/
def roundToDouble (number : Nat) : Nat :=
  let unit := Nat.pow 2 (number.log2 - 52)
  let quotient := number / unit
  let remainder := number % unit
  let up := 2 * remainder > unit || (2 * remainder == unit && quotient % 2 == 1)
  (if up then quotient + 1 else quotient) * unit

/-- The least number that rounds to infinity: half a unit beyond the largest finite one. -/
def overflowBound : Nat := Nat.pow 2 1024 - Nat.pow 2 970

/-- Whether digits with a power of ten round to no finite number. Far from the bound the number of digits decides. -/
def isBeyondRange (digits : List Char) (exponent : Int) : Bool :=
  let mantissa := ofDigits digits
  let magnitude := (digits.dropWhile (· == '0')).length + exponent
  if mantissa = 0 ∨ magnitude < 300 then false
  else if magnitude > 320 then true
  else if exponent < 0 then mantissa ≥ overflowBound * Nat.pow 10 exponent.natAbs
  else mantissa * Nat.pow 10 exponent.natAbs ≥ overflowBound

end PathBinding.Decimal
