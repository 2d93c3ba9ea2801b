import PathBinding.Decimal
import PathBinding.Json

/-!
Reading numbers of JSON text. A number with a fraction or an exponent, or one of more than 64 bits, is taken as the
product of two numbers of double precision: its leading digits, as many as 64 bits hold, and a power of ten. It denotes
nothing if that product is infinite, which may happen just below the bound where the number itself would be.
-/

set_option autoImplicit false
set_option relaxedAutoImplicit false

namespace PathBinding.Json.Number

/-- A number as the product of a natural number and a power of ten. -/
structure Scaled where
  significand : Nat
  exponent : Int

/-- Appends a digit to a significand that has room for it. -/
private def append? (significand : Nat) (digit : Char) : Option Nat :=
  let longer := significand * 10 + (digit.toNat - '0'.toNat)
  if longer < Nat.pow 2 64 then some longer else none

/-- The digits before the point; those that find no room just count. -/
private def ofWhole : Nat → List Char → Scaled
  | significand, [] => ⟨significand, 0⟩
  | significand, digit :: rest =>
    match append? significand digit with
    | some longer => ofWhole longer rest
    | none => ⟨significand, rest.length + 1⟩

/-- Appends the digits behind the point up to the first that finds no room. -/
private def Scaled.appendDecimals (number : Scaled) : List Char → Scaled
  | [] => number
  | digit :: rest =>
    match append? number.significand digit with
    | some longer => Scaled.appendDecimals ⟨longer, number.exponent - 1⟩ rest
    | none => number

/-- The significand and the exponent of a numeral. -/
def Scaled.ofDigits (whole decimals : List Char) (exponent : Int) : Scaled :=
  let number := (ofWhole 0 whole).appendDecimals decimals
  { number with exponent := number.exponent + exponent }

/-- The greatest power of ten of double precision. -/
def greatestPower : Nat := 308

/-- Whether the product is infinite. -/
def Scaled.isInfinite (number : Scaled) : Bool :=
  match number.exponent with
  | .negSucc _ => false
  | .ofNat exponent =>
    number.significand != 0 && (exponent > greatestPower ||
      Decimal.overflowBound ≤ Decimal.roundToDouble number.significand * Decimal.roundToDouble (Nat.pow 10 exponent))

private def Scaled.toJson (number : Scaled) : Json :=
  if number.isInfinite then .unrepresentable else .fraction

/-- A number of digits alone. Negative zero is no integer. -/
def ofInteger (negative : Bool) (digits : List Char) : Json :=
  let number := Decimal.ofDigits digits
  if negative && number != 0 && number ≤ Nat.pow 2 63 then .int (-(number : Int))
  else if !negative && number < Nat.pow 2 64 then .int number
  else (Scaled.ofDigits digits [] 0).toJson

/-- The exponent behind an `e`. -/
private def readExponent (text : List Char) : Option (Int × List Char) :=
  let (negative, text) := match text with
    | '-' :: rest => (true, rest)
    | '+' :: rest => (false, rest)
    | _ => (false, text)
  match text.span Char.isDigit with
  | ([], _) => none
  | (digits, rest) => some (if negative then -(Decimal.ofDigits digits : Int) else Decimal.ofDigits digits, rest)

/-- Reads a number behind its sign. -/
def read (negative : Bool) (text : List Char) : Option (Json × List Char) := do
  let (whole, rest) := match text with
    | '0' :: rest => (['0'], rest)
    | _ => text.span Char.isDigit
  guard (!whole.isEmpty ∧ ¬(whole = ['0'] ∧ rest.head?.any Char.isDigit))
  let (decimals?, rest) ← match rest with
    | '.' :: rest =>
      match rest.span Char.isDigit with
      | ([], _) => none
      | (decimals, rest) => some (some decimals, rest)
    | _ => some (none, rest)
  let (exponent?, rest) ← match rest with
    | 'e' :: rest | 'E' :: rest => (readExponent rest).map fun (e, rest) ↦ (some e, rest)
    | _ => some (none, rest)
  match decimals?, exponent? with
  | none, none => return (ofInteger negative whole, rest)
  | _, _ => return ((Scaled.ofDigits whole (decimals?.getD []) (exponent?.getD 0)).toJson, rest)

end PathBinding.Json.Number
