import PathBinding.Toml

/-!
Numbers of TOML text. Integers have 64 bits; underscores may stand between two digits, and a decimal number has no leading
zeros. A float too large to be finite is refused, unless it is negative.
-/

set_option autoImplicit false
set_option relaxedAutoImplicit false

namespace PathBinding.Toml.Number

/-- Digits of one sort with single underscores between them. -/
private def spanGrouped (p : Char → Bool) : List Char → List Char × List Char
  | '_' :: c :: rest =>
    if p c then
      let (digits, rest) := spanGrouped p rest
      (c :: digits, rest)
    else ([], '_' :: c :: rest)
  | c :: rest =>
    if p c then
      let (digits, rest) := spanGrouped p rest
      (c :: digits, rest)
    else ([], c :: rest)
  | [] => ([], [])

private def readGroup (p : Char → Bool) (text : List Char) : Option (List Char × List Char) :=
  if text.head?.any p then some (spanGrouped p text) else none

private def readSign : List Char → Bool × List Char
  | '-' :: rest => (true, rest)
  | '+' :: rest => (false, rest)
  | text => (false, text)

private def readWhole : List Char → Option (List Char × List Char)
  | '0' :: rest => some (['0'], rest)
  | text => readGroup Char.isDigit text

private def readPower : List Char → Option (Int × List Char)
  | 'e' :: rest | 'E' :: rest =>
    let (negative, rest) := readSign rest
    (readGroup Char.isDigit rest).map fun (digits, rest) ↦
      (if negative then -(Decimal.ofDigits digits : Int) else Decimal.ofDigits digits, rest)
  | _ => none

/-- The decimals and the power of ten of a float, which has at least one of them. -/
private def readFraction : List Char → Option (List Char × Int × List Char)
  | '.' :: rest => do
    let (decimals, rest) ← readGroup Char.isDigit rest
    let (power, rest) := (readPower rest).getD (0, rest)
    return (decimals, power, rest)
  | text => (readPower text).map fun (power, rest) ↦ ([], power, rest)

private def readSpecial : List Char → Option (Toml × List Char)
  | 'i' :: 'n' :: 'f' :: rest => some (.float false, rest)
  | 'n' :: 'a' :: 'n' :: rest => some (.float false, rest)
  | _ => none

private def readFloat (text : List Char) : Option (Toml × List Char) :=
  let (negative, unsigned) := readSign text
  match readSpecial unsigned with
  | some special => some special
  | none => do
    let (whole, rest) ← readWhole unsigned
    let (decimals, power, rest) ← readFraction rest
    let beyond := Decimal.isBeyondRange (whole ++ decimals) (power - decimals.length)
    if beyond && !negative then none else return (.float (!beyond), rest)

private def digitOf (c : Char) : Nat :=
  if c.isDigit then c.toNat - '0'.toNat else c.toLower.toNat - 'a'.toNat + 10

private def isDigitOf (base : Nat) (c : Char) : Bool :=
  (c.isDigit || ('a' ≤ c.toLower && c.toLower ≤ 'f')) && digitOf c < base

/-- Reads a natural number in another base, behind its mark. -/
private def readBased (base : Nat) (text : List Char) : Option (Toml × List Char) := do
  let (digits, rest) ← readGroup (isDigitOf base) text
  let number := digits.foldl (fun n c ↦ n * base + digitOf c) 0
  if number < Nat.pow 2 63 then return (.integer number, rest) else none

private def readDecimal (text : List Char) : Option (Toml × List Char) := do
  let (negative, text) := readSign text
  let (digits, rest) ← readWhole text
  let number := Decimal.ofDigits digits
  if negative then
    if number ≤ Nat.pow 2 63 then return (.integer (-(number : Int)), rest) else none
  else if number < Nat.pow 2 63 then return (.integer number, rest)
  else none

private def readInteger : List Char → Option (Toml × List Char)
  | '0' :: 'x' :: rest => readBased 16 rest
  | '0' :: 'o' :: rest => readBased 8 rest
  | '0' :: 'b' :: rest => readBased 2 rest
  | text => readDecimal text

/-- Reads a float or, failing that, an integer. -/
def read? (text : List Char) : Option (Toml × List Char) :=
  (readFloat text).orElse fun _ ↦ readInteger text

end PathBinding.Toml.Number
