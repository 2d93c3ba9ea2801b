/-!
Universally unique identifiers as their thirty-two hexadecimal digits. The canonical text groups the digits by
8-4-4-4-12 in lower case; reading also accepts the bare digits, braces around the groups and the `urn:uuid:` form.
-/

set_option autoImplicit false
set_option relaxedAutoImplicit false

namespace PathBinding

structure Uuid where
  digits : List (Fin 16)
  length_digits : digits.length = 32
  deriving DecidableEq, Repr

namespace Uuid

def hexChar (d : Fin 16) : Char :=
  if d.val < 10 then Char.ofNat ('0'.toNat + d.val) else Char.ofNat ('a'.toNat + d.val - 10)

def hexValue? (c : Char) : Option (Fin 16) :=
  if c.isDigit then some (Fin.ofNat 16 (c.toNat - '0'.toNat))
  else if 'a' ≤ c ∧ c ≤ 'f' then some (Fin.ofNat 16 (c.toNat - 'a'.toNat + 10))
  else if 'A' ≤ c ∧ c ≤ 'F' then some (Fin.ofNat 16 (c.toNat - 'A'.toNat + 10))
  else none

/-- Digits in groups of the given sizes, with a hyphen between groups. -/
def group : List Nat → List Char → List Char
  | [], text => text
  | [_], text => text
  | size :: sizes, text => text.take size ++ '-' :: group sizes (text.drop size)

def groupSizes : List Nat := [8, 4, 4, 4, 12]

/-- The canonical text. -/
def hyphenated (id : Uuid) : String :=
  .ofList (group groupSizes (id.digits.map hexChar))

instance : ToString Uuid := ⟨hyphenated⟩

/-- Exactly thirty-two hexadecimal digits in either case. -/
def ofDigits? (text : List Char) : Option Uuid := do
  let digits ← text.mapM hexValue?
  if h : digits.length = 32 then some ⟨digits, h⟩ else none

/-- Removes the hyphens between groups of the given sizes, if they are all in place. -/
def ungroup? : List Nat → List Char → Option (List Char)
  | [], text => some text
  | [_], text => some text
  | size :: sizes, text =>
    match text.drop size with
    | '-' :: rest => (ungroup? sizes rest).map (text.take size ++ ·)
    | _ => none

def ofGroups? (text : List Char) : Option Uuid :=
  if text.length = 36 then (ungroup? groupSizes text).bind ofDigits? else none

/-- The letters that announce a uniform resource name, in either case. -/
def urnScheme : List Char := "urn:uuid:".toList

def read? (text : List Char) : Option Uuid :=
  if text.length = 32 then ofDigits? text
  else if text.length = 36 then ofGroups? text
  else if text.length = 38 then
    if text.head? = some '\x7b' ∧ text.getLast? = some '\x7d' then ofGroups? (text.drop 1).dropLast else none
  else if text.length = 45 ∧ (text.take 9).map Char.toLower = urnScheme then ofGroups? (text.drop 9)
  else none

end Uuid

end PathBinding
