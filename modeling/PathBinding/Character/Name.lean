import PathBinding.Character.DerivedProperty
import PathBinding.Character.Newest

/-!
Characters in names: the names of groups in patterns, and identifiers.
-/

set_option autoImplicit false
set_option relaxedAutoImplicit false

namespace PathBinding.Character

open RangeTable

/-- Letters in names of groups. -/
def nameLetter : RangeTable :=
  union alphabetic newestAlphabetic

/-- Numbers in names of groups. -/
def nameNumber : RangeTable :=
  unions [decimalNumber, letterNumber, otherNumber, newestNumber]

def identifierStart : RangeTable :=
  union xidStart (diff newestAlphabetic newestMark)

def identifierContinue : RangeTable :=
  unions [xidContinue, newestAlphabetic, newestMark, [(0x11DE0, 0x11DE9)]]

end PathBinding.Character
