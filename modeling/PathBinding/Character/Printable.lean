import PathBinding.Character.DerivedProperty
import PathBinding.Character.Newest

/-!
Characters that quoted text shows as they are. Controls, formats, separators other than the blank, private and unassigned
code points are not printable, nor are characters that a reader is meant to overlook; a mark that extends the character
before it would not stand on its own.
-/

set_option autoImplicit false
set_option relaxedAutoImplicit false

namespace PathBinding.Character

open RangeTable

/-- Marks that are shown on the character before them. The halfwidth voicing marks take a place of their own. -/
private def shownOnOther : RangeTable :=
  diff (union graphemeExtend newestExtend) [(0xFF9E, 0xFF9F)]

def extendsCluster (c : Char) : Bool :=
  shownOnOther.contains c.toNat

private def printable : RangeTable :=
  diff (union assigned newest)
    (unions [control, format, privateUse, spaceSeparator, lineSeparator, paragraphSeparator,
      defaultIgnorableCodePoint])

def isPrintable (c : Char) : Bool :=
  c == ' ' || printable.contains c.toNat

end PathBinding.Character
