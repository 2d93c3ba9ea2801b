/-!
A set of code points as a list of closed ranges in ascending order. Large sets are written as text, in hexadecimal, and
read once; others are made from them by the operations on sets.
-/

set_option autoImplicit false
set_option relaxedAutoImplicit false

namespace PathBinding.Character

/-- Closed ranges of code points. -/
abbrev RangeTable := List (Nat × Nat)

namespace RangeTable

def contains : RangeTable → Nat → Bool
  | [], _ => false
  | (first, last) :: rest, code => first ≤ code && (code ≤ last || contains rest code)

/-- The greatest code point. -/
def lastCode : Nat := 0x10FFFF

def everything : RangeTable := [(0, lastCode)]

/-- Joins a range to the ones that follow it in ascending order of their beginnings. -/
private def absorb : Nat × Nat → RangeTable → RangeTable
  | range, [] => [range]
  | range, next :: rest =>
    if next.1 ≤ range.2 + 1 then absorb (range.1, max range.2 next.2) rest else range :: absorb next rest

/-- Joins ranges that meet, in a list that is sorted by their beginnings. -/
def joined : RangeTable → RangeTable
  | [] => []
  | range :: rest => absorb range rest

def union (a b : RangeTable) : RangeTable :=
  joined (a.merge b fun r s ↦ r.1 ≤ s.1)

def unions (tables : List RangeTable) : RangeTable :=
  tables.foldl union []

/-- The code points from `next` on that no range of an ascending list contains. -/
private def gaps : Nat → RangeTable → RangeTable
  | next, [] => if next ≤ lastCode then [(next, lastCode)] else []
  | next, (first, last) :: rest =>
    if next < first then (next, first - 1) :: gaps (last + 1) rest else gaps (max next (last + 1)) rest

def compl (a : RangeTable) : RangeTable :=
  gaps 0 a

def inter (a b : RangeTable) : RangeTable :=
  (union a.compl b.compl).compl

def diff (a b : RangeTable) : RangeTable :=
  (union a.compl b).compl

private def hexDigitValue (c : Char) : Nat :=
  if c.isDigit then c.toNat - '0'.toNat else c.toNat - 'A'.toNat + 10

private def readHex (digits : List Char) : Nat :=
  digits.foldl (fun value c ↦ value * 16 + hexDigitValue c) 0

/-- The words of a text, which blanks and line ends separate. -/
private def words (text : List Char) : List (List Char) :=
  let (last, words) := text.foldr (fun c (word, words) ↦
    if c == ' ' || c == '\n' then ([], word :: words) else (c :: word, words)) ([], [])
  (last :: words).filter (!·.isEmpty)

private def readRange (word : List Char) : Nat × Nat :=
  let first := readHex (word.takeWhile (· != '-'))
  match word.dropWhile (· != '-') with
  | _ :: last => (first, readHex last)
  | [] => (first, first)

/-- Reads ranges such as `41-5A` and single code points such as `5F`, separated by blanks. -/
def ofHex (text : String) : RangeTable :=
  (words text.toList).map readRange

end RangeTable

end PathBinding.Character
