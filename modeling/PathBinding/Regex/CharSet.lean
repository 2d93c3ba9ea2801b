import PathBinding.Character.Class
import PathBinding.Character.Folding

/-!
Sets of characters as expressions, with membership as a decision. Folding closes a set under differences of case, and a
set read without Unicode is marked as one of bytes, which changes no member.
-/

set_option autoImplicit false
set_option relaxedAutoImplicit false

namespace PathBinding.Regex

inductive CharSet
  | empty
  | range (first last : Char)
  | table (ranges : Character.RangeTable)
  | union (a b : CharSet)
  | inter (a b : CharSet)
  | compl (a : CharSet)
  | fold (a : CharSet)
  | foldAscii (a : CharSet)
  | bytes (a : CharSet)
  deriving DecidableEq, Repr

namespace CharSet

def single (c : Char) : CharSet :=
  .range c c

def diff (a b : CharSet) : CharSet :=
  .inter a (.compl b)

def symmDiff (a b : CharSet) : CharSet :=
  .union (diff a b) (diff b a)

def ofRanges (ranges : List (Char × Char)) : CharSet :=
  ranges.foldr (fun r set ↦ .union (.range r.1 r.2) set) .empty

/-- The other spelling of an ASCII letter. -/
def swapCase (c : Char) : Char :=
  if c.isUpper then c.toLower else c.toUpper

def contains : CharSet → Char → Bool
  | .empty, _ => false
  | .range first last, c => first ≤ c && c ≤ last
  | .table ranges, c => ranges.contains c.toNat
  | .union a b, c => a.contains c || b.contains c
  | .inter a b, c => a.contains c && b.contains c
  | .compl a, c => !a.contains c
  | .fold a, c => (Character.foldClass c.toNat).any fun code ↦ a.contains (Char.ofNat code)
  | .foldAscii a, c => a.contains c || a.contains (swapCase c)
  | .bytes a, c => a.contains c

private def codes (codes : List Nat) : Character.RangeTable :=
  .joined ((codes.mergeSort (· ≤ ·)).map fun code ↦ (code, code))

/-- The letters of ASCII whose other spelling is in a table. -/
private def swappedInto (ranges : Character.RangeTable) : List Nat :=
  ((List.range 128).filter fun code ↦ (Char.ofNat code).isAlpha).filter fun code ↦
    ranges.contains (swapCase (Char.ofNat code)).toNat

/-- The members of a set as ranges of code points. -/
def ranges : CharSet → Character.RangeTable
  | .empty => []
  | .range first last => if first ≤ last then [(first.toNat, last.toNat)] else []
  | .table ranges => ranges
  | .union a b => a.ranges.union b.ranges
  | .inter a b => a.ranges.inter b.ranges
  | .compl a => a.ranges.compl
  | .fold a =>
    let inner := a.ranges
    inner.union (codes (Character.foldClasses.filter fun cls ↦ cls.any inner.contains).flatten)
  | .foldAscii a => a.ranges.union (codes (swappedInto a.ranges))
  | .bytes a => a.ranges

def isSingle (chars : CharSet) : Bool :=
  match chars.ranges with
  | [(first, last)] => first == last
  | _ => false

/-- The set as it is compared with others, by its members. Several bytes are never the same as several characters. -/
def canonical : CharSet → CharSet
  | .bytes a => if a.ranges.isEmpty || a.isSingle then .table a.ranges else .bytes (.table a.ranges)
  | a => .table a.ranges

end CharSet

end PathBinding.Regex
