import PathBinding.Regex.CharSet

/-!
Regular expressions, and how they are put together. What an expression prefers depends on how it is built, so the
constructors with a condition on their parts (`repetition`, `alternation`) are the only ones that readers of text use.
-/

set_option autoImplicit false
set_option relaxedAutoImplicit false

namespace PathBinding

namespace Regex

/-- The conditions on the two sides of a position between words. -/
inductive WordEdge
  | boundary
  | inside
  | start
  | stop
  | startHalf
  | stopHalf
  deriving DecidableEq, Repr

/-- Conditions on a position. A line may also end at a carriage return if `crlf` is set. -/
inductive Look
  | textStart
  | textEnd
  | lineStart (crlf : Bool)
  | lineEnd (crlf : Bool)
  | word (edge : WordEdge) (unicode : Bool)
  deriving DecidableEq, Repr

end Regex

/-- A group without a name captures text that nobody asks for; it is kept because two groups are never the same
expression, whatever they contain. -/
inductive Regex
  | empty
  | set (chars : Regex.CharSet)
  | look (condition : Regex.Look)
  | seq (a b : Regex)
  | alt (a b : Regex)
  | repeat (min : Nat) (max : Option Nat) (greedy : Bool) (body : Regex)
  | group (name : Option String) (body : Regex)
  deriving DecidableEq, Repr

namespace Regex

/-- The least number of characters that an expression consumes. -/
def leastLength : Regex → Nat
  | .empty => 0
  | .set _ => 1
  | .look _ => 0
  | .seq a b => a.leastLength + b.leastLength
  | .alt a b => min a.leastLength b.leastLength
  | .repeat min _ _ body => body.leastLength * min
  | .group _ body => body.leastLength

/-- Whether an expression consumes no character in any case. -/
def consumesNothing : Regex → Bool
  | .empty => true
  | .set _ => false
  | .look _ => true
  | .seq a b => a.consumesNothing && b.consumesNothing
  | .alt a b => a.consumesNothing && b.consumesNothing
  | .repeat _ max _ body => body.consumesNothing || max == some 0
  | .group _ body => body.consumesNothing

/-- A repetition, whose body is tried at most once if it consumes nothing. -/
def repetition (min : Nat) (max : Option Nat) (greedy : Bool) (body : Regex) : Regex :=
  let (min, max) := if body.consumesNothing then (Nat.min min 1, some (Nat.min (max.getD 1) 1)) else (min, max)
  if max = some 0 then .empty
  else if min = 1 ∧ max = some 1 then body
  else .repeat min max greedy body

/-- A sequence, in which empty parts vanish. -/
def sequence : List Regex → Regex
  | [] => .empty
  | .empty :: rest => sequence rest
  | first :: rest => rest.foldl (fun whole part ↦ if part = .empty then whole else .seq whole part) first

/-- The parts of a sequence. -/
def parts : Regex → List Regex
  | .empty => []
  | .seq a b => a.parts ++ b.parts
  | r => [r]

/-- The branches of an alternative. -/
def branches : Regex → List Regex
  | .alt a b => a.branches ++ b.branches
  | r => [r]

def hasGroup : Regex → Bool
  | .empty | .set _ | .look _ => false
  | .seq a b | .alt a b => a.hasGroup || b.hasGroup
  | .repeat _ _ _ body => body.hasGroup
  | .group _ _ => true

def altAll : List Regex → Regex
  | [] => .empty
  | [r] => r
  | r :: rest => .alt r (altAll rest)

/-- The expression as it is compared with others: its sets by their members, its sequences and alternatives in one row
each. -/
def canonical : Regex → Regex
  | .empty => .empty
  | .set chars => .set chars.canonical
  | .look condition => .look condition
  | .seq a b => sequence (a.canonical.parts ++ b.canonical.parts)
  | .alt a b => altAll (a.canonical.branches ++ b.canonical.branches)
  | .repeat min max greedy body => .repeat min max greedy body.canonical
  | .group name body => .group name body.canonical

/-- A part of a sequence, where neighbouring sets of one member each count as one literal. -/
inductive Factor
  | literal (text : List Regex.CharSet)
  | other (r : Regex)

namespace Factor

def ofPart : Regex → Factor
  | .set chars => if chars.isSingle then .literal [chars] else .other (.set chars)
  | r => .other r

def toRegex : Factor → Regex
  | .literal text => sequence (text.map .set)
  | .other r => r

def join (factors : List Factor) : Regex :=
  sequence (factors.map toRegex)

/-- The factors of a sequence of parts. -/
def ofParts : List Regex → List Factor
  | [] => []
  | part :: rest =>
    match ofPart part, ofParts rest with
    | .literal a, .literal b :: factors => .literal (a ++ b) :: factors
    | factor, factors => factor :: factors

/-- The same factor can be read once for several branches, which groups forbid. -/
def shared : Factor → Factor → Bool
  | .literal a, .literal b => a.map CharSet.ranges = b.map CharSet.ranges
  | .other r, .other s => !r.hasGroup && r.canonical = s.canonical
  | _, _ => false

def sharedCount : List Factor → List Factor → Nat
  | a :: rest, b :: others => if shared a b then sharedCount rest others + 1 else 0
  | _, _ => 0

end Factor

def setOf? : Regex → Option CharSet
  | .set chars => some chars
  | _ => none

/-- One set for branches that are all sets of one member, or all other sets. -/
def unionOf? (branches : List Regex) : Option CharSet :=
  match branches.mapM setOf? with
  | some (first :: rest) =>
    if rest.all (·.isSingle == first.isSingle) then some (rest.foldl .union first) else none
  | _ => none

/-- Splits off the factors that all branches, each a sequence of at least two, begin with. What follows them is put
together as alternatives again; the first argument bounds how often. -/
def alternationWithin : Nat → List Regex → Regex
  | 0, branches => altAll branches
  | bound + 1, branches =>
    let branches := branches.flatMap Regex.branches
    match branches with
    | [] => .empty
    | [r] => r
    | first :: rest =>
      match unionOf? branches with
      | some chars => .set chars
      | none =>
        let factors := branches.map fun r ↦ Factor.ofParts r.parts
        let head := Factor.ofParts first.parts
        let count := (rest.map fun r ↦ Factor.sharedCount head (Factor.ofParts r.parts)).foldl Nat.min head.length
        if count = 0 ∨ factors.any (·.length < 2) then altAll branches
        else
          let tails := factors.map fun fs ↦ Factor.join (fs.drop count)
          sequence ((head.take count).map Factor.toRegex ++ [alternationWithin bound tails])

/-- Alternatives. A beginning that all of them share is read before they part, so that its preferences count first. -/
def alternation (branches : List Regex) : Regex :=
  alternationWithin ((branches.map fun r ↦ r.parts.length).foldl Nat.add 0 + 1) branches

end Regex

end PathBinding
