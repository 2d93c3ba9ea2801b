import Std.Data.TreeSet
import PathBinding.Regex.Parser
import PathBinding.Regex.Utf8

/-!
How large an expression is as an automaton that reads bytes. It is measured twice, for an automaton that reads a path
forwards and notes what its groups capture, and for one that reads backwards and captures nothing. An expression is
refused if one of the two takes more than the permitted number of bytes.
-/

set_option autoImplicit false
set_option relaxedAutoImplicit false

namespace PathBinding.Regex

inductive Direction
  | forwards
  | backwards
  deriving DecidableEq, Repr

/-- The bytes of one state of an automaton. -/
def stateBytes : Nat := 32

/-- The bytes that a state takes which offers a choice between other states. -/
def choiceBytes (alternatives : Nat) : Nat :=
  stateBytes + 4 * alternatives

/-- The bytes that a state takes which reads one byte, out of ranges that each lead to a state. -/
def readingBytes (ranges : Nat) : Nat :=
  stateBytes + 8 * ranges

/-! ### Sets of characters -/

/-- Byte sequences grouped by the range that they begin with, where neighbours with the same range form a group. -/
private def groupByHead : List (List Utf8.ByteRange) → List (List (List Utf8.ByteRange))
  | [] => []
  | [] :: rest => groupByHead rest
  | (head :: tail) :: rest =>
    match groupByHead rest, rest with
    | shared :: others, (next :: _) :: _ =>
      if next = head then (tail :: shared) :: others else [tail] :: shared :: others
    | groups, _ => [tail] :: groups

/-- Some order of byte sequences, to look them up by. -/
private def compareSequences : List Utf8.ByteRange → List Utf8.ByteRange → Ordering :=
  List.compareLex (compareLex (compareOn Prod.fst) (compareOn Prod.snd))

/-- States that read a set forwards, each named by the sequences that it reads. -/
private abbrev Readers := Std.TreeSet (List (List Utf8.ByteRange)) (List.compareLex compareSequences)

/-- The states that read a set forwards, in which equal ones are shared. The first argument bounds the length of the
sequences. -/
private def readers : Nat → Readers → List (List Utf8.ByteRange) → Readers
  | 0, known, _ => known
  | bound + 1, known, sequences =>
    if known.contains sequences || sequences.all (·.isEmpty) then known
    else (groupByHead sequences).foldl (readers bound) (known.insert sequences)

/-- The beginnings of sequences, each counted once: read backwards, sequences part behind a common beginning. -/
private def beginnings (sequences : List (List Utf8.ByteRange)) : Nat :=
  (sequences.foldl (fun known sequence ↦ (List.range sequence.length).foldl (fun known length ↦
    known.insert (sequence.take (length + 1))) known) (∅ : Std.TreeSet (List Utf8.ByteRange) compareSequences)).size

/-- A set of ASCII characters is read in one state, and any other in as many as the encodings of its members need. -/
def setBytes (direction : Direction) (ranges : Character.RangeTable) : Nat :=
  match ranges with
  | [] => 2 * stateBytes
  | _ =>
    if ranges.all (·.2 < 128) then stateBytes + readingBytes ranges.length
    else
      let sequences := ranges.flatMap Utf8.sequences
      match direction with
      | .forwards =>
        (readers 4 ∅ sequences).foldl (fun bytes state ↦ bytes + readingBytes (groupByHead state).length) stateBytes
      | .backwards => stateBytes + choiceBytes sequences.length + stateBytes * beginnings sequences

/-! ### Literals -/

/-- The bytes of a sequence of single characters. -/
def literal? (r : Regex) : Option (List Nat) :=
  if r = .empty then none
  else r.parts.foldr (fun part text ↦ match part, text with
    | .set chars, some text => match chars.ranges with
      | [(first, last)] => if first = last then some (Utf8.encode first ++ text) else none
      | _ => none
    | _, _ => none) (some [])

/-- The bytes that texts go on with, by their first bytes. -/
private def continuations (texts : List (List Nat)) : List (List (List Nat)) :=
  let heads := (texts.filterMap List.head?).eraseDups
  heads.map fun head ↦ texts.filterMap fun
    | first :: rest => if first = head then some rest else none
    | [] => none

/-- Parts a list of texts behind each empty one. -/
private def splitAtEnds : List (List Nat) → List (List (List Nat))
  | [] => [[]]
  | [] :: rest => [] :: splitAtEnds rest
  | text :: rest =>
    match splitAtEnds rest with
    | [] => [[text]]
    | chunk :: chunks => (text :: chunk) :: chunks

/-- The bytes of a tree that reads one of several texts and prefers the first ones. A text that ends where others go on
splits the texts into those preferred and those not. -/
private def treeBytes : Nat → List (List Nat) → Nat
  | 0, _ => 0
  | bound + 1, texts =>
    if texts.all (·.isEmpty) then 0
    else
      let texts := if texts.head?.any (·.isEmpty) then [] :: texts.dropWhile (·.isEmpty) else texts
      let chunks := splitAtEnds texts
      let reading := (chunks.map continuations).filter (!·.isEmpty)
      let own := choiceBytes (reading.length + (chunks.length - 1))
      reading.foldl (fun bytes heads ↦
        heads.foldl (fun bytes texts ↦ bytes + treeBytes bound texts)
          (bytes + if heads.length = 1 then stateBytes else readingBytes heads.length)) own

private def literalsBytes (direction : Direction) (texts : List (List Nat)) : Nat :=
  let texts := match direction with
    | .forwards => texts
    | .backwards => texts.map List.reverse
  stateBytes + treeBytes ((texts.map List.length).foldl max 0 + 1) texts

/-! ### Expressions -/

/-- The bytes of an optional expression, which is passed over in a state of its own unless it shares one. -/
private def optionBytes (body : Nat) : Nat :=
  choiceBytes 2 + body

/-- The bytes of the states for an expression. An alternative that is itself a branch of one only adds its branches. -/
def automatonBytes (direction : Direction) : Bool → Regex → Nat
  | _, .empty => stateBytes
  | _, .set chars =>
    match chars.ranges with
    | [(first, last)] =>
      if first = last then stateBytes * (Utf8.encode first).length else setBytes direction [(first, last)]
    | ranges => setBytes direction ranges
  | _, .look _ => stateBytes
  | _, .seq a b => automatonBytes direction false a + automatonBytes direction false b
  | isBranch, .alt a b =>
    let bytes := automatonBytes direction true a + automatonBytes direction true b
    if isBranch then bytes
    else
      let branches := Regex.branches (.alt a b)
      match branches.mapM literal? with
      | some texts => literalsBytes direction texts
      | none => bytes + choiceBytes branches.length + stateBytes
  | _, .repeat min max _ body =>
    let bytes := automatonBytes direction false body
    match max with
    | none =>
      if 0 < min then min * bytes + choiceBytes 2
      else if 0 < body.leastLength then optionBytes bytes
      else bytes + 2 * choiceBytes 2 + stateBytes
    | some max =>
      if min = 0 ∧ max = 1 then optionBytes bytes + stateBytes
      else if min = max then min * bytes
      else (if min = 0 then stateBytes else min * bytes) + stateBytes + (max - min) * optionBytes bytes
  | _, .group _ body =>
    (match direction with | .forwards => 2 * stateBytes | .backwards => 0) + automatonBytes direction false body

/-- Whether an expression matches only from the beginning of the text on. -/
def startsText : Regex → Bool
  | .look condition => condition = .textStart
  | .seq a b => a.startsText || (a.consumesNothing && b.startsText)
  | .alt a b => a.startsText && b.startsText
  | .repeat min _ _ body => 0 < min && body.startsText
  | .group _ body => body.startsText
  | _ => false

/-- Whether an expression matches only up to the end of the text. -/
def endsText : Regex → Bool
  | .look condition => condition = .textEnd
  | .seq a b => b.endsText || (b.consumesNothing && a.endsText)
  | .alt a b => a.endsText && b.endsText
  | .repeat min _ _ body => 0 < min && body.endsText
  | .group _ body => body.endsText
  | _ => false

/-- The bytes of the automaton for an expression. It passes over any bytes first, unless a match cannot begin behind
them. -/
def programBytes (direction : Direction) (r : Regex) : Nat :=
  let whole := match direction with
    | .forwards => .group none r
    | .backwards => r
  let anchored := match direction with
    | .forwards => r.startsText
    | .backwards => r.endsText
  let lead := if anchored then stateBytes else optionBytes (stateBytes + readingBytes 1)
  lead + automatonBytes direction false whole + stateBytes

/-- The expression that a text denotes, unless it is malformed or too large. -/
def compile? (limit : Nat) (source : String) : Option Regex := do
  let r ← parse? source.toList
  guard (r.programBytes .forwards ≤ limit ∧ r.programBytes .backwards ≤ limit)
  return r

end PathBinding.Regex
