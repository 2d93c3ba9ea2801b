import PathBinding.Regex.Basic
import Std.Data.TreeSet

/-!
What a regular expression matches. From a position an expression reaches further positions, in order of preference; of
two ways to reach one position only the preferred one is kept, since what follows depends on the position alone. The
match of a text is the first position reached from the first start that reaches any.

A way never comes back to a place of the expression where it has been at the same position of the text. Only a
repetition leads back, and only if an iteration of it may consume nothing, so the branching places inside such a
repetition are told apart and each way remembers those it passed since the last character.
-/

set_option autoImplicit false
set_option relaxedAutoImplicit false

namespace PathBinding.Regex

/-- A branching place in a repetition that may turn without consuming a character, as the path down to it. Elsewhere
no way can come back to a place, and places have no names. -/
abbrev Place := Option (List Nat)

/-- A part of a place: the kind of the part and its number. -/
def Place.part (place : Place) (kind number : Nat) : Place :=
  place.map (number :: kind :: ·)

/-- Text captured by a group: where it begins and how long it is. -/
structure Capture where
  name : String
  suffix : List Char
  length : Nat
  deriving DecidableEq, Repr

def Capture.text (capture : Capture) : List Char :=
  capture.suffix.take capture.length

/-- A position in the text with the way to it: the captures, the latest first, where the parts begin that are not complete
yet, the innermost first, and the places passed since the last character. -/
structure Thread where
  offset : Nat
  before : Option Char
  rest : List Char
  captures : List Capture
  begun : List (Nat × List Char)
  passed : List (List Nat)
  deriving DecidableEq, Repr

namespace Thread

/-- A way that begins at a position. -/
def start (offset : Nat) (before : Option Char) (rest : List Char) : Thread :=
  ⟨offset, before, rest, [], [], []⟩

/-- The position behind the next character, if the set contains it. -/
def advance? (t : Thread) (chars : CharSet) : Option Thread :=
  match t.rest with
  | [] => none
  | c :: rest =>
    if chars.contains c then some { t with offset := t.offset + 1, before := some c, rest, passed := [] } else none

/-- Begins a part of the way. -/
def mark (t : Thread) : Thread :=
  { t with begun := (t.offset, t.rest) :: t.begun }

/-- Completes the innermost part. -/
def unmark (t : Thread) : Thread :=
  { t with begun := t.begun.tail }

/-- Records under a name the text of the innermost part. -/
def capture (name : String) (t : Thread) : Thread :=
  match t.begun with
  | [] => t
  | (offset, suffix) :: _ => { t with captures := ⟨name, suffix, t.offset - offset⟩ :: t.captures }

/-- Whether the innermost part of a way begins where another way is. -/
def isFrom (source t : Thread) : Bool :=
  t.begun.head?.any (·.1 == source.offset)

/-- The text last captured under a name. -/
def captured? (t : Thread) (name : String) : Option (List Char) :=
  (t.captures.find? (·.name == name)).map Capture.text

/-- The way on through a place, unless it leads back there. -/
def pass? (t : Thread) : Place → Option Thread
  | none => some t
  | some place => if t.passed.contains place then none else some { t with passed := place :: t.passed }

/-- Behind the outermost repetition the places in it do not matter any more. -/
def forgetIn (place : Place) (t : Thread) : Thread :=
  if place.isNone then { t with passed := [] } else t

end Thread

def isWordSide (unicode : Bool) : Option Char → Bool
  | none => false
  | some c => if unicode then Character.wordCharacter.contains c.toNat else c.isAlphanum || c == '_'

def WordEdge.holds (edge : WordEdge) (before after : Bool) : Bool :=
  match edge with
  | .boundary => before != after
  | .inside => before == after
  | .start => !before && after
  | .stop => before && !after
  | .startHalf => !before
  | .stopHalf => !after

def Look.holds (condition : Look) (t : Thread) : Bool :=
  let after := t.rest.head?
  match condition with
  | .textStart => t.before.isNone
  | .textEnd => t.rest.isEmpty
  | .lineStart false => t.before.isNone || t.before == some '\n'
  | .lineStart true => t.before.isNone || t.before == some '\n' || (t.before == some '\r' && after != some '\n')
  | .lineEnd false => t.rest.isEmpty || after == some '\n'
  | .lineEnd true => t.rest.isEmpty || after == some '\r' || (after == some '\n' && t.before != some '\r')
  | .word edge unicode => edge.holds (isWordSide unicode t.before) (isWordSide unicode after)

/-- Threads in order of preference, the first one for each offset. They are kept in reverse. -/
structure Front where
  reversed : List Thread
  offsets : Std.TreeSet Nat
  offsets_contains : ∀ offset, offsets.contains offset = reversed.any (·.offset == offset)

namespace Front

def empty : Front :=
  ⟨[], ∅, fun _ ↦ by simp⟩

def add (front : Front) (t : Thread) : Front :=
  if front.offsets.contains t.offset then front
  else ⟨t :: front.reversed, front.offsets.insert t.offset, fun offset ↦ by
    rw [Std.TreeSet.contains_insert, front.offsets_contains, List.any_cons, Std.compare_beq_eq_beq]⟩

def addAll (front : Front) (threads : List Thread) : Front :=
  threads.foldl add front

def threads (front : Front) : List Thread :=
  front.reversed.reverse

end Front

/-- The first thread for each offset. -/
def distinct (threads : List Thread) : List Thread :=
  (Front.empty.addAll threads).threads

/-- Thread by thread, what is reached from it in one way and then what is reached in another. -/
def sideBySide : List Thread → List Thread → List Thread → List Thread
  | [], _, _ => []
  | source :: sources, first, second =>
    let (a, first) := first.span source.isFrom
    let (b, second) := second.span source.isFrom
    a ++ b ++ sideBySide sources first second

/-- What two ways reach from threads, of which the first is preferred. -/
def prefer (threads : List Thread) (first second : List Thread → List Thread) : List Thread :=
  let marked := threads.map Thread.mark
  distinct ((sideBySide marked (first marked) (second marked)).map Thread.unmark)

/-- A repetition under way: the offsets where an iteration has begun and the threads behind it. -/
structure Turning where
  begun : Std.TreeSet Nat
  front : Front

def Turning.start : Turning := ⟨∅, .empty⟩

def Turning.leave (turning : Turning) (t : Thread) : Turning :=
  { turning with front := turning.front.add t }

def Turning.begin (turning : Turning) (t : Thread) : Turning :=
  { turning with begun := turning.begun.insert t.offset }

/-- At the place behind an iteration: another iteration, unless one has begun here before, or the way on. The bound is
one more than the length of text that is left, as each iteration begins at another offset. -/
def turn (step : Thread → List Thread) (greedy : Bool) (place : Place) : Nat → Turning → Thread → Turning
  | 0, turning, t => turning.leave t
  | bound + 1, turning, t =>
    match t.pass? place with
    | none => turning
    | some t =>
      let again (turning : Turning) : Turning :=
        if turning.begun.contains t.offset then turning
        else (step t).foldl (turn step greedy place bound) (turning.begin t)
      if greedy then (again turning).leave t else again (turning.leave t)

/-- An iteration, unless one has begun here before, with all that comes behind it. -/
def iterate (step : Thread → List Thread) (greedy : Bool) (place : Place) (turning : Turning) (t : Thread) : Turning :=
  if turning.begun.contains t.offset then turning
  else (step t).foldl (turn step greedy place (t.rest.length + 1)) (turning.begin t)

/-- Any number of iterations, with a place in front of the first and a place behind each. -/
def iterateAny (step : Thread → List Thread) (greedy : Bool) (first next : Place) (turning : Turning) (t : Thread) :
    Turning :=
  match t.pass? first with
  | none => turning
  | some t =>
    if greedy then (iterate step greedy next turning t).leave t else iterate step greedy next (turning.leave t) t

/-- At most `count` iterations, where iteration `i` counted from the last has the step `step i` and the place `place i`
in front of it. -/
def upTo (step : Nat → List Thread → List Thread) (greedy : Bool) (place : Nat → Place) :
    Nat → List Thread → List Thread
  | 0, threads => threads
  | _ + 1, [] => []
  | count + 1, threads =>
    let passing := threads.filterMap (·.pass? (place count))
    let again (threads : List Thread) : List Thread := upTo step greedy place count (step count threads)
    if greedy then prefer passing again id else prefer passing id again

/-- The threads behind a repetition without an end, to whose state each thread in front of it adds. Where places have no
names, what one thread has reached is not looked for again; where they have, each thread remembers places of its own. -/
def behind (place : Place) (take : Turning → Thread → Turning) (threads : List Thread) : List Thread :=
  match place with
  | none => (threads.foldl take .start).front.threads
  | some _ => distinct (threads.flatMap fun t ↦ (take .start t).front.threads)

/-- Iterations that all take part, each with a step of its own. -/
def inTurn (steps : List (List Thread → List Thread)) (threads : List Thread) : List Thread :=
  steps.foldl (fun threads step ↦ step threads) threads

/-- The threads that an expression at a place reaches from threads at offsets of their own. All are in order of
preference: what is reached from one thread comes before what is reached from the next, and at each offset the first
thread is kept. -/
def run : Place → Regex → List Thread → List Thread
  | _, .empty, threads => threads
  | _, .set chars, threads => threads.filterMap (·.advance? chars)
  | _, .look condition, threads => threads.filter condition.holds
  | place, .seq a b, threads => run (place.part 0 1) b (run (place.part 0 0) a threads)
  | place, .alt a b, threads =>
    prefer (threads.filterMap (·.pass? place)) (run (place.part 0 0) a) (run (place.part 0 1) b)
  | place, .group none body, threads => run place body threads
  | place, .group (some name) body, threads =>
    (run place body (threads.map Thread.mark)).map fun t ↦ (t.capture name).unmark
  | place, .repeat min (some max) greedy body, threads =>
    let required := (List.range min).map fun i ↦ run (place.part 0 i) body
    let step (i : Nat) : List Thread → List Thread := run (place.part 1 i) body
    upTo step greedy (place.part 2) (max - min) (inTurn required threads)
  | place, .repeat min none greedy body, threads =>
    let within : Place := if place.isNone ∧ body.leastLength = 0 then some [] else place
    let required := (List.range (min - 1)).map fun i ↦ run (within.part 0 i) body
    let step (t : Thread) : List Thread := run (within.part 1 0) body [t]
    let first := if body.leastLength = 0 then within.part 2 1 else within.part 2 0
    let next := within.part 2 0
    let take := if min = 0 then iterateAny step greedy first next else iterate step greedy next
    (behind within take (inTurn required threads)).map (Thread.forgetIn place)

/-- The preferred match that begins at this position or, failing that, at the next one where there is a match. -/
def searchFrom (r : Regex) (offset : Nat) (before : Option Char) : List Char → Option Thread
  | [] => (run none r [.start offset before []]).head?
  | c :: rest =>
    (run none r [.start offset before (c :: rest)]).head?.orElse fun _ ↦ searchFrom r (offset + 1) (some c) rest

/-- The first match in a text. -/
def search (r : Regex) (text : List Char) : Option Thread :=
  searchFrom r 0 none text

end PathBinding.Regex
