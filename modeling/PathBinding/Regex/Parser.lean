import PathBinding.Regex.Token

/-!
Putting tokens together to an expression. The reader keeps a stack of open groups; a group ends the flags switched in it,
no two groups share a name, and expressions nested deeper than a limit are refused.
-/

set_option autoImplicit false
set_option relaxedAutoImplicit false

namespace PathBinding.Regex

/-- A part of a sequence with the depth it is written with. A switch of flags is a part that cannot be repeated. -/
structure Part where
  regex : Regex
  height : Nat
  repeatable : Bool

/-- A sequence of alternatives being read, all in reverse. -/
structure Level where
  alternatives : List Part
  parts : List Part

namespace Level

def empty : Level := ⟨[], []⟩

/-- The depth of several parts in a row, which count as one more than a part alone. -/
def heightOf : List Part → Nat
  | [] => 0
  | [part] => part.height
  | parts => (parts.map (·.height)).foldl max 0 + 1

/-- The sequence read since the last bar. -/
def sequence (level : Level) : Part :=
  ⟨.sequence (level.parts.reverse.map (·.regex)), heightOf level.parts, true⟩

def push (level : Level) (part : Part) : Level :=
  { level with parts := part :: level.parts }

def bar (level : Level) : Level :=
  ⟨level.sequence :: level.alternatives, []⟩

/-- The whole level. -/
def close (level : Level) : Part :=
  let branches := (level.sequence :: level.alternatives).reverse
  ⟨.alternation (branches.map (·.regex)), heightOf branches, true⟩

end Level

/-- What a pair of parentheses does besides holding parts together. -/
inductive Grouping
  | plain
  | capturing (name : Option String)

def Grouping.around : Grouping → Regex → Regex
  | .plain, r => r
  | .capturing name, r => .group name r

/-- An open group, the flags outside it and the level it stands in. -/
structure Enclosing where
  grouping : Grouping
  flags : Flags
  level : Level

structure Parsing where
  flags : Flags
  names : List String
  enclosing : List Enclosing
  level : Level

namespace Parsing

def start : Parsing :=
  ⟨{}, [], [], .empty⟩

def enter (p : Parsing) (grouping : Grouping) (flags : Flags) : Parsing :=
  { p with flags, enclosing := ⟨grouping, p.flags, p.level⟩ :: p.enclosing, level := .empty }

def leave (p : Parsing) : Option Parsing :=
  match p.enclosing with
  | [] => none
  | outer :: enclosing =>
    let inner := p.level.close
    let part : Part := ⟨outer.grouping.around inner.regex, inner.height + 1, true⟩
    some { p with flags := outer.flags, enclosing, level := outer.level.push part }

def repeatLast (p : Parsing) (min : Nat) (max : Option Nat) (greedy : Bool) : Option Parsing :=
  match p.level.parts with
  | [] => none
  | part :: parts =>
    if part.repeatable then
      let repeated := Regex.repetition min max (greedy != p.flags.swapGreed) part.regex
      some { p with level := { p.level with parts := ⟨repeated, part.height + 1, true⟩ :: parts } }
    else none

/-- Takes a token. -/
def take (p : Parsing) : Token → Option Parsing
  | .atom regex height => some { p with level := p.level.push ⟨regex, height, true⟩ }
  | .repeat min max greedy => p.repeatLast min max greedy
  | .bar => some { p with level := p.level.bar }
  | .close => p.leave
  | .group none => some (p.enter (.capturing none) p.flags)
  | .group (some name) =>
    if name ∈ p.names then none else some { p.enter (.capturing name) p.flags with names := name :: p.names }
  | .scope changes => some (p.enter .plain (p.flags.apply changes))
  | .switch changes => some { p with flags := p.flags.apply changes, level := p.level.push ⟨.empty, 0, false⟩ }

/-- Takes the tokens of a text. The first argument bounds their number. -/
def takeAll : Nat → Parsing → List Char → Option Parsing
  | bound, p, text =>
    match skipBlanks p.flags.verbose text with
    | [] => some p
    | c :: rest =>
      match bound with
      | 0 => none
      | bound + 1 => do
        let (token, rest) ← Token.read p.flags c rest
        let next ← p.take token
        takeAll bound next rest

end Parsing

/-- How deep an expression may be nested. -/
def nestLimit : Nat := 250

/-- The expression that a text denotes. -/
def parse? (source : List Char) : Option Regex := do
  let parsing ← Parsing.start.takeAll source.length source
  guard parsing.enclosing.isEmpty
  let whole := parsing.level.close
  guard (whole.height ≤ nestLimit)
  return whole.regex

end PathBinding.Regex
