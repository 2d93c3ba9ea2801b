import PathBinding.Character.Name
import PathBinding.Regex.Bracket

/-!
The tokens of regular expression text. Which flags are set decides what an atom means, so atoms are complete expressions
here; repetitions, groups and alternatives are left to be put together.
-/

set_option autoImplicit false
set_option relaxedAutoImplicit false

namespace PathBinding.Regex

inductive Token
  | atom (regex : Regex) (height : Nat)
  | repeat (min : Nat) (max : Option Nat) (greedy : Bool)
  | bar
  | close
  | group (name : Option String)
  | scope (changes : FlagChanges)
  | switch (changes : FlagChanges)

namespace Token

/-- A literal, which case folding turns into a set. A byte beyond ASCII is no text. -/
def literal? (flags : Flags) (c : Char) (byte : Bool) : Option Regex :=
  if flags.unicode then some (.set (foldIf flags (.single c)))
  else if byte && c.toNat ≥ 128 then none
  else if c.isAlpha then some (.set (.bytes (foldIf flags (.single c))))
  else some (.set (.single c))

def dot? (flags : Flags) : Option Regex :=
  if !flags.unicode then none
  else if flags.dotAll then some (.set (.table Character.RangeTable.everything))
  else if flags.crlf then some (.set (.compl (.ofRanges [('\r', '\r'), ('\n', '\n')])))
  else some (.set (.compl (.single '\n')))

def caret (flags : Flags) : Regex :=
  .look (if flags.multiLine then .lineStart flags.crlf else .textStart)

def dollar (flags : Flags) : Regex :=
  .look (if flags.multiLine then .lineEnd flags.crlf else .textEnd)

def ofPrimitive? (flags : Flags) : Primitive → Option Regex
  | .literal c byte => literal? flags c byte
  | .set chars => some (.set (markIf flags chars))
  | .look condition => some (.look condition)

/-- A question mark behind a repetition makes it reluctant. -/
def laziness (text : List Char) : Bool × List Char :=
  match text with
  | '?' :: rest => (false, rest)
  | _ => (true, text)

def simpleRepeat (min : Nat) (max : Option Nat) (rest : List Char) : Token × List Char :=
  let (greedy, rest) := laziness rest
  (.repeat min max greedy, rest)

/-- What bounds a counted repetition above, behind its lower bound. -/
def upperCount (verbose : Bool) (min : Nat) (text : List Char) : Option (Option Nat × List Char) :=
  match text with
  | ',' :: rest =>
    match skipBlanks verbose rest with
    | '\x7d' :: rest => some (none, rest)
    | rest => do
      let (max, rest) ← readCount verbose rest
      match rest with
      | '\x7d' :: rest => some (some max, rest)
      | _ => none
  | '\x7d' :: rest => some (some min, rest)
  | _ => none

def countedRepeat (verbose : Bool) (text : List Char) : Option (Token × List Char) := do
  let (min, rest) ← readCount verbose (skipBlanks verbose text)
  let (max, rest) ← upperCount verbose min rest
  guard (max.all (min ≤ ·))
  let (greedy, rest) := laziness (skipBlanks verbose rest)
  return (.repeat min max greedy, rest)

def isNameStart (c : Char) : Bool :=
  c == '_' || c.isAlpha || Character.nameLetter.contains c.toNat

def isNameChar (c : Char) : Bool :=
  c.isDigit || isNameStart c || c == '.' || c == '[' || c == ']' || Character.nameNumber.contains c.toNat

def groupName (text : List Char) : Option (Token × List Char) :=
  match text.span (· != '>') with
  | (first :: letters, '>' :: rest) =>
    if isNameStart first && letters.all isNameChar then some (.group (some (.ofList (first :: letters))), rest)
    else none
  | _ => none

/-- A group with flags of its own, or flags alone, which hold to the end of the group around them. -/
def flagGroup (text : List Char) : Option (Token × List Char) := do
  let (changes, colon, rest) ← FlagChanges.read [] false false text
  if colon then return (.scope changes, rest)
  guard (!changes.isEmpty)
  return (.switch changes, rest)

def openGroup (text : List Char) : Option (Token × List Char) :=
  match text with
  | '?' :: '=' :: _ | '?' :: '!' :: _ | '?' :: '<' :: '=' :: _ | '?' :: '<' :: '!' :: _ => none
  | '?' :: 'P' :: '<' :: rest | '?' :: '<' :: rest => groupName rest
  | '?' :: rest => flagGroup rest
  | _ => some (.group none, text)

/-- The token that begins with a character. -/
def read (flags : Flags) (c : Char) (rest : List Char) : Option (Token × List Char) :=
  match c with
  | '(' => openGroup (skipBlanks flags.verbose rest)
  | ')' => some (.close, rest)
  | '|' => some (.bar, rest)
  | '[' => (Bracket.read flags rest).map fun (item, rest) ↦ (.atom (.set (markIf flags item.chars)) item.height, rest)
  | '?' => some (simpleRepeat 0 (some 1) rest)
  | '*' => some (simpleRepeat 0 none rest)
  | '+' => some (simpleRepeat 1 none rest)
  | '\x7b' => countedRepeat flags.verbose rest
  | '.' => (dot? flags).map fun r ↦ (.atom r 0, rest)
  | '^' => some (.atom (caret flags) 0, rest)
  | '$' => some (.atom (dollar flags) 0, rest)
  | '\\' => do
    let (primitive, rest) ← readEscape flags rest
    let r ← ofPrimitive? flags primitive
    return (.atom r 0, rest)
  | c => (literal? flags c false).map fun r ↦ (.atom r 0, rest)

end Token

end PathBinding.Regex
