import PathBinding.Error
import PathBinding.Segment

/-!
Reading a pattern into segments, one character at a time. The state holds the enclosing groups, the sequence read so far
and what the last characters have begun; a colon begins a placeholder only if a word character follows.
-/

set_option autoImplicit false
set_option relaxedAutoImplicit false

namespace PathBinding.Segment

/-- What the characters before the current one have begun. Characters are kept in reverse order. -/
inductive Pending
  | literal (text : List Char)
  | escape (text : List Char)
  | colon (text : List Char) (start : Nat)
  | name (start : Nat) (letters : List Char)
  | regex (start : Nat) (name : String) (letters : List Char)

/-- The state of the reader: the byte offset, the sequences around the innermost open group, the sequence being read
(both in reverse order) and the pending characters. -/
structure Reading where
  offset : Nat
  enclosing : List (List Segment)
  read : List Segment
  pending : Pending

def ofReversed (letters : List Char) : String :=
  .ofList letters.reverse

/-- Ends a literal, which is a segment only if it has characters. -/
def flush (text : List Char) (read : List Segment) : List Segment :=
  if text.isEmpty then read else .literal (ofReversed text) :: read

/-- The placeholder of a name: an all-digit name is a position, which must lie within bounds. -/
def ofName (letters : List Char) : Except PatternFault Segment :=
  if letters.all Char.isDigit then
    match Numeral.readWord letters with
    | .error _ => .error (.unreadableIndex (.ofList letters))
    | .ok index => if 1 ≤ index ∧ index ≤ maxPositional then .ok (.positional index) else .error (.indexOutside index)
  else .ok (.placeholder (.ofList letters) none)

namespace Reading

def start : Reading :=
  ⟨0, [], [], .literal []⟩

/-- Takes a character where a literal, a group or a placeholder may begin. -/
def takePlain (r : Reading) (text : List Char) (c : Char) : Except PatternFault Reading :=
  if c = '\\' then .ok { r with pending := .escape text }
  else if c = '[' then .ok { r with enclosing := flush text r.read :: r.enclosing, read := [], pending := .literal [] }
  else if c = ']' then
    match r.enclosing with
    | [] => .error (.unmatchedClose r.offset)
    | outer :: enclosing =>
      .ok { r with enclosing, read := .optional (flush text r.read).reverse :: outer, pending := .literal [] }
  else if c = ':' then .ok { r with pending := .colon text r.offset }
  else .ok { r with pending := .literal (c :: text) }

def take (r : Reading) (c : Char) : Except PatternFault Reading :=
  match r.pending with
  | .literal text => r.takePlain text c
  | .escape text => .ok { r with pending := .literal (c :: '\\' :: text) }
  | .colon text start =>
    if isWordChar c then .ok { r with read := flush text r.read, pending := .name start [c] }
    else r.takePlain (':' :: text) c
  | .name start letters =>
    if isWordChar c then .ok { r with pending := .name start (c :: letters) }
    else if c = ':' ∧ ¬letters.all Char.isDigit then .ok { r with pending := .regex start (ofReversed letters) [] }
    else do
      let segment ← ofName letters.reverse
      { r with read := segment :: r.read }.takePlain [] c
  | .regex start name letters =>
    if c = ':' then
      if letters.isEmpty then .error (.emptyRegex name)
      else .ok { r with read := .placeholder name (some (ofReversed letters)) :: r.read, pending := .literal [] }
    else .ok { r with pending := .regex start name (c :: letters) }

/-- Takes one more character. -/
def step (r : Reading) (c : Char) : Except PatternFault Reading := do
  let next ← r.take c
  return { next with offset := r.offset + c.utf8Size }

/-- The sequence that has been read when the text ends here. -/
def finish (r : Reading) : Except PatternFault (List Segment) := do
  let read ← match r.pending with
    | .literal text => pure (flush text r.read)
    | .escape _ => throw .danglingEscape
    | .colon text _ => pure (flush (':' :: text) r.read)
    | .name _ letters => (ofName letters.reverse).map (· :: r.read)
    | .regex start name _ => throw (.unterminatedRegex name start)
  if r.enclosing.isEmpty then return read.reverse else throw .unclosedOpen

end Reading

/-- The segments of a text, or its first fault. -/
def read (text : String) : Except PatternFault (List Segment) := do
  let reading ← text.toList.foldlM Reading.step Reading.start
  reading.finish

/-- The segments of a pattern. -/
def parse (pattern : String) : Except Error (List Segment) :=
  match read pattern with
  | .ok segments => .ok segments
  | .error fault => .error (.invalidPattern pattern fault)

end PathBinding.Segment
