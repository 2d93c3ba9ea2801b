import PathBinding.Json.Number

/-!
Reading JSON text. Nesting is not limited here; the first argument of the mutual readers bounds the number of nested
calls by the length of the text.
-/

set_option autoImplicit false
set_option relaxedAutoImplicit false

namespace PathBinding.Json

def isBlank (c : Char) : Bool :=
  c == ' ' || c == '\n' || c == '\t' || c == '\r'

def skipBlanks (text : List Char) : List Char :=
  text.dropWhile isBlank

def hexValue? (c : Char) : Option Nat :=
  if c.isDigit then some (c.toNat - '0'.toNat)
  else if 'a' ≤ c ∧ c ≤ 'f' then some (c.toNat - 'a'.toNat + 10)
  else if 'A' ≤ c ∧ c ≤ 'F' then some (c.toNat - 'A'.toNat + 10)
  else none

def readUnit : List Char → Option (Nat × List Char)
  | a :: b :: c :: d :: rest => do
    let a ← hexValue? a
    let b ← hexValue? b
    let c ← hexValue? c
    let d ← hexValue? d
    return (((a * 16 + b) * 16 + c) * 16 + d, rest)
  | _ => none

def simpleEscape? : Char → Option Char
  | '"' => some '"'
  | '\\' => some '\\'
  | '/' => some '/'
  | 'b' => some '\x08'
  | 'f' => some '\x0c'
  | 'n' => some '\n'
  | 'r' => some '\r'
  | 't' => some '\t'
  | _ => none

/-- Reads a string behind its opening quote into UTF-16 units and characters; units come from escapes. -/
def readUnits : Nat → List Char → Option (List (Nat ⊕ Char) × List Char)
  | 0, _ => none
  | _ + 1, [] => none
  | _ + 1, '"' :: rest => some ([], rest)
  | bound + 1, '\\' :: 'u' :: rest => do
    let (unit, rest) ← readUnit rest
    let (units, rest) ← readUnits bound rest
    return (.inl unit :: units, rest)
  | bound + 1, '\\' :: c :: rest => do
    let c ← simpleEscape? c
    let (units, rest) ← readUnits bound rest
    return (.inr c :: units, rest)
  | bound + 1, c :: rest =>
    if c.toNat < 32 ∨ c = '\\' then none
    else do
      let (units, rest) ← readUnits bound rest
      return (.inr c :: units, rest)

def isLead (unit : Nat) : Bool :=
  0xD800 ≤ unit && unit < 0xDC00

def isTrail (unit : Nat) : Bool :=
  0xDC00 ≤ unit && unit < 0xE000

/-- The text of units, unless a surrogate stands alone. -/
def ofUnits? : List (Nat ⊕ Char) → Option (List Char)
  | [] => some []
  | .inr c :: rest => (ofUnits? rest).map (c :: ·)
  | .inl lead :: .inl trail :: rest =>
    if isLead lead then
      if isTrail trail then
        (ofUnits? rest).map (Char.ofNat (0x10000 + (lead - 0xD800) * 0x400 + (trail - 0xDC00)) :: ·)
      else none
    else if isTrail lead then none
    else (ofUnits? (.inl trail :: rest)).map (Char.ofNat lead :: ·)
  | .inl unit :: rest => if isLead unit || isTrail unit then none else (ofUnits? rest).map (Char.ofNat unit :: ·)

def readString (text : List Char) : Option (Option String × List Char) :=
  (readUnits (text.length + 1) text).map fun (units, rest) ↦ ((ofUnits? units).map .ofList, rest)

/-- An object, which denotes nothing if one of its names does not. -/
def ofMembers (members : List (Option String × Json)) : Json :=
  match members.mapM fun (name?, value) ↦ name?.map (·, value) with
  | some members => .obj members
  | none => .unrepresentable

mutual

/-- Reads a value, before which there are no blanks. -/
def readValue : Nat → List Char → Option (Json × List Char)
  | 0, _ => none
  | bound + 1, text =>
    match text with
    | 'n' :: 'u' :: 'l' :: 'l' :: rest => some (.null, rest)
    | 't' :: 'r' :: 'u' :: 'e' :: rest => some (.bool true, rest)
    | 'f' :: 'a' :: 'l' :: 's' :: 'e' :: rest => some (.bool false, rest)
    | '"' :: rest => (readString rest).map fun (text?, rest) ↦ ((text?.map .str).getD .unrepresentable, rest)
    | '-' :: rest => Number.read true rest
    | '[' :: rest =>
      match skipBlanks rest with
      | ']' :: rest => some (.arr [], rest)
      | rest => (readItems bound rest).map fun (items, rest) ↦ (.arr items, rest)
    | '\x7b' :: rest =>
      match skipBlanks rest with
      | '\x7d' :: rest => some (.obj [], rest)
      | rest => (readMembers bound rest).map fun (members, rest) ↦ (ofMembers members, rest)
    | _ => Number.read false text

/-- Reads the items of an array up to its closing bracket. -/
def readItems : Nat → List Char → Option (List Json × List Char)
  | 0, _ => none
  | bound + 1, text => do
    let (item, rest) ← readValue bound text
    match skipBlanks rest with
    | ',' :: rest => (readItems bound (skipBlanks rest)).map fun (items, rest) ↦ (item :: items, rest)
    | ']' :: rest => some ([item], rest)
    | _ => none

/-- Reads the members of an object up to its closing brace. -/
def readMembers : Nat → List Char → Option (List (Option String × Json) × List Char)
  | 0, _ => none
  | bound + 1, text =>
    match text with
    | '"' :: rest => do
      let (name?, rest) ← readString rest
      match skipBlanks rest with
      | ':' :: rest => do
        let (value, rest) ← readValue bound (skipBlanks rest)
        match skipBlanks rest with
        | ',' :: rest => (readMembers bound (skipBlanks rest)).map fun (members, rest) ↦ ((name?, value) :: members, rest)
        | '\x7d' :: rest => some ([(name?, value)], rest)
        | _ => none
      | _ => none
    | _ => none

end

/-- The document that a text holds, with nothing but blanks around it. -/
def read? (text : String) : Option Json :=
  let text := text.toList
  match readValue (text.length + 1) (skipBlanks text) with
  | some (json, rest) => if (skipBlanks rest).isEmpty then some json else none
  | none => none

/-- The tree of values that a text holds. -/
def readValue? (text : String) : Option Json :=
  (read? text).bind value?

end PathBinding.Json
