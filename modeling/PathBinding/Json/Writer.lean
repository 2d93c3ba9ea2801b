import PathBinding.Json

/-!
Writing JSON text without blanks. Quotes, backslashes and control characters are escaped, the common ones by a letter.
-/

set_option autoImplicit false
set_option relaxedAutoImplicit false

namespace PathBinding.Json

def hexDigit (n : Nat) : Char :=
  if n < 10 then Char.ofNat ('0'.toNat + n) else Char.ofNat ('a'.toNat + n - 10)

def escapeChar (c : Char) : List Char :=
  if c = '"' then ['\\', '"']
  else if c = '\\' then ['\\', '\\']
  else if c = '\x08' then ['\\', 'b']
  else if c = '\x0c' then ['\\', 'f']
  else if c = '\n' then ['\\', 'n']
  else if c = '\r' then ['\\', 'r']
  else if c = '\t' then ['\\', 't']
  else if c.toNat < 32 then ['\\', 'u', '0', '0', hexDigit (c.toNat / 16), hexDigit (c.toNat % 16)]
  else [c]

/-- A string literal. -/
def quote (text : String) : List Char :=
  '"' :: text.toList.flatMap escapeChar ++ ['"']

mutual

def writeChars : Json → List Char
  | .null => "null".toList
  | .bool true => "true".toList
  | .bool false => "false".toList
  | .int number => (toString number).toList
  | .fraction | .unrepresentable => "null".toList
  | .str text => quote text
  | .arr items => '[' :: writeItems items ++ [']']
  | .obj members => '\x7b' :: writeMembers members ++ ['\x7d']

def writeItems : List Json → List Char
  | [] => []
  | [item] => writeChars item
  | item :: rest => writeChars item ++ ',' :: writeItems rest

def writeMembers : List (String × Json) → List Char
  | [] => []
  | [(name, value)] => quote name ++ ':' :: writeChars value
  | (name, value) :: rest => quote name ++ ':' :: writeChars value ++ ',' :: writeMembers rest

end

/-- The text of a document. A fraction has no text of its own and is written as null. -/
def write (json : Json) : String :=
  .ofList (writeChars json)

end PathBinding.Json
