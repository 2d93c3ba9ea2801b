/-!
Patterns and templates as trees. A text is a sequence of literals, named placeholders with an optional expression of
their own, positional placeholders and optional groups; a literal keeps the backslashes of its escapes.
-/

set_option autoImplicit false
set_option relaxedAutoImplicit false

namespace PathBinding

inductive Segment
  | literal (text : String)
  | placeholder (name : String) (regex : Option String)
  | positional (index : Nat)
  | optional (inner : List Segment)
  deriving Repr

namespace Segment

/-- Characters that may occur in the name of a placeholder. -/
def isWordChar (c : Char) : Bool :=
  c.isAlphanum || c == '_'

mutual

/-- The text of a segment. -/
def print : Segment → String
  | .literal text => text
  | .placeholder name none => ":" ++ name
  | .placeholder name (some regex) => ":" ++ name ++ ":" ++ regex ++ ":"
  | .positional index => ":" ++ toString index
  | .optional inner => "[" ++ printAll inner ++ "]"

/-- The text of a sequence of segments. -/
def printAll : List Segment → String
  | [] => ""
  | segment :: rest => print segment ++ printAll rest

end

mutual

/-- The named placeholders of a segment from left to right, with their own expressions. -/
def placeholders : Segment → List (String × Option String)
  | .literal _ => []
  | .placeholder name regex => [(name, regex)]
  | .positional _ => []
  | .optional inner => placeholdersAll inner

def placeholdersAll : List Segment → List (String × Option String)
  | [] => []
  | segment :: rest => placeholders segment ++ placeholdersAll rest

end

def unescapeChars : List Char → List Char
  | [] => []
  | ['\\'] => []
  | '\\' :: c :: rest => c :: unescapeChars rest
  | c :: rest => c :: unescapeChars rest

/-- Literal text without the backslashes of its escapes. A backslash at the very end stands for nothing. -/
def unescape (text : String) : String :=
  .ofList (unescapeChars text.toList)

end Segment

end PathBinding
