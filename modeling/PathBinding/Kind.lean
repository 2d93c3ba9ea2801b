import PathBinding.Error

/-!
The kinds of a parameter. Five kinds have values; any other type name is kept as it is, and a parameter of such a kind
cannot take part in a mapping.
-/

set_option autoImplicit false
set_option relaxedAutoImplicit false

namespace PathBinding

inductive Kind
  | string
  | integer
  | long
  | boolean
  | uuid
  | other (name : String)
  deriving DecidableEq, Repr

namespace Kind

def ofTypeName : String → Kind
  | "String" | "str" => .string
  | "i32" | "Integer" | "int" => .integer
  | "i64" | "Long" | "long" => .long
  | "bool" | "Boolean" | "boolean" => .boolean
  | "Uuid" | "UUID" => .uuid
  | name => .other name

def typeName : Kind → String
  | .string => "String"
  | .integer => "Integer"
  | .long => "Long"
  | .boolean => "Boolean"
  | .uuid => "Uuid"
  | .other name => name

/-- The expression that captures a parameter of the kind when the declaration gives none. A string ends at a slash; the
digits of a number are too few to overflow. -/
def defaultRegex? : Kind → Option String
  | .string => some "[^/]+"
  | .integer => some "-?[0-1]?[0-9]\x7b1,9\x7d"
  | .long => some "-?[0-8]?[0-9]\x7b1,18\x7d"
  | .boolean => some "true|false"
  | .uuid => some "[0-9a-f]\x7b8\x7d-[0-9a-f]\x7b4\x7d-[0-9a-f]\x7b4\x7d-[0-9a-f]\x7b4\x7d-[0-9a-f]\x7b12\x7d"
  | .other _ => none

/-- In a query a string ends at the next pair instead. -/
def queryStringRegex : String := "[^&]+"

def requireDefaultRegex (kind : Kind) (parameter owner : String) : Except Error String :=
  match kind.defaultRegex? with
  | some regex => .ok regex
  | none => .error (.unsupportedType kind.typeName parameter owner)

end Kind

end PathBinding
