import PathBinding.Json
import PathBinding.Toml.Moment

/-!
Values of TOML documents, and the JSON values that stand for them: moments become text, and a float that is no finite
number becomes null. A moment may also be given in quotes, as the first member of a table.
-/

set_option autoImplicit false
set_option relaxedAutoImplicit false

namespace PathBinding

inductive Toml
  | string (content : String)
  | integer (number : Int)
  | float (finite : Bool)
  | boolean (truth : Bool)
  | moment (point : Toml.Moment)
  | array (items : List Toml)
  | table (members : List (String × Toml))

namespace Toml

/-- The key of a moment in quotes. -/
def momentKey : String := "$__toml_private_datetime"

mutual

/-- Puts moments in the place of the tables that begin with their key; the other members of such a table do not count. -/
def resolve? : Toml → Option Toml
  | .array items => (resolveItems items).map .array
  | .table [] => some (.table [])
  | .table ((name, value) :: rest) =>
    if name = momentKey then
      match value with
      | .string content => (Moment.ofQuoted? content).map .moment
      | _ => none
    else do
      let value ← resolve? value
      let rest ← resolveMembers rest
      return .table ((name, value) :: rest)
  | value => some value

def resolveItems : List Toml → Option (List Toml)
  | [] => some []
  | item :: rest => do return (← resolve? item) :: (← resolveItems rest)

def resolveMembers : List (String × Toml) → Option (List (String × Toml))
  | [] => some []
  | (name, value) :: rest => do return (name, ← resolve? value) :: (← resolveMembers rest)

end

mutual

def toJson : Toml → Json
  | .string content => .str content
  | .integer number => .int number
  | .float finite => if finite then .fraction else .null
  | .boolean truth => .bool truth
  | .moment point => .str point.render
  | .array items => .arr (itemsToJson items)
  | .table members => .obj (membersToJson members)

def itemsToJson : List Toml → List Json
  | [] => []
  | item :: rest => toJson item :: itemsToJson rest

def membersToJson : List (String × Toml) → List (String × Json)
  | [] => []
  | (name, value) :: rest => (name, toJson value) :: membersToJson rest

end

end Toml

end PathBinding
