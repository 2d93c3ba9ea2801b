/-!
JSON documents. Numbers are integers of 64 bits or just fractional, since nothing here reads a fraction. A literal that is
well formed but denotes nothing, such as a number beyond all range, stays in the document as `unrepresentable`: it does
no harm where the document is skipped.
-/

set_option autoImplicit false
set_option relaxedAutoImplicit false

namespace PathBinding

inductive Json
  | null
  | bool (truth : Bool)
  | int (number : Int)
  | fraction
  | unrepresentable
  | str (text : String)
  | arr (items : List Json)
  | obj (members : List (String × Json))
  deriving Repr, Inhabited

namespace Json

/-- The last member of a name. -/
def get? (json : Json) (name : String) : Option Json :=
  match json with
  | .obj members => members.reverse.lookup name
  | _ => none

mutual

/-- The number of arrays and objects around the deepest part. -/
def depth : Json → Nat
  | .arr items => depthAll items + 1
  | .obj members => depthMembers members + 1
  | _ => 0

def depthAll : List Json → Nat
  | [] => 0
  | item :: rest => max (depth item) (depthAll rest)

def depthMembers : List (String × Json) → Nat
  | [] => 0
  | (_, value) :: rest => max (depth value) (depthMembers rest)

end

mutual

/-- Whether every literal denotes something. -/
def representable : Json → Bool
  | .unrepresentable => false
  | .arr items => representableAll items
  | .obj members => representableMembers members
  | _ => true

def representableAll : List Json → Bool
  | [] => true
  | item :: rest => representable item && representableAll rest

def representableMembers : List (String × Json) → Bool
  | [] => true
  | (_, value) :: rest => representable value && representableMembers rest

end

/-- Keeps the last of the members of one name, in the place of the first. -/
def lastWins (members : List (String × Json)) : List (String × Json) :=
  members.foldl (fun kept (name, value) ↦
    if kept.any (·.1 == name) then kept.map fun m ↦ if m.1 == name then (name, value) else m
    else kept ++ [(name, value)]) []

mutual

/-- The document as a tree of values, in which the members of an object have names of their own. -/
def collapse : Json → Json
  | .arr items => .arr (collapseAll items)
  | .obj members => .obj (lastWins (collapseMembers members))
  | json => json

def collapseAll : List Json → List Json
  | [] => []
  | item :: rest => collapse item :: collapseAll rest

def collapseMembers : List (String × Json) → List (String × Json)
  | [] => []
  | (name, value) :: rest => (name, collapse value) :: collapseMembers rest

end

/-- How deep a document may be nested to be read as a tree of values. -/
def depthLimit : Nat := 127

/-- The document as a tree of values, if it can be one. -/
def value? (json : Json) : Option Json :=
  if json.representable && json.depth ≤ depthLimit then some json.collapse else none

end Json

end PathBinding
