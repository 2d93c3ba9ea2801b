import PathBinding.Declaration
import PathBinding.Json
import PathBinding.Value

/-!
The JSON forms of values, kinds, policies and declarations. A record is an object, in which unknown members do not matter
and a known one must not occur twice, or the array of its fields in order; fields with a default may be left out. A case
is its tag, or an object whose only member is the tag with its content.
-/

set_option autoImplicit false
set_option relaxedAutoImplicit false

namespace PathBinding

namespace Json

def string? : Json → Option String
  | .str text => some text
  | _ => none

def bool? : Json → Option Bool
  | .bool truth => some truth
  | _ => none

/-- A number from zero to the largest of 64 bits. -/
def word? : Json → Option Nat
  | .int number => if 0 ≤ number ∧ number < Int.pow 2 64 then some number.toNat else none
  | _ => none

def list? {α : Type} (decode : Json → Option α) : Json → Option (List α)
  | .arr items => items.mapM decode
  | _ => none

/-- Null, or something. -/
def option? {α : Type} (decode : Json → Option α) : Json → Option (Option α)
  | .null => some none
  | json => (decode json).map some

/-- The fields of a record by name, absent ones as `none`. -/
def fields? (names : List String) : Json → Option (List (Option Json))
  | .obj members =>
    let found := names.map fun name ↦ (members.filter (·.1 == name)).map (·.2)
    if found.all (·.length ≤ 1) then some (found.map List.head?) else none
  | .arr items =>
    if items.length ≤ names.length then
      some (items.map some ++ List.replicate (names.length - items.length) none)
    else none
  | _ => none

/-- The content of a required field. -/
def required? {α : Type} (decode : Json → Option α) (field : Option Json) : Option α :=
  field.bind decode

/-- The content of a field that may be left out. -/
def optional? {α : Type} (default : α) (decode : Json → Option α) : Option Json → Option α
  | none => some default
  | some json => decode json

/-- The tag of a case and its content; a tag alone has none. -/
def case? : Json → Option (String × Option Json)
  | .str tag => some (tag, none)
  | .obj [(tag, content)] => some (tag, some content)
  | _ => none

/-- Whether a case without content has none. -/
def isBare : Option Json → Bool
  | none | some .null => true
  | some _ => false

def ofOption {α : Type} (encode : α → Json) : Option α → Json
  | none => .null
  | some x => encode x

end Json

namespace Kind

def toJson : Kind → Json
  | .string => .str "string"
  | .integer => .str "integer"
  | .long => .str "long"
  | .boolean => .str "boolean"
  | .uuid => .str "uuid"
  | .other name => .obj [("other", .str name)]

def ofJson? (json : Json) : Option Kind := do
  let (tag, content) ← json.case?
  match tag with
  | "string" => if Json.isBare content then some .string else none
  | "integer" => if Json.isBare content then some .integer else none
  | "long" => if Json.isBare content then some .long else none
  | "boolean" => if Json.isBare content then some .boolean else none
  | "uuid" => if Json.isBare content then some .uuid else none
  | "other" => (content.bind Json.string?).map .other
  | _ => none

end Kind

namespace Value

def toJson : Value → Json
  | .string text => .str text
  | .integer number => .int number.toInt
  | .long number => .int number.toInt
  | .boolean truth => .bool truth
  | .uuid id => .str id.hyphenated

/-- The first kind that fits: every text is a string, and a number is long only if it must be. -/
def ofJson? : Json → Option Value
  | .str text => some (.string text)
  | .int number =>
    if -Int.pow 2 31 ≤ number ∧ number < Int.pow 2 31 then some (.integer (.ofInt number))
    else if -Int.pow 2 63 ≤ number ∧ number < Int.pow 2 63 then some (.long (.ofInt number))
    else none
  | .bool truth => some (.boolean truth)
  | _ => none

end Value

namespace NoMatchPolicy

def toJson : NoMatchPolicy → Json
  | .ignore => .str "ignore"
  | .rerouteToError kind => .obj [("reroute_to_error", .str kind)]
  | .rerouteToView kind => .obj [("reroute_to_view", .str kind)]

def ofJson? (json : Json) : Option NoMatchPolicy := do
  let (tag, content) ← json.case?
  match tag with
  | "ignore" => if Json.isBare content then some .ignore else none
  | "reroute_to_error" => (content.bind Json.string?).map .rerouteToError
  | "reroute_to_view" => (content.bind Json.string?).map .rerouteToView
  | _ => none

end NoMatchPolicy

namespace SelectionPolicy

def toJson : SelectionPolicy → Json
  | .declarationOrder => .str "declaration_order"
  | .mostCaptured => .str "most_captured"

def ofJson? (json : Json) : Option SelectionPolicy := do
  let (tag, content) ← json.case?
  match tag with
  | "declaration_order" => if Json.isBare content then some .declarationOrder else none
  | "most_captured" => if Json.isBare content then some .mostCaptured else none
  | _ => none

end SelectionPolicy

namespace Descriptor

def toJson (descriptor : Descriptor) : Json :=
  .obj [("name", .str descriptor.name), ("kind", descriptor.kind.toJson),
    ("regex", Json.ofOption .str descriptor.regex), ("dynamic", .bool descriptor.dynamic)]

def ofJson? (json : Json) : Option Descriptor := do
  let [name, kind, regex, dynamic] ← json.fields? ["name", "kind", "regex", "dynamic"] | none
  let name ← Json.required? Json.string? name
  let kind ← Json.required? Kind.ofJson? kind
  let regex ← Json.optional? none (Json.option? Json.string?) regex
  let dynamic ← Json.optional? false Json.bool? dynamic
  return { name, kind, regex, dynamic }

end Descriptor

namespace PatternDeclaration

def toJson (pattern : PatternDeclaration) : Json :=
  .obj [("pattern", .str pattern.pattern), ("query", .arr (pattern.query.map .str))]

def ofJson? (json : Json) : Option PatternDeclaration := do
  let [pattern, query] ← json.fields? ["pattern", "query"] | none
  let pattern ← Json.required? Json.string? pattern
  let query ← Json.optional? [] (Json.list? Json.string?) query
  return { pattern, query }

end PatternDeclaration

namespace Declaration

def toJson (declaration : Declaration) : Json :=
  .obj [("owner", .str declaration.owner), ("parameters", .arr (declaration.parameters.map Descriptor.toJson)),
    ("patterns", .arr (declaration.patterns.map PatternDeclaration.toJson)),
    ("no_match", Json.ofOption NoMatchPolicy.toJson declaration.noMatch)]

def ofJson? (json : Json) : Option Declaration := do
  let [owner, parameters, patterns, noMatch] ← json.fields? ["owner", "parameters", "patterns", "no_match"] | none
  let owner ← Json.required? Json.string? owner
  let parameters ← Json.optional? [] (Json.list? Descriptor.ofJson?) parameters
  let patterns ← Json.optional? [] (Json.list? PatternDeclaration.ofJson?) patterns
  let noMatch ← Json.optional? none (Json.option? NoMatchPolicy.ofJson?) noMatch
  return { owner, parameters, patterns, noMatch }

end Declaration

end PathBinding
