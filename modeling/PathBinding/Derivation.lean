import PathBinding.Derivation.Generics
import PathBinding.Derivation.Options

/-!
Bindings derived from annotated structures. A structure that is at fault gets complaints instead: faults of its own
annotations or its shape stop everything else, while all other faults are collected field by field.
-/

set_option autoImplicit false
set_option relaxedAutoImplicit false

namespace PathBinding

namespace Derivation

inductive Shape
  | named
  | tuple
  | unit
  | enumeration
  deriving DecidableEq, Repr

/-- A field with its type as text, the items that declare it a parameter, and whether it records the matched pattern. -/
structure Field where
  name : String
  type : String
  parameter? : Option (List Item) := none
  matched : Bool := false

structure Structure where
  name : String
  shape : Shape := .named
  items : List Item := []
  fields : List Field := []
  generics : String := ""
  conditions : String := ""

inductive Complaint
  | malformed
  | parameterType
  | matchedType
  | matchedTwice
  | policyConflict
  deriving DecidableEq, Repr

/-- The text of a complaint, of which that about a malformed annotation is elided. -/
def Complaint.message : Complaint → String
  | .malformed => "..."
  | .parameterType => "#[url_parameter] requires an Option<T> field"
  | .matchedType => "#[url_matched_pattern] requires an Option<String> field"
  | .matchedTwice => "only one #[url_matched_pattern] field is allowed"
  | .policyConflict => "reroute_error, reroute_view and ignore_if_not_matched are mutually exclusive"

/-- A parameter that a field declares. -/
structure Parameter where
  name : String
  type : String
  regex : Option String
  dynamic : Bool
  field : String
  deriving DecidableEq, Repr

/-- A binding in terms of the structure that it was derived from. -/
structure Derived where
  cratePath : String
  target : String
  generics : String
  conditions? : Option String
  owner : String
  parameters : List Parameter
  patterns : List PatternDeclaration
  noMatch : Option NoMatchPolicy
  matched? : Option String
  deriving DecidableEq, Repr

/-- The crate that a binding refers to if the structure names none. -/
def defaultCrate : String := "::urlmap_routing"

/-- The type of a field, of which nothing is known if it cannot be read. -/
def Field.typeText (field : Field) : TypeText :=
  (TypeText.ofText? field.type).getD ⟨[], none⟩

/-- The parameter that a field declares, or the complaints about it. -/
def Field.parameter (field : Field) (items : List Item) : Except (List Complaint) Parameter :=
  let (options, faults) := ParameterOptions.read items
  if faults = 0 then
    match field.typeText.optionArgument? with
    | some type => .ok ⟨options.name?.getD field.name, type.spell, options.regex?, options.dynamic, field.name⟩
    | none => .error [.parameterType]
  else .error (List.replicate faults .malformed)

/-- What the fields of a structure amount to. -/
structure Findings where
  parameters : List Parameter := []
  matched? : Option String := none
  complaints : List Complaint := []

namespace Findings

def addParameter (found : Findings) (field : Field) : Findings :=
  match field.parameter?.map field.parameter with
  | none => found
  | some (.ok parameter) => { found with parameters := found.parameters ++ [parameter] }
  | some (.error complaints) => { found with complaints := found.complaints ++ complaints }

def complain (found : Findings) (complaint : Complaint) : Findings :=
  { found with complaints := found.complaints ++ [complaint] }

def addMatched (found : Findings) (field : Field) : Findings :=
  if !field.matched then found
  else if !field.typeText.isOptionOf "String" then found.complain .matchedType
  else if found.matched?.isSome then found.complain .matchedTwice
  else { found with matched? := some field.name }

def addField (found : Findings) (field : Field) : Findings :=
  (found.addParameter field).addMatched field

end Findings

/-- The policy that options name, of which there may be one at most. -/
def MappingOptions.policy (options : MappingOptions) : Except Complaint (Option NoMatchPolicy) :=
  match options.rerouteError?, options.rerouteView?, options.ignores with
  | none, none, false => .ok none
  | some kind, none, false => .ok (some (.rerouteToError kind))
  | none, some kind, false => .ok (some (.rerouteToView kind))
  | none, none, true => .ok (some .ignore)
  | _, _, _ => .error .policyConflict

/-- The complaints about options alone. -/
def MappingOptions.conflicts (options : MappingOptions) : List Complaint :=
  match options.policy with
  | .ok _ => []
  | .error complaint => [complaint]

def Structure.findings (source : Structure) : Findings :=
  source.fields.foldl Findings.addField {}

private def tokensOf (text : String) : List Token :=
  (Token.ofText? text).getD []

/-- The binding of a structure, or everything that is wrong with it. -/
def Structure.derive (source : Structure) : Except (List Complaint) Derived :=
  let (options, faults) := MappingOptions.read source.items
  let faults := faults + if source.shape = .named then 0 else 1
  if faults = 0 then
    let found := source.findings
    let complaints := found.complaints ++ options.conflicts
    if complaints.isEmpty then
      let generics := GenericParameter.ofTokens (tokensOf source.generics)
      .ok {
        cratePath := options.cratePath?.getD defaultCrate
        target := source.name ++ GenericParameter.spellList (fun p ↦ [p.name]) generics
        generics := GenericParameter.spellList (·.bounded) generics
        conditions? := conditionClause? (tokensOf source.conditions)
        owner := options.owner?.getD source.name
        parameters := found.parameters
        patterns := options.patterns
        noMatch := options.policy.toOption.join
        matched? := found.matched? }
    else .error complaints
  else .error (List.replicate faults .malformed)

end Derivation

end PathBinding
