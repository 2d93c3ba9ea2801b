import PathBinding.Derivation
import PathBinding.Session

/-!
Values of a structure with a derived binding, and the accessors that are derived for them. The first parameter of a name
decides which field an access reaches and which kind of values it takes. A field may be kept for the matched pattern;
without one the pattern is not recorded. The field of a parameter may be kept for the pattern as well, and then what is
written to one is written to the other. Each type of fields is taken to have a kind and to hold the values of this kind as
they are, so what is read from a field is what has been written to it.
-/

set_option autoImplicit false
set_option relaxedAutoImplicit false

namespace PathBinding.Derivation

/-- What a field holds: a value or none in a field of an optional type, or anything else in another field. -/
inductive Content (α : Type)
  | slot (value? : Option Value)
  | other (content : α)
  deriving DecidableEq, Repr

namespace Content

variable {α : Type}

def value? : Content α → Option Value
  | .slot value? => value?
  | .other _ => none

def text? (content : Content α) : Option String :=
  match content.value? with
  | some (.string text) => some text
  | _ => none

end Content

/-- A value of a structure, by its fields. -/
structure Record (α : Type) where
  content : String → Content α

/-- A record with a value for a field in place of any other. -/
def Record.put {α : Type} (record : Record α) (field : String) (value? : Option Value) : Record α :=
  ⟨fun other ↦ if other = field then .slot value? else record.content other⟩

namespace Derived

variable {α : Type} (derived : Derived)

/-- The first parameter of a name. -/
def find? (name : String) : Option Parameter :=
  derived.parameters.find? (·.name == name)

/-- Gives a parameter a value, or clears it. Each type of parameters has a kind, and a value of another kind is refused. -/
def set (kindOf : String → Kind) (record : Record α) (name : String) (value? : Option Value) :
    Record α × Except Error Unit :=
  match derived.find? name with
  | none => (record, .error (.configuration (.unknownParameter name derived.owner)))
  | some p =>
    match (kindOf p.type).assign name value? with
    | .ok slot => (record.put p.field slot, .ok ())
    | .error e => (record, .error e)

/-- The current value of a parameter. -/
def get (record : Record α) (name : String) : Option Value :=
  (derived.find? name).bind fun p ↦ (record.content p.field).value?

/-- Records the pattern that matched, if there is a field for it. -/
def setMatched (record : Record α) (pattern? : Option String) : Record α :=
  match derived.matched? with
  | some field => record.put field (pattern?.map .string)
  | none => record

/-- The pattern that is on record. -/
def matched (record : Record α) : Option String :=
  derived.matched?.bind fun field ↦ (record.content field).text?

/-- Gives parameters values in turn, also behind a value that is refused. What comes with the record are the calls that have
gone through. -/
def setEach (kindOf : String → Kind) (record : Record α) :
    List (String × Option Value) → Record α × List (String × Option Value)
  | [] => (record, [])
  | (name, value?) :: rest =>
    let (next, result) := derived.set kindOf record name value?
    let (last, done) := setEach kindOf next rest
    match result with
    | .ok () => (last, (name, value?) :: done)
    | .error _ => (last, done)

/-! ### Records in use -/

/-- What a derived binding declares, where each type of fields has a kind. -/
def declaration (kindOf : String → Kind) : Declaration where
  owner := derived.owner
  parameters := derived.parameters.map fun p ↦ ⟨p.name, kindOf p.type, p.regex, p.dynamic⟩
  patterns := derived.patterns
  noMatch := derived.noMatch

/-- Views that behave as the accessors do where no field of a parameter is kept for the matched pattern. -/
def typeSpec (kindOf : String → Kind) : TypeSpec :=
  .ofFields (derived.declaration kindOf) derived.matched?.isSome

/-- What the getters show of a record. -/
def shown (kindOf : String → Kind) (record : Record α) : View where
  type := (derived.typeSpec kindOf).viewType
  values := derived.parameters.filterMap fun p ↦ (derived.get record p.name).map (p.name, ·)
  matched := derived.matched record

/-- The derived accessors. -/
def access (kindOf : String → Kind) : Access (Record α) where
  shown record := derived.shown kindOf record
  set record name value? := match derived.set kindOf record name value? with
    | (next, .ok ()) => .ok next
    | (_, .error e) => .error e
  record := derived.setMatched

end Derived

end PathBinding.Derivation
