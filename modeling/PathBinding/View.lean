import PathBinding.Declaration
import PathBinding.Value

/-!
Views, which hold the values of parameters. An open view accepts any value for any name that it does not reject; a view
with fields accepts exactly values of the kind of a field. A call that fails changes nothing. A view keeps its record of
the pattern that matched apart from all values. What holds values in other ways is used through its accessors (`Access`).
-/

set_option autoImplicit false
set_option relaxedAutoImplicit false

namespace PathBinding

/-- Which calls of its setter a view accepts. -/
inductive Accessors
  | anyExcept (rejected : List String)
  | fields (owner : String) (fields : List (String × Kind))
  deriving DecidableEq, Repr

/-- How views of one type behave: their setter, and whether they record the pattern that matched them. -/
structure ViewType where
  accessors : Accessors
  records : Bool
  deriving DecidableEq, Repr

/-- The values of a view by name, and its record of the pattern that matched. No name gives access to the record. -/
structure View where
  type : ViewType
  values : List (String × Value) := []
  matched : Option String := none
  deriving DecidableEq, Repr

namespace View

/-- The current value of a parameter. -/
def get (view : View) (name : String) : Option Value :=
  view.values.lookup name

/-- A view with a value for a name in place of any other. -/
def put (view : View) (name : String) (value? : Option Value) : View :=
  let others := view.values.filter (·.1 != name)
  { view with values := match value? with
    | some value => (name, value) :: others
    | none => others }

/-- Gives a parameter a value, or clears it. -/
def set (view : View) (name : String) (value? : Option Value) : Except Error View :=
  match view.type.accessors with
  | .anyExcept rejected =>
    if name ∈ rejected then .error (.configuration (.rejected name)) else .ok (view.put name value?)
  | .fields owner fields =>
    match fields.lookup name with
    | none => .error (.configuration (.unknownParameter name owner))
    | some kind => (kind.assign name value?).map (view.put name)

/-- Records the pattern that matched, if views of this type do so. -/
def record (view : View) (pattern? : Option String) : View :=
  if view.type.records then { view with matched := pattern? } else view

end View

/-- The accessors of whatever holds the values of parameters: what the getters show, the setter, and how the pattern that
matched is recorded. -/
structure Access (σ : Type) where
  shown : σ → View
  set : σ → String → Option Value → Except Error σ
  record : σ → Option String → σ

/-- Gives parameters values in turn, up to the first that is refused. -/
def Access.setEach {σ : Type} (access : Access σ) (target : σ) : List (String × Option Value) → σ × Option Error
  | [] => (target, none)
  | (name, value?) :: rest =>
    match access.set target name value? with
    | .ok next => access.setEach next rest
    | .error e => (target, some e)

/-- A view is what its getters show. -/
def View.access : Access View :=
  ⟨fun view ↦ view, View.set, View.record⟩

theorem View.setEach_cons (view : View) (p : String × Option Value) (rest : List (String × Option Value)) :
    View.access.setEach view (p :: rest) = match view.set p.1 p.2 with
      | .ok next => View.access.setEach next rest
      | .error e => (view, some e) := by
  simp only [Access.setEach, View.access]
  cases view.set p.1 p.2 <;> rfl

end PathBinding
