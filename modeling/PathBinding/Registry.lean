import PathBinding.Binding
import PathBinding.Template

/-!
The registry of mappings. The mapping of a type is built when it is first needed and kept from then on, whatever is
declared later; a failed build leaves nothing behind. Producers are kept per type and parameter.
-/

set_option autoImplicit false
set_option relaxedAutoImplicit false

namespace PathBinding

/-- What tells types of views apart. -/
inductive TypeKey
  | declared (index : Nat)
  | derived (name : String)
  deriving DecidableEq, Repr

structure Registry where
  settings : Settings
  mappings : List (TypeKey × Mapping) := []
  producers : List ((TypeKey × String) × Producer) := []

namespace Registry

def mapping? (registry : Registry) (key : TypeKey) : Option Mapping :=
  registry.mappings.lookup key

def isCached (registry : Registry) (key : TypeKey) : Bool :=
  (registry.mapping? key).isSome

/-- The producers registered for a type. -/
def producersOf (registry : Registry) (key : TypeKey) : Producers :=
  registry.producers.filterMap fun ((type, name), producer) ↦ if type = key then some (name, producer) else none

/-- A registry after an operation, with its trace and its result. -/
structure Step (α : Type) where
  registry : Registry
  trace : List TraceEntry
  result : Except Error α

private def outside (event : Event) : TraceEntry :=
  ⟨event, none⟩

/-- The mapping of a type, which is built from the declaration if there is none yet. -/
def mapping (registry : Registry) (key : TypeKey) (declaration : Declaration) : Step Mapping :=
  match registry.mapping? key with
  | some mapping => ⟨registry, [], .ok mapping⟩
  | none =>
    match Mapping.build declaration registry.settings with
    | .error e => ⟨registry, [], .error e⟩
    | .ok mapping =>
      ⟨{ registry with mappings := (key, mapping) :: registry.mappings },
        [outside (.built mapping.owner mapping.patterns.length mapping.isDynamic)], .ok mapping⟩

/-- Continues with the mapping of a type. -/
def withMapping {α : Type} (registry : Registry) (key : TypeKey) (declaration : Declaration)
    (next : Registry → Mapping → Step α) : Step α :=
  let first := registry.mapping key declaration
  match first.result with
  | .error e => ⟨first.registry, first.trace, .error e⟩
  | .ok mapping =>
    let second := next first.registry mapping
    ⟨second.registry, first.trace ++ second.trace, second.result⟩

/-- Registers the producer of a dynamic parameter in place of an earlier one. -/
def setDynamicRegex (registry : Registry) (key : TypeKey) (declaration : Declaration) (name : String)
    (producer : Producer) : Step Unit :=
  registry.withMapping key declaration fun registry mapping ↦
    match mapping.find? name with
    | some descriptor =>
      if descriptor.dynamic then
        let others := registry.producers.filter (·.1 != (key, name))
        ⟨{ registry with producers := ((key, name), producer) :: others },
          [outside (.registered mapping.owner name)], .ok ()⟩
      else ⟨registry, [], .error (.configuration (.notDynamic name mapping.owner))⟩
    | none => ⟨registry, [], .error (.configuration (.unknownDynamic name mapping.owner))⟩

/-- Matches a path and writes what is captured through accessors. -/
def matchWith {σ : Type} (access : Access σ) (registry : Registry) (key : TypeKey) (declaration : Declaration)
    (target : σ) (path : String) : σ × Step Outcome :=
  let first := registry.mapping key declaration
  match first.result with
  | .error e => (target, ⟨first.registry, first.trace, .error e⟩)
  | .ok mapping =>
    let bound := mapping.bindWith access (first.registry.producersOf key) target path
    let span : Span := ⟨mapping.owner, path⟩
    (bound.view, ⟨first.registry, first.trace ++ bound.events.map (⟨·, some span⟩), bound.result⟩)

/-- Matches a path and updates the view. -/
def matchPath (registry : Registry) (key : TypeKey) (declaration : Declaration) (view : View) (path : String) :
    View × Step Outcome :=
  registry.matchWith View.access key declaration view path

/-- Renders a template from the values of the view. -/
def format (registry : Registry) (key : TypeKey) (declaration : Declaration) (view : View) (template : String)
    (arguments : List String) : Step String :=
  registry.withMapping key declaration fun registry mapping ↦
    ⟨registry, [], Template.render mapping view template arguments registry.settings⟩

end Registry

end PathBinding
