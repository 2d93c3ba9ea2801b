import PathBinding.Registry

/-!
Runs of operations on views of several types that share one registry. Each operation is a step from one state to the
next; what a type declares may change between steps, while its cached mapping does not.
-/

set_option autoImplicit false
set_option relaxedAutoImplicit false

namespace PathBinding

/-- What a type of views currently declares, and how its views behave. -/
structure TypeSpec where
  declaration : Declaration
  viewType : ViewType
  deriving DecidableEq, Repr

/-- A type of views with a field for each declared parameter. -/
def TypeSpec.ofFields (declaration : Declaration) (records : Bool) : TypeSpec :=
  ⟨declaration, ⟨.fields declaration.owner (declaration.parameters.map fun d ↦ (d.name, d.kind)), records⟩⟩

/-- The state of one view; its behaviour is that of its type. -/
structure Instance where
  type : TypeKey
  values : List (String × Value) := []
  matched : Option String := none
  deriving DecidableEq, Repr

structure Session where
  registry : Registry
  types : List (TypeKey × TypeSpec)
  instances : List Instance

/-- Operations on one view. -/
inductive Action
  | matchPath (path : String)
  | format (template : String) (arguments : List String)
  | set (name : String) (value? : Option Value)
  | get (name : String)
  | setDynamic (name : String) (producer : Producer)
  | matched
  | isCached
  | mapping
  | settings
  | declaration

inductive Operation
  | act (view : Nat) (action : Action)
  | redeclare (type : TypeKey) (spec : TypeSpec)

inductive Answer
  | done
  | outcome (outcome : Outcome)
  | text (text : String)
  | value (value? : Option Value)
  | pattern (pattern? : Option String)
  | flag (truth : Bool)
  | mapping (mapping : Mapping)
  | settings (settings : Settings)
  | declaration (declaration : Declaration)

namespace Session

/-- A view with the behaviour of its type, and what the type declares. -/
def view? (session : Session) (index : Nat) : Option (Instance × TypeSpec × View) := do
  let inst ← session.instances[index]?
  let spec ← session.types.lookup inst.type
  return (inst, spec, ⟨spec.viewType, inst.values, inst.matched⟩)

/-- A session after an operation, with its trace and its answer. -/
structure Step where
  session : Session
  trace : List TraceEntry
  answer : Except Error Answer

/-- A session in which a view has changed. -/
def withView (session : Session) (index : Nat) (inst : Instance) (view : View) : Session :=
  { session with instances := session.instances.set index { inst with values := view.values, matched := view.matched } }

/-- A step of the registry that leaves all views alone. -/
def ofRegistry {α : Type} (session : Session) (step : Registry.Step α) (answer : α → Answer) : Step :=
  ⟨{ session with registry := step.registry }, step.trace, step.result.map answer⟩

/-- An action on what is used through accessors, which it may change. All views are left alone. -/
def actWith {σ : Type} (access : Access σ) (session : Session) (type : TypeKey) (declaration : Declaration)
    (target : σ) : Action → σ × Step
  | .matchPath path =>
    let (target, step) := session.registry.matchWith access type declaration target path
    (target, session.ofRegistry step .outcome)
  | .format template arguments =>
    (target, session.ofRegistry
      (session.registry.format type declaration (access.shown target) template arguments) .text)
  | .set name value? =>
    match access.set target name value? with
    | .ok target => (target, ⟨session, [], .ok .done⟩)
    | .error e => (target, ⟨session, [], .error e⟩)
  | .get name => (target, ⟨session, [], .ok (.value ((access.shown target).get name))⟩)
  | .setDynamic name producer =>
    (target, session.ofRegistry (session.registry.setDynamicRegex type declaration name producer) fun _ ↦ .done)
  | .matched => (target, ⟨session, [], .ok (.pattern (access.shown target).matched)⟩)
  | .isCached => (target, ⟨session, [], .ok (.flag (session.registry.isCached type))⟩)
  | .mapping => (target, session.ofRegistry (session.registry.mapping type declaration) .mapping)
  | .settings => (target, ⟨session, [], .ok (.settings session.registry.settings)⟩)
  | .declaration => (target, ⟨session, [], .ok (.declaration declaration)⟩)

/-- An action on a view. -/
def act (session : Session) (index : Nat) (inst : Instance) (spec : TypeSpec) (view : View) (action : Action) : Step :=
  let (view, step) := session.actWith View.access inst.type spec.declaration view action
  { step with session := step.session.withView index inst view }

/-- The step of an operation; there is none for a view that does not exist. -/
def step? (session : Session) : Operation → Option Step
  | .act index action =>
    (session.view? index).map fun (inst, spec, view) ↦ session.act index inst spec view action
  | .redeclare type spec =>
    let types := session.types.map fun entry ↦ if entry.1 = type then (type, spec) else entry
    some ⟨{ session with types }, [], .ok .done⟩

end Session

end PathBinding
