import PathBinding.Derivation.Record

/-!
Sessions in which records of structures with derived bindings take part beside views. All of them share one registry. An
action does the same on a view and on a record, but for what their accessors do, and what a structure declares never
changes.
-/

set_option autoImplicit false
set_option relaxedAutoImplicit false

namespace PathBinding

/-- A record in a session, with the key of its structure. -/
structure Holding (α : Type) where
  type : TypeKey
  record : Derivation.Record α

structure MixedSession (α : Type) where
  session : Session
  kindOf : String → Kind
  bindings : List (TypeKey × Derivation.Derived)
  records : List (Holding α)

/-- What an action can be about. -/
inductive Place
  | view (index : Nat)
  | record (index : Nat)
  deriving DecidableEq, Repr

namespace MixedSession

inductive Operation
  | act (place : Place) (action : Action)
  | redeclare (type : TypeKey) (spec : TypeSpec)

variable {α : Type}

/-- A record with the binding of its structure. -/
def record? (mixed : MixedSession α) (index : Nat) : Option (Holding α × Derivation.Derived) := do
  let holding ← mixed.records[index]?
  let derived ← mixed.bindings.lookup holding.type
  return (holding, derived)

/-- A session after an operation, with its trace and its answer. -/
structure Step (α : Type) where
  session : MixedSession α
  trace : List TraceEntry
  answer : Except Error Answer

/-- A step that leaves all records alone. -/
def ofViews (mixed : MixedSession α) (step : Session.Step) : Step α :=
  ⟨{ mixed with session := step.session }, step.trace, step.answer⟩

/-- An action on a record. -/
def actOn (mixed : MixedSession α) (index : Nat) (holding : Holding α) (derived : Derivation.Derived) (action : Action) :
    Step α :=
  let (record, step) := mixed.session.actWith (derived.access mixed.kindOf) holding.type
    (derived.declaration mixed.kindOf) holding.record action
  let records := mixed.records.set index { holding with record }
  ⟨{ mixed with session := step.session, records }, step.trace, step.answer⟩

/-- The step of an operation; there is none for a view or a record that does not exist. -/
def step? (mixed : MixedSession α) : Operation → Option (Step α)
  | .act (.view index) action => (mixed.session.step? (.act index action)).map mixed.ofViews
  | .act (.record index) action =>
    (mixed.record? index).map fun (holding, derived) ↦ mixed.actOn index holding derived action
  | .redeclare type spec => (mixed.session.step? (.redeclare type spec)).map mixed.ofViews

end MixedSession

end PathBinding
