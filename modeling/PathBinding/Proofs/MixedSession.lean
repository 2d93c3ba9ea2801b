import PathBinding.MixedSession
import PathBinding.Proofs.Session

/-!
Runs of a session with records. An operation on a view or a type is one of the session of views (`next_view`,
`next_redeclare`), and one on a record changes the registry and this record only (`next_record`). Where a structure has a
key of its own, its mapping is built from its binding alone, and no operation changes that (`IsBound.next`). What is to be
seen at a place changes with an action there (`shown?_next_of_ne`), or where the type is declared anew
(`shown?_redeclare`).
-/

set_option autoImplicit false
set_option relaxedAutoImplicit false

namespace PathBinding

theorem Session.view?_congr {session other : Session} {index : Nat}
    (hinstance : other.instances[index]? = session.instances[index]?) (htypes : other.types = session.types) :
    other.view? index = session.view? index := by
  unfold Session.view?
  rw [hinstance, htypes]

theorem Session.view?_next_of_ne {own index : Nat} (h : own ≠ index) (session : Session) (action : Action) :
    (session.next (.act own action)).view? index = session.view? index := by
  refine Session.view?_congr ?_ ?_
  · exact session.instance_next_of_ne fun other heq ↦ h (Operation.act.inj heq).1
  · rcases session.next_cases own action with ⟨-, hnext⟩ | ⟨inst, spec, view, -, hnext⟩
    · rw [hnext]
    · rw [hnext, Session.types_act]

namespace MixedSession

open PathBinding.Derivation

variable {α : Type} {mixed : MixedSession α} {index : Nat} {holding : Holding α} {derived : Derived} {inst : Instance}
  {spec : TypeSpec} {view : View} {key : TypeKey} {declaration : Declaration} {place : Place}

/-- The session after an operation, which is the same if there is nothing to act on. -/
def next (mixed : MixedSession α) (operation : Operation) : MixedSession α :=
  ((mixed.step? operation).map Step.session).getD mixed

/-- The session after operations in turn. -/
def after (mixed : MixedSession α) (operations : List Operation) : MixedSession α :=
  operations.foldl next mixed

theorem record?_eq_some : mixed.record? index = some (holding, derived) ↔
    mixed.records[index]? = some holding ∧ mixed.bindings.lookup holding.type = some derived := by
  simp only [record?, Option.bind_eq_bind, Option.bind_eq_some_iff, Option.pure_def, Option.some.injEq, Prod.mk.injEq]
  constructor
  · rintro ⟨holding, hholding, derived, hderived, rfl, rfl⟩
    exact ⟨hholding, hderived⟩
  · rintro ⟨hholding, hderived⟩
    exact ⟨holding, hholding, derived, hderived, rfl, rfl⟩

/-! ### What one operation does -/

theorem next_view (mixed : MixedSession α) (index : Nat) (action : Action) :
    mixed.next (.act (.view index) action) = { mixed with session := mixed.session.next (.act index action) } := by
  rw [next, step?, Session.next]
  cases mixed.session.step? (.act index action) <;> rfl

theorem next_redeclare (mixed : MixedSession α) (type : TypeKey) (spec : TypeSpec) :
    mixed.next (.redeclare type spec) = { mixed with session := mixed.session.next (.redeclare type spec) } :=
  rfl

theorem step?_record (h : mixed.record? index = some (holding, derived)) (action : Action) :
    mixed.step? (.act (.record index) action) = some (mixed.actOn index holding derived action) := by
  rw [step?, h]
  rfl

theorem next_record (h : mixed.record? index = some (holding, derived)) (action : Action) :
    mixed.next (.act (.record index) action) =
      let acted := mixed.session.actWith (derived.access mixed.kindOf) holding.type (derived.declaration mixed.kindOf)
        holding.record action
      { mixed with session := acted.2.session, records := mixed.records.set index { holding with record := acted.1 } } := by
  rw [next, step?_record h]
  rfl

theorem next_of_no_record (h : mixed.record? index = none) (action : Action) :
    mixed.next (.act (.record index) action) = mixed := by
  rw [next, step?, h]
  rfl

/-! ### Mappings of structures -/

/-- No type of views has the key of a structure, and if a structure has a mapping, its binding compiles to it. -/
structure IsBound (mixed : MixedSession α) : Prop where
  apart : ∀ key derived, mixed.bindings.lookup key = some derived → mixed.session.types.lookup key = none
  built : ∀ key derived mapping, mixed.bindings.lookup key = some derived →
    mixed.session.registry.mapping? key = some mapping →
      Mapping.build (derived.declaration mixed.kindOf) mixed.session.registry.settings = .ok mapping

namespace IsBound

/-- In front of the first build nothing needs to be checked but the keys. -/
theorem of_isFresh (hfresh : mixed.session.IsFresh)
    (hapart : ∀ key derived, mixed.bindings.lookup key = some derived → mixed.session.types.lookup key = none) :
    mixed.IsBound where
  apart := hapart
  built key derived mapping _ hmapping := by
    rw [Registry.mapping?, hfresh.1] at hmapping
    cases hmapping

/-- The mapping that a structure works with comes from its binding. -/
theorem exists_build (h : mixed.IsBound) (hderived : mixed.bindings.lookup key = some derived) {mapping : Mapping}
    (hmapping : (mixed.session.registry.mapping key (derived.declaration mixed.kindOf)).result = .ok mapping) :
    Mapping.build (derived.declaration mixed.kindOf) mixed.session.registry.settings = .ok mapping := by
  rcases Registry.mapping_result_eq_ok hmapping with hcached | ⟨-, hbuild⟩
  · exact h.built key derived mapping hderived hcached
  · exact hbuild

theorem next_session (h : mixed.IsBound) (operation : PathBinding.Operation) :
    IsBound { mixed with session := mixed.session.next operation } := by
  have hapart (key : TypeKey) (derived : Derived) (hderived : mixed.bindings.lookup key = some derived) :
      (mixed.session.next operation).types.lookup key = none := by
    have hnone := h.apart key derived hderived
    by_cases hdeclared : ∃ spec, operation = .redeclare key spec
    · obtain ⟨spec, rfl⟩ := hdeclared
      refine (Session.lookup_redeclared_self mixed.session.types key spec).trans ?_
      rw [hnone, Option.map_none]
    · rw [mixed.session.types_next fun spec heq ↦ hdeclared ⟨spec, heq⟩]
      exact hnone
  refine ⟨hapart, fun key derived mapping hderived hmapping ↦ ?_⟩
  dsimp only at hderived hmapping ⊢
  rw [Session.mapping?_next] at hmapping
  rw [Session.settings_next]
  cases hcached : mixed.session.registry.mapping? key with
  | some cached =>
    rw [hcached, Option.some_or] at hmapping
    exact h.built key derived mapping hderived (hcached.trans hmapping)
  | none =>
    -- A view would build the mapping of its own type, and no type of views has this key.
    rw [hcached, Option.none_or] at hmapping
    obtain ⟨_, _, inst, spec, _, -, hview, rfl, -⟩ := Session.exists_view_of_built? hmapping
    cases (h.apart _ derived hderived).symm.trans (Session.view?_eq_some.mp hview).2.1

/-- No operation builds the mapping of a structure from anything but its binding. -/
theorem next (h : mixed.IsBound) (operation : Operation) : (mixed.next operation).IsBound := by
  cases operation with
  | redeclare type spec => exact h.next_session (.redeclare type spec)
  | act place action =>
    cases place with
    | view index =>
      rw [next_view]
      exact h.next_session (.act index action)
    | record index =>
      cases hrecord : mixed.record? index with
      | none =>
        rw [next_of_no_record hrecord]
        exact h
      | some found =>
        obtain ⟨holding, own⟩ := found
        obtain ⟨-, hown⟩ := record?_eq_some.mp hrecord
        rw [next_record hrecord]
        have hviews := mixed.session.views_actWith (own.access mixed.kindOf) holding.type (own.declaration mixed.kindOf)
          holding.record action
        obtain ⟨hsettings, hmappings⟩ := mixed.session.registry_actWith (own.access mixed.kindOf) holding.type
          (own.declaration mixed.kindOf) holding.record action
        refine ⟨fun key derived hderived ↦ ?_, fun key derived mapping hderived hmapping ↦ ?_⟩
        · exact (congrArg (List.lookup key) hviews.1).trans (h.apart key derived hderived)
        · dsimp only at hderived hmapping ⊢
          rw [hsettings]
          rw [Registry.mapping?, hmappings] at hmapping
          cases hbuilds : action.builds with
          | false =>
            rw [hbuilds] at hmapping
            exact h.built key derived mapping hderived hmapping
          | true =>
            rw [hbuilds, if_pos rfl, ← Registry.mapping?, Registry.mapping?_mapping] at hmapping
            cases hcached : mixed.session.registry.mapping? key with
            | some cached =>
              rw [hcached, Option.some_or] at hmapping
              exact h.built key derived mapping hderived (hcached.trans hmapping)
            | none =>
              rw [hcached, Option.none_or] at hmapping
              by_cases hkey : holding.type = key
              · rw [if_pos hkey] at hmapping
                cases hown.symm.trans (hkey ▸ hderived)
                exact eq_ok_of_toOption hmapping
              · rw [if_neg hkey] at hmapping
                cases hmapping

end IsBound

/-! ### What is to be seen at a place -/

/-- The key of the type at a place, what it declares, and what the getters show. -/
def shown? (mixed : MixedSession α) : Place → Option (TypeKey × Declaration × View)
  | .view index => (mixed.session.view? index).map fun (inst, spec, view) ↦ (inst.type, spec.declaration, view)
  | .record index => (mixed.record? index).map fun (holding, derived) ↦
      (holding.type, derived.declaration mixed.kindOf, derived.shown mixed.kindOf holding.record)

theorem shown?_view : mixed.shown? (.view index) = some (key, declaration, view) ↔
    ∃ inst spec, mixed.session.view? index = some (inst, spec, view) ∧ inst.type = key ∧
      spec.declaration = declaration := by
  rw [shown?, Option.map_eq_some_iff]
  constructor
  · rintro ⟨⟨inst, spec, view⟩, hview, ⟨⟩⟩
    exact ⟨inst, spec, hview, rfl, rfl⟩
  · rintro ⟨inst, spec, hview, rfl, rfl⟩
    exact ⟨_, hview, rfl⟩

theorem shown?_record : mixed.shown? (.record index) = some (key, declaration, view) ↔
    ∃ holding derived, mixed.record? index = some (holding, derived) ∧ holding.type = key ∧
      derived.declaration mixed.kindOf = declaration ∧ derived.shown mixed.kindOf holding.record = view := by
  rw [shown?, Option.map_eq_some_iff]
  constructor
  · rintro ⟨⟨holding, derived⟩, hrecord, ⟨⟩⟩
    exact ⟨holding, derived, hrecord, rfl, rfl, rfl⟩
  · rintro ⟨holding, derived, hrecord, rfl, rfl, rfl⟩
    exact ⟨_, hrecord, rfl⟩

/-- An action somewhere else changes nothing that is to be seen at a place. -/
theorem shown?_next_of_ne {own : Place} (h : own ≠ place) (mixed : MixedSession α) (action : Action) :
    (mixed.next (.act own action)).shown? place = mixed.shown? place := by
  cases own with
  | view own =>
    rw [next_view]
    cases place with
    | record index => rfl
    | view index =>
      have hne : own ≠ index := fun heq ↦ h (congrArg Place.view heq)
      dsimp only [shown?]
      rw [Session.view?_next_of_ne hne]
  | record own =>
    cases hrecord : mixed.record? own with
    | none => rw [next_of_no_record hrecord]
    | some found =>
      obtain ⟨holding, derived⟩ := found
      rw [next_record hrecord]
      have hviews := mixed.session.views_actWith (derived.access mixed.kindOf) holding.type
        (derived.declaration mixed.kindOf) holding.record action
      cases place with
      | view index =>
        dsimp only [shown?]
        rw [Session.view?_congr (congrArg (·[index]?) hviews.2) hviews.1]
      | record index =>
        have hne : own ≠ index := fun heq ↦ h (congrArg Place.record heq)
        dsimp only [shown?, record?]
        rw [List.getElem?_set_ne hne]

theorem shown?_act_view (h : mixed.session.view? index = some (inst, spec, view)) (action : Action) : ∃ left,
    (mixed.next (.act (.view index) action)).shown? (.view index) = some (inst.type, spec.declaration, left) ∧
      left.type = spec.viewType ∧ left.matched = (mixed.session.viewAfter inst spec view action).matched := by
  obtain ⟨-, hspec, -⟩ := Session.view?_eq_some.mp h
  have hinstance := Session.instance_next_of_view h action
  have htypes : (mixed.session.next (.act index action)).types.lookup inst.type = some spec := by
    rw [Session.next_act h, Session.types_act, hspec]
  rw [next_view]
  exact ⟨_, shown?_view.mpr ⟨_, spec, Session.view?_eq_some.mpr ⟨hinstance, htypes, rfl⟩, rfl, rfl⟩, rfl, rfl⟩

theorem shown?_act_record (h : mixed.record? index = some (holding, derived)) (action : Action) :
    (mixed.next (.act (.record index) action)).shown? (.record index) =
      some (holding.type, derived.declaration mixed.kindOf, derived.shown mixed.kindOf
        (mixed.session.actWith (derived.access mixed.kindOf) holding.type (derived.declaration mixed.kindOf)
          holding.record action).1) := by
  obtain ⟨hholding, hderived⟩ := record?_eq_some.mp h
  obtain ⟨hindex, -⟩ := List.getElem?_eq_some_iff.mp hholding
  rw [next_record h]
  exact shown?_record.mpr
    ⟨_, derived, record?_eq_some.mpr ⟨List.getElem?_set_self hindex, hderived⟩, rfl, rfl, rfl⟩

/-- Where a type is declared anew, its views behave as it says, and keep what they hold. -/
theorem shown?_redeclare (h : mixed.shown? place = some (key, declaration, view)) (type : TypeKey) (spec : TypeSpec) :
    ∃ declared left, (mixed.next (.redeclare type spec)).shown? place = some (key, declared, left) ∧
      left.matched = view.matched ∧ (left.type = view.type ∨ type = key ∧ left.type = spec.viewType) := by
  rw [next_redeclare]
  cases place with
  | record index => exact ⟨declaration, view, h, rfl, .inl rfl⟩
  | view index =>
    obtain ⟨inst, before, hview, rfl, -⟩ := shown?_view.mp h
    obtain ⟨hinstance, hbefore, rfl⟩ := Session.view?_eq_some.mp hview
    by_cases htype : type = inst.type
    · have hlookup : (mixed.session.next (.redeclare type spec)).types.lookup inst.type = some spec := by
        subst htype
        refine (Session.lookup_redeclared_self mixed.session.types inst.type spec).trans ?_
        rw [hbefore, Option.map_some]
      exact ⟨_, _, shown?_view.mpr ⟨inst, spec, Session.view?_eq_some.mpr ⟨hinstance, hlookup, rfl⟩, rfl, rfl⟩, rfl,
        .inr ⟨htype, rfl⟩⟩
    · have hlookup : (mixed.session.next (.redeclare type spec)).types.lookup inst.type = some before :=
        (Session.lookup_redeclared htype spec).trans hbefore
      exact ⟨_, _, shown?_view.mpr ⟨inst, before, Session.view?_eq_some.mpr ⟨hinstance, hlookup, rfl⟩, rfl, rfl⟩, rfl,
        .inl rfl⟩

end MixedSession

end PathBinding
