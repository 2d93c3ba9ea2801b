import PathBinding.Proofs.Registry
import PathBinding.Session

/-!
Runs of a session. An operation builds the mapping of a type if it needs one and the declaration of that moment compiles
(`Session.built?`); it is kept if there is none yet, and no operation does anything else to the mappings
(`mapping?_next`). So a type has a mapping from the first build that succeeds on, and has it for good
(`mapping?_after_eq_some`, `mapping?_after_of_some`); until then each operation that needs it reports the fault of its own
attempt, and from then on each works with this mapping, whatever the type declares (`first_build_kept`). The mapping of a
type that is not declared anew comes from its one declaration (`build_of_kept`). To the registry an operation does no more
than that, or it registers a producer (`registry_actWith_cases`), and of the views it changes its own at most (`instances_act`).
-/

set_option autoImplicit false
set_option relaxedAutoImplicit false

namespace PathBinding

namespace Registry

variable {registry : Registry} {key : TypeKey} {declaration : Declaration}

theorem registry_setDynamicRegex (registry : Registry) (key : TypeKey) (declaration : Declaration) (name : String)
    (producer : Producer) : let next := (registry.setDynamicRegex key declaration name producer).registry
    next.settings = registry.settings ∧ next.mappings = (registry.mapping key declaration).registry.mappings := by
  intro next
  rcases registry.setDynamicRegex_cases key declaration name producer with ⟨-, -, -, -, -, -, h⟩ | ⟨-, -, h, -⟩
  · have hnext : next = _ := h
    rw [hnext]
    exact ⟨settings_mapping registry key declaration, rfl⟩
  · have hnext : next = _ := h
    rw [hnext]
    exact ⟨settings_mapping registry key declaration, rfl⟩

theorem registry_format (registry : Registry) (key : TypeKey) (declaration : Declaration) (view : View)
    (template : String) (arguments : List String) :
    (registry.format key declaration view template arguments).registry = (registry.mapping key declaration).registry := by
  unfold format
  cases hresult : (registry.mapping key declaration).result with
  | error e => rw [withMapping_of_fault hresult]
  | ok mapping => rw [withMapping_of_mapping hresult]

theorem registry_matchWith {σ : Type} (access : Access σ) (registry : Registry) (key : TypeKey)
    (declaration : Declaration) (target : σ) (path : String) :
    (registry.matchWith access key declaration target path).2.registry = (registry.mapping key declaration).registry := by
  cases hresult : (registry.mapping key declaration).result with
  | error e => rw [matchWith_of_fault hresult]
  | ok mapping => rw [matchWith_of_mapping hresult]

end Registry

/-- Actions that need the mapping of the type of their view. -/
def Action.builds : Action → Bool
  | .matchPath _ | .format .. | .setDynamic .. | .mapping => true
  | _ => false

namespace Session

/-- The session after an operation, which is the same if the operation has no view to act on. -/
def next (session : Session) (operation : Operation) : Session :=
  ((session.step? operation).map Step.session).getD session

/-- The session after operations in turn. -/
def after (session : Session) (operations : List Operation) : Session :=
  operations.foldl next session

/-- A session whose registry is new. -/
def IsFresh (session : Session) : Prop :=
  session.registry.mappings = [] ∧ session.registry.producers = []

/-- The mapping that an operation builds for a type from what the type declares at that moment, if it needs one. -/
def built? (session : Session) (key : TypeKey) : Operation → Option Mapping
  | .act index action => do
    let (inst, spec, _) ← session.view? index
    if action.builds ∧ inst.type = key then (Mapping.build spec.declaration session.registry.settings).toOption else none
  | .redeclare .. => none

variable {session start : Session} {index : Nat} {inst : Instance} {spec : TypeSpec} {view : View} {key : TypeKey}
  {mapping : Mapping} {action : Action}

@[simp] theorem after_nil (session : Session) : session.after [] = session :=
  rfl

@[simp] theorem after_cons (session : Session) (operation : Operation) (operations : List Operation) :
    session.after (operation :: operations) = (session.next operation).after operations :=
  rfl

theorem after_append (session : Session) (operations others : List Operation) :
    session.after (operations ++ others) = (session.after operations).after others :=
  List.foldl_append

theorem view?_eq_some : session.view? index = some (inst, spec, view) ↔ session.instances[index]? = some inst ∧
    session.types.lookup inst.type = some spec ∧ view = ⟨spec.viewType, inst.values, inst.matched⟩ := by
  simp only [view?, Option.bind_eq_bind, Option.bind_eq_some_iff, Option.pure_def, Option.some.injEq, Prod.mk.injEq]
  constructor
  · rintro ⟨inst, hinst, spec, hspec, rfl, rfl, rfl⟩
    exact ⟨hinst, hspec, rfl⟩
  · rintro ⟨hinst, hspec, rfl⟩
    exact ⟨inst, hinst, spec, hspec, rfl, rfl, rfl⟩

theorem step?_act (h : session.view? index = some (inst, spec, view)) (action : Action) :
    session.step? (.act index action) = some (session.act index inst spec view action) := by
  rw [step?, h]
  rfl

theorem next_act (h : session.view? index = some (inst, spec, view)) (action : Action) :
    session.next (.act index action) = (session.act index inst spec view action).session := by
  rw [next, step?_act h]
  rfl

theorem next_of_no_view (h : session.view? index = none) (action : Action) :
    session.next (.act index action) = session := by
  rw [next, step?, h]
  rfl

/-- An action is a step of its view, or nothing if there is no such view. -/
theorem next_cases (session : Session) (index : Nat) (action : Action) :
    (session.view? index = none ∧ session.next (.act index action) = session) ∨
    ∃ inst spec view, session.view? index = some (inst, spec, view) ∧
      session.next (.act index action) = (session.act index inst spec view action).session := by
  cases hview : session.view? index with
  | none => exact .inl ⟨rfl, next_of_no_view hview action⟩
  | some found =>
    obtain ⟨inst, spec, view⟩ := found
    exact .inr ⟨inst, spec, view, rfl, next_act hview action⟩

theorem built?_of_view (h : session.view? index = some (inst, spec, view)) (hbuilds : action.builds = true) :
    session.built? inst.type (.act index action) =
      (Mapping.build spec.declaration session.registry.settings).toOption := by
  rw [built?, h]
  exact if_pos ⟨hbuilds, rfl⟩

/-! ### What an action does, whatever it is about -/

section

variable {σ : Type} (access : Access σ) (session : Session) (key : TypeKey) (declaration : Declaration) (target : σ)

/-- An action registers a producer, or it leaves the registry as it is but for the mapping that it needs. -/
theorem registry_actWith_cases (action : Action) :
    let registry := (session.actWith access key declaration target action).2.session.registry
    (∃ name producer, action = .setDynamic name producer ∧
      registry = (session.registry.setDynamicRegex key declaration name producer).registry) ∨
    (∀ name producer, action ≠ .setDynamic name producer) ∧ registry = if action.builds then
      (session.registry.mapping key declaration).registry else session.registry := by
  cases action with
  | setDynamic name producer => exact .inl ⟨name, producer, rfl, rfl⟩
  | matchPath path => exact .inr ⟨nofun, session.registry.registry_matchWith access key declaration target path⟩
  | format template arguments =>
    exact .inr ⟨nofun, session.registry.registry_format key declaration (access.shown target) template arguments⟩
  | set name value? =>
    rw [actWith]
    cases access.set target name value? <;> exact .inr ⟨nofun, rfl⟩
  | _ => exact .inr ⟨nofun, rfl⟩

theorem registry_actWith (action : Action) :
    let registry := (session.actWith access key declaration target action).2.session.registry
    registry.settings = session.registry.settings ∧ registry.mappings = if action.builds then
      (session.registry.mapping key declaration).registry.mappings else session.registry.mappings := by
  dsimp only
  rcases session.registry_actWith_cases access key declaration target action with
    ⟨name, producer, rfl, hregistry⟩ | ⟨-, hregistry⟩
  · rw [hregistry]
    exact session.registry.registry_setDynamicRegex key declaration name producer
  · rw [hregistry]
    cases action.builds with
    | true => exact ⟨session.registry.settings_mapping key declaration, rfl⟩
    | false => exact ⟨rfl, rfl⟩

/-- An action alone neither declares a type anew nor stores what it leaves. -/
theorem views_actWith (action : Action) : let left := (session.actWith access key declaration target action).2.session
    left.types = session.types ∧ left.instances = session.instances := by
  cases action with
  | set name value? =>
    rw [actWith]
    cases access.set target name value? <;> exact ⟨rfl, rfl⟩
  | _ => exact ⟨rfl, rfl⟩

/-- An action that needs a mapping changes nothing if there is none and the declaration does not compile. -/
theorem actWith_of_fault {action : Action} (hbuilds : action.builds = true)
    (hnone : session.registry.mapping? key = none) {e : Error}
    (hbuild : Mapping.build declaration session.registry.settings = .error e) :
    session.actWith access key declaration target action = (target, ⟨session, [], .error e⟩) := by
  have hmapping := Registry.mapping_of_fault hnone hbuild
  have hresult := congrArg Registry.Step.result hmapping
  cases action with
  | matchPath path =>
    rw [actWith, Registry.matchWith_of_fault hresult, hmapping]
    rfl
  | format template arguments =>
    rw [actWith, Registry.format, Registry.withMapping_of_fault hresult, hmapping]
    rfl
  | setDynamic name producer =>
    rw [actWith, Registry.setDynamicRegex, Registry.withMapping_of_fault hresult, hmapping]
    rfl
  | mapping =>
    rw [actWith, hmapping]
    rfl
  | _ => cases hbuilds

end

/-- The view that an action leaves. -/
def viewAfter (session : Session) (inst : Instance) (spec : TypeSpec) (view : View) (action : Action) : View :=
  (session.actWith View.access inst.type spec.declaration view action).1

theorem session_act (session : Session) (index : Nat) (inst : Instance) (spec : TypeSpec) (view : View)
    (action : Action) : (session.act index inst spec view action).session =
      (session.actWith View.access inst.type spec.declaration view action).2.session.withView index inst
        (session.viewAfter inst spec view action) :=
  rfl

/-! ### What one operation does to the registry -/

theorem settings_next (session : Session) (operation : Operation) :
    (session.next operation).registry.settings = session.registry.settings := by
  cases operation with
  | redeclare type spec => rfl
  | act index action =>
    rcases session.next_cases index action with ⟨-, hnext⟩ | ⟨inst, spec, view, -, hnext⟩
    · rw [hnext]
    · rw [hnext]
      exact (session.registry_actWith View.access inst.type spec.declaration view action).1

/-- A mapping is kept, and a type that has none gets the mapping that an operation builds for it. -/
theorem mapping?_next (session : Session) (operation : Operation) (key : TypeKey) :
    (session.next operation).registry.mapping? key =
      (session.registry.mapping? key).or (session.built? key operation) := by
  cases operation with
  | redeclare type spec => exact (Option.or_none).symm
  | act index action =>
    rcases session.next_cases index action with ⟨hview, hnext⟩ | ⟨inst, spec, view, hview, hnext⟩
    · rw [hnext, built?, hview]
      exact (Option.or_none).symm
    · obtain ⟨-, hmappings⟩ := session.registry_actWith View.access inst.type spec.declaration view action
      rw [hnext, built?, hview, Registry.mapping?, session_act, withView, hmappings]
      cases action.builds with
      | true => simpa [Registry.mapping?] using session.registry.mapping?_mapping inst.type spec.declaration key
      | false => exact (Option.or_none).symm

/-! ### What one operation does to types -/

theorem types_act (session : Session) (index : Nat) (inst : Instance) (spec : TypeSpec) (view : View) (action : Action) :
    (session.act index inst spec view action).session.types = session.types :=
  (session.views_actWith View.access inst.type spec.declaration view action).1

theorem lookup_redeclared {types : List (TypeKey × TypeSpec)} {type : TypeKey} (h : type ≠ key) (spec : TypeSpec) :
    (types.map fun entry ↦ if entry.1 = type then (type, spec) else entry).lookup key = types.lookup key := by
  simpa only [beq_iff_eq] using lookup_replaced_of_ne types h.symm spec

theorem lookup_redeclared_self (types : List (TypeKey × TypeSpec)) (type : TypeKey) (spec : TypeSpec) :
    (types.map fun entry ↦ if entry.1 = type then (type, spec) else entry).lookup type =
      (types.lookup type).map fun _ ↦ spec := by
  simpa only [beq_iff_eq] using lookup_replaced_self types type spec

/-- What a type declares changes only where it is declared anew. -/
theorem types_next (session : Session) {operation : Operation} (h : ∀ spec, operation ≠ .redeclare key spec) :
    (session.next operation).types.lookup key = session.types.lookup key := by
  cases operation with
  | redeclare type spec =>
    have hne : type ≠ key := fun heq ↦ h spec (heq ▸ rfl)
    exact lookup_redeclared hne spec
  | act index action =>
    rcases session.next_cases index action with ⟨-, hnext⟩ | ⟨inst, spec, view, -, hnext⟩
    · rw [hnext]
    · rw [hnext, types_act]

/-! ### What one operation does to views -/

/-- An action changes the values and the record of its own view at most. -/
theorem instances_act (session : Session) (index : Nat) (inst : Instance) (spec : TypeSpec) (view : View)
    (action : Action) : let left := session.viewAfter inst spec view action
    (session.act index inst spec view action).session.instances =
      session.instances.set index { inst with values := left.values, matched := left.matched } := by
  obtain ⟨-, hinstances⟩ := session.views_actWith View.access inst.type spec.declaration view action
  intro left
  rw [session_act, withView, hinstances]

/-- A view that an action leaves as it is stays where it is. -/
theorem withView_self (h : session.view? index = some (inst, spec, view)) :
    session.instances.set index { inst with values := view.values, matched := view.matched } = session.instances := by
  obtain ⟨hinst, -, rfl⟩ := view?_eq_some.mp h
  obtain ⟨hindex, hfound⟩ := List.getElem?_eq_some_iff.mp hinst
  rw [← hfound]
  exact List.set_getElem_self hindex

theorem instance_next_of_view (h : session.view? index = some (inst, spec, view)) (action : Action) :
    let left := session.viewAfter inst spec view action
    (session.next (.act index action)).instances[index]? =
      some { inst with values := left.values, matched := left.matched } := by
  obtain ⟨hindex, -⟩ := List.getElem?_eq_some_iff.mp (view?_eq_some.mp h).1
  rw [next_act h, instances_act, List.getElem?_set_self hindex]

/-- An operation leaves alone all views but the one that it acts on. -/
theorem instance_next_of_ne (session : Session) {operation : Operation} (h : ∀ action, operation ≠ .act index action) :
    (session.next operation).instances[index]? = session.instances[index]? := by
  cases operation with
  | redeclare type spec => rfl
  | act own action =>
    have hne : own ≠ index := fun heq ↦ h action (heq ▸ rfl)
    rcases session.next_cases own action with ⟨-, hnext⟩ | ⟨inst, spec, view, hview, hnext⟩
    · rw [hnext]
    · rw [hnext, instances_act, List.getElem?_set_ne hne]

theorem type_next (session : Session) (operation : Operation) (index : Nat) :
    ((session.next operation).instances[index]?).map (·.type) = (session.instances[index]?).map (·.type) := by
  by_cases hact : ∃ action, operation = .act index action
  · obtain ⟨action, rfl⟩ := hact
    rcases session.next_cases index action with ⟨-, hnext⟩ | ⟨inst, spec, view, hview, -⟩
    · rw [hnext]
    · rw [instance_next_of_view hview, (view?_eq_some.mp hview).1]
      rfl
  · rw [instance_next_of_ne session fun action heq ↦ hact ⟨action, heq⟩]

/-! ### Runs -/

theorem settings_after (session : Session) (operations : List Operation) :
    (session.after operations).registry.settings = session.registry.settings := by
  induction operations generalizing session with
  | nil => rfl
  | cons operation rest ih => rw [after_cons, ih, settings_next]

theorem mapping?_after_of_some (h : session.registry.mapping? key = some mapping) (operations : List Operation) :
    (session.after operations).registry.mapping? key = some mapping := by
  induction operations generalizing session with
  | nil => exact h
  | cons operation rest ih => exact ih (by rw [mapping?_next, h, Option.some_or])

/-- A mapping that a run ends with was there, or some operation of the run built it when there was none. -/
theorem mapping?_after_eq_some (session : Session) (operations : List Operation) :
    (session.after operations).registry.mapping? key = some mapping ↔ session.registry.mapping? key = some mapping ∨
      ∃ before operation rest, operations = before ++ operation :: rest ∧
        (session.after before).registry.mapping? key = none ∧
        (session.after before).built? key operation = some mapping := by
  constructor
  · intro h
    induction operations generalizing session with
    | nil => exact .inl h
    | cons operation rest ih =>
      rcases ih (session.next operation) h with hnext | ⟨before, later, rest, rfl, hnone, hbuilt⟩
      · rw [mapping?_next] at hnext
        cases hcached : session.registry.mapping? key with
        | none =>
          rw [hcached, Option.none_or] at hnext
          exact .inr ⟨[], operation, rest, rfl, hcached, hnext⟩
        | some cached =>
          rw [hcached, Option.some_or] at hnext
          exact .inl hnext
      · exact .inr ⟨operation :: before, later, rest, rfl, hnone, hbuilt⟩
  · rintro (hstart | ⟨before, operation, rest, rfl, hnone, hbuilt⟩)
    · exact mapping?_after_of_some hstart operations
    · rw [after_append, after_cons]
      refine mapping?_after_of_some ?_ rest
      rw [mapping?_next, hnone, Option.none_or, hbuilt]

theorem exists_view_of_built? {operation : Operation} (h : session.built? key operation = some mapping) :
    ∃ index action inst spec view, operation = .act index action ∧ session.view? index = some (inst, spec, view) ∧
      inst.type = key ∧ Mapping.build spec.declaration session.registry.settings = .ok mapping := by
  cases operation with
  | redeclare type spec => cases h
  | act index action =>
    obtain ⟨⟨inst, spec, view⟩, hview, hbuilt⟩ := Option.bind_eq_some_iff.mp h
    dsimp only at hbuilt
    split at hbuilt
    · next hneeds => exact ⟨index, action, inst, spec, view, rfl, hview, hneeds.2, eq_ok_of_toOption hbuilt⟩
    · cases hbuilt

theorem types_after (session : Session) {operations : List Operation} (h : ∀ spec, .redeclare key spec ∉ operations) :
    (session.after operations).types.lookup key = session.types.lookup key := by
  induction operations generalizing session with
  | nil => rfl
  | cons operation rest ih =>
    rw [after_cons, ih _ fun spec hmem ↦ h spec (List.mem_cons_of_mem _ hmem), types_next]
    exact fun spec heq ↦ h spec (heq ▸ List.mem_cons_self)

/-- In a session that begins with a new registry the mapping of a type is built when it is needed, or has been built from
what the type declared at some point of the run. -/
theorem build_now_or_before (hfresh : start.IsFresh) (operations : List Operation) {declaration : Declaration}
    (h : ((start.after operations).registry.mapping key declaration).result = .ok mapping) :
    Mapping.build declaration start.registry.settings = .ok mapping ∨ ∃ before rest spec, operations = before ++ rest ∧
      (start.after before).types.lookup key = some spec ∧
      Mapping.build spec.declaration start.registry.settings = .ok mapping := by
  rcases Registry.mapping_result_eq_ok h with hcached | ⟨-, hbuild⟩
  · rcases (mapping?_after_eq_some start operations).mp hcached with hstart | ⟨before, operation, rest, heq, -, hbuilt⟩
    · rw [Registry.mapping?, hfresh.1] at hstart
      cases hstart
    · obtain ⟨_, _, inst, spec, _, -, hview, rfl, hbuild⟩ := exists_view_of_built? hbuilt
      obtain ⟨-, hspec, -⟩ := view?_eq_some.mp hview
      exact .inr ⟨before, operation :: rest, spec, heq, hspec, settings_after start before ▸ hbuild⟩
  · exact .inl (settings_after start operations ▸ hbuild)

theorem exists_build (hfresh : start.IsFresh) (operations : List Operation) {declaration : Declaration}
    (h : ((start.after operations).registry.mapping key declaration).result = .ok mapping) :
    ∃ source, Mapping.build source start.registry.settings = .ok mapping := by
  rcases build_now_or_before hfresh operations h with hbuild | ⟨-, -, spec, -, -, hbuild⟩
  · exact ⟨declaration, hbuild⟩
  · exact ⟨spec.declaration, hbuild⟩

/-- If a type is not declared anew, its mapping is built from what it declares. -/
theorem build_of_kept (hfresh : start.IsFresh) (hspec : start.types.lookup key = some spec) {operations : List Operation}
    (hkept : ∀ other, .redeclare key other ∉ operations)
    (h : ((start.after operations).registry.mapping key spec.declaration).result = .ok mapping) :
    Mapping.build spec.declaration start.registry.settings = .ok mapping := by
  rcases build_now_or_before hfresh operations h with hbuild | ⟨before, rest, found, rfl, hfound, hbuild⟩
  · exact hbuild
  · rw [types_after start fun other hmem ↦ hkept other (List.mem_append_left _ hmem), hspec] at hfound
    cases hfound
    exact hbuild

/-- What an action on a view leaves and answers when it works with a mapping. The declaration of the view's type does not
occur. -/
def Serves (session : Session) (index : Nat) (inst : Instance) (view : View) (mapping : Mapping) (step : Step) :
    Action → Prop
  | .matchPath path =>
    let bound := mapping.bind (session.registry.producersOf inst.type) view path
    step.answer = bound.result.map .outcome ∧ step.session.registry.producers = session.registry.producers ∧
      step.session.instances =
        session.instances.set index { inst with values := bound.view.values, matched := bound.view.matched }
  | .format template arguments =>
    step.answer = (Template.render mapping view template arguments session.registry.settings).map .text ∧
      step.session.registry.producers = session.registry.producers ∧ step.session.instances = session.instances
  | .setDynamic name producer =>
    step.session.instances = session.instances ∧
      match mapping.find? name with
      | none => step.answer = .error (.configuration (.unknownDynamic name mapping.owner)) ∧
        step.session.registry.producers = session.registry.producers
      | some descriptor =>
        if descriptor.dynamic then step.answer = .ok .done ∧ step.session.registry.producers =
          ((inst.type, name), producer) :: session.registry.producers.filter (·.1 != (inst.type, name))
        else step.answer = .error (.configuration (.notDynamic name mapping.owner)) ∧
          step.session.registry.producers = session.registry.producers
  | .mapping => step.answer = .ok (.mapping mapping) ∧ step.session.registry.producers = session.registry.producers ∧
      step.session.instances = session.instances
  | _ => False

theorem serves_act (hview : session.view? index = some (inst, spec, view)) (hbuilds : action.builds = true)
    (h : (session.registry.mapping inst.type spec.declaration).result = .ok mapping) :
    session.Serves index inst view mapping (session.act index inst spec view action) action := by
  have hproducers := session.registry.producers_mapping inst.type spec.declaration
  have hinstances := withView_self hview
  cases action with
  | matchPath path =>
    rw [Serves, act, actWith, Registry.matchWith_of_mapping h]
    exact ⟨rfl, hproducers, rfl⟩
  | format template arguments =>
    rw [Serves, act, actWith, Registry.format, Registry.withMapping_of_mapping h]
    refine ⟨?_, hproducers, hinstances⟩
    exact congrArg (fun settings ↦ (Template.render mapping view template arguments settings).map Answer.text)
      (session.registry.settings_mapping inst.type spec.declaration)
  | setDynamic name producer =>
    rw [Serves, act, actWith, Registry.setDynamicRegex, Registry.withMapping_of_mapping h]
    refine ⟨hinstances, ?_⟩
    dsimp only [withView, ofRegistry]
    cases mapping.find? name with
    | none => exact ⟨rfl, hproducers⟩
    | some descriptor =>
      dsimp only
      split
      · rw [hproducers]
        exact ⟨rfl, rfl⟩
      · exact ⟨rfl, hproducers⟩
  | mapping =>
    rw [Serves, act, actWith]
    refine ⟨?_, hproducers, hinstances⟩
    dsimp only [ofRegistry]
    rw [h]
    rfl
  | _ => cases hbuilds

theorem act_of_fault (hview : session.view? index = some (inst, spec, view)) (hbuilds : action.builds = true)
    (hnone : session.registry.mapping? inst.type = none) {e : Error}
    (hbuild : Mapping.build spec.declaration session.registry.settings = .error e) :
    session.act index inst spec view action = ⟨session, [], .error e⟩ := by
  rw [act, actWith_of_fault View.access session inst.type spec.declaration view hbuilds hnone hbuild]
  dsimp only [withView]
  rw [withView_self hview]

theorem mapping?_of_isCached (h : session.registry.isCached key = false) : session.registry.mapping? key = none := by
  rwa [Registry.isCached, Option.isSome_eq_false_iff, Option.isNone_iff_eq_none] at h

/-- In a session that begins with a new registry a type has a mapping exactly if some operation on it has built one. -/
theorem isCached_after_iff (hfresh : start.IsFresh) (operations : List Operation) :
    (start.after operations).registry.isCached key = true ↔ ∃ before operation rest,
      operations = before ++ operation :: rest ∧ ((start.after before).built? key operation).isSome := by
  have hstart : start.registry.mapping? key = none := by
    rw [Registry.mapping?, hfresh.1]
    rfl
  constructor
  · intro hcached
    obtain ⟨mapping, hmapping⟩ := Option.isSome_iff_exists.mp hcached
    rcases (mapping?_after_eq_some start operations).mp hmapping with h | ⟨before, operation, rest, heq, -, hbuilt⟩
    · cases hstart.symm.trans h
    · exact ⟨before, operation, rest, heq, Option.isSome_iff_exists.mpr ⟨mapping, hbuilt⟩⟩
  · rintro ⟨before, operation, rest, rfl, hbuilt⟩
    obtain ⟨mapping, hbuilt⟩ := Option.isSome_iff_exists.mp hbuilt
    have hnext : ((start.after before).next operation).registry.isCached key = true := by
      rw [Registry.isCached, mapping?_next, hbuilt, Option.or_some]
      rfl
    obtain ⟨kept, hkept⟩ := Option.isSome_iff_exists.mp hnext
    have hlast := mapping?_after_of_some hkept rest
    rw [← after_cons, ← after_append] at hlast
    exact Option.isSome_iff_exists.mpr ⟨kept, hlast⟩

/-- Assumes: a session begins with a new registry. After any run a type has a mapping exactly if some operation on it has
built one, and it is the mapping that the first of them built from the declaration of that moment. While there is none,
an action that needs one reports the fault of the current declaration and changes nothing, or works with the mapping that
it builds; with a mapping, an action works with it, whatever the type declares. -/
theorem first_build_kept (hfresh : start.IsFresh) (key : TypeKey) (operations : List Operation) :
    let session := start.after operations
    (session.registry.isCached key = true ↔ ∃ before operation rest, operations = before ++ operation :: rest ∧
      ((start.after before).built? key operation).isSome) ∧
    (∀ before operation rest mapping, operations = before ++ operation :: rest →
      (start.after before).registry.isCached key = false → (start.after before).built? key operation = some mapping →
        session.registry.mapping? key = some mapping) ∧
    ∀ index inst spec view, session.view? index = some (inst, spec, view) → inst.type = key → ∀ action, ∃ step,
      session.step? (.act index action) = some step ∧
      (action = .isCached → step.answer = .ok (.flag (session.registry.isCached key))) ∧
      (action.builds = true →
        (∀ mapping, session.registry.mapping? key = some mapping →
          session.Serves index inst view mapping step action) ∧
        (session.registry.isCached key = false →
          (∀ e, Mapping.build spec.declaration start.registry.settings = .error e →
            step.answer = .error e ∧ step.session = session) ∧
          ∀ mapping, Mapping.build spec.declaration start.registry.settings = .ok mapping →
            step.session.registry.mapping? key = some mapping ∧ session.Serves index inst view mapping step action)) := by
  intro session
  refine ⟨isCached_after_iff hfresh operations, ?_, ?_⟩
  · intro before operation rest mapping heq hcached hbuilt
    have hnone := mapping?_of_isCached hcached
    exact (mapping?_after_eq_some start operations).mpr (.inr ⟨before, operation, rest, heq, hnone, hbuilt⟩)
  · intro index inst spec view hview hkey action
    subst hkey
    refine ⟨_, step?_act hview action, ?_, fun hbuilds ↦ ⟨fun mapping hmapping ↦ ?_, fun hcached ↦ ⟨?_, ?_⟩⟩⟩
    · rintro rfl
      rfl
    · exact serves_act hview hbuilds (congrArg Registry.Step.result (Registry.mapping_of_cached hmapping spec.declaration))
    · intro e hbuild
      rw [← settings_after start operations] at hbuild
      rw [act_of_fault hview hbuilds (mapping?_of_isCached hcached) hbuild]
      exact ⟨rfl, rfl⟩
    · intro mapping hbuild
      rw [← settings_after start operations] at hbuild
      have hmapping := Registry.mapping_of_build (mapping?_of_isCached hcached) hbuild
      constructor
      · rw [← next_act hview, mapping?_next, mapping?_of_isCached hcached, Option.none_or,
          built?_of_view hview hbuilds, hbuild]
        rfl
      · exact serves_act hview hbuilds (congrArg Registry.Step.result hmapping)

/-- Users by name, who are declared with a misspelt pattern first. -/
def users : Session :=
  { registry := { settings := {} }
    types := [(.declared 0, ⟨⟨"Users", [{ name := "user", kind := .string }], [{ pattern := "user/:usr" }], none⟩,
      ⟨.anyExcept [], true⟩⟩)]
    instances := [⟨.declared 0, [], none⟩] }

/-- The pattern of users, as it was meant to be. -/
def spelled : TypeSpec :=
  ⟨⟨"Users", [{ name := "user", kind := .string }], [{ pattern := "user/:user" }], none⟩, ⟨.anyExcept [], true⟩⟩

/-- The misspelt pattern leaves nothing behind, and the mapping of the right one stays when the type declares a third. -/
theorem first_build_users : users.IsFresh ∧
    (users.after [.act 0 (.matchPath "user/a"), .redeclare (.declared 0) spelled]).registry.isCached (.declared 0) = false ∧
    ∃ mapping, Mapping.build spelled.declaration {} = .ok mapping ∧
      (users.after [.act 0 (.matchPath "user/a"), .redeclare (.declared 0) spelled, .act 0 (.format "user/:user" []),
        .redeclare (.declared 0) { spelled with declaration := { spelled.declaration with patterns := [] } },
        .act 0 (.matchPath "user/b")]).registry.mapping? (.declared 0) = some mapping := by
  let before : List Operation := [.act 0 (.matchPath "user/a"), .redeclare (.declared 0) spelled]
  have hfresh : users.IsFresh := ⟨rfl, rfl⟩
  have hcached : (users.after before).registry.isCached (.declared 0) = false := by decide +kernel
  have hview : (users.after before).view? 0 =
      some (⟨.declared 0, [], none⟩, spelled, ⟨spelled.viewType, [], none⟩) := by
    decide +kernel
  have hbuild : (Mapping.build spelled.declaration {}).toOption.isSome := by decide +kernel
  obtain ⟨mapping, hmapping⟩ := Option.isSome_iff_exists.mp hbuild
  have hsettings : (users.after before).registry.settings = {} := settings_after users before
  have hbuilt := built?_of_view hview (rfl : (Action.format "user/:user" []).builds = true)
  rw [hsettings, hmapping] at hbuilt
  let rest : List Operation :=
    [.redeclare (.declared 0) { spelled with declaration := { spelled.declaration with patterns := [] } },
      .act 0 (.matchPath "user/b")]
  obtain ⟨-, hkept, -⟩ := first_build_kept hfresh (.declared 0) (before ++ .act 0 (.format "user/:user" []) :: rest)
  have hlast := hkept before (.act 0 (.format "user/:user" [])) rest mapping rfl hcached hbuilt
  exact ⟨hfresh, hcached, mapping, eq_ok_of_toOption hmapping, hlast⟩

end Session

end PathBinding
