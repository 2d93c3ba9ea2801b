import PathBinding.Proofs.Mapping
import PathBinding.Proofs.View
import PathBinding.Registry

/-!
The mappings of a registry. A type gets a mapping when one is needed, there is none yet and its declaration compiles, and
no other mapping is changed by that (`mapping?_mapping`). With the mapping at hand an operation goes on with it, and
without one it ends with the fault of the declaration (`matchWith_of_mapping`, `matchWith_of_fault`).
-/

set_option autoImplicit false
set_option relaxedAutoImplicit false

namespace PathBinding

namespace Registry

/-! ### Producers by type -/

/-- The producers of a type among all. -/
def producersIn (key : TypeKey) (producers : List ((TypeKey × String) × Producer)) : Producers :=
  producers.filterMap fun ((type, name), producer) ↦ if type = key then some (name, producer) else none

theorem producersOf_eq (registry : Registry) (key : TypeKey) :
    registry.producersOf key = producersIn key registry.producers :=
  rfl

theorem producersIn_cons_self (key : TypeKey) (name : String) (producer : Producer)
    (rest : List ((TypeKey × String) × Producer)) :
    producersIn key (((key, name), producer) :: rest) = (name, producer) :: producersIn key rest :=
  List.filterMap_cons_some (if_pos rfl)

theorem producersIn_cons_of_ne {type key : TypeKey} (h : type ≠ key) (name : String) (producer : Producer)
    (rest : List ((TypeKey × String) × Producer)) :
    producersIn key (((type, name), producer) :: rest) = producersIn key rest :=
  List.filterMap_cons_none (if_neg h)

/-- The last producer of a parameter of a type is the last one of the parameter among those of the type. -/
theorem lookup_producersIn (key : TypeKey) (name : String) (producers : List ((TypeKey × String) × Producer)) :
    (producersIn key producers).lookup name = producers.lookup (key, name) := by
  induction producers with
  | nil => rfl
  | cons entry rest ih =>
    obtain ⟨⟨type, own⟩, producer⟩ := entry
    rw [List.lookup_cons]
    by_cases htype : type = key
    · subst htype
      rw [producersIn_cons_self, List.lookup_cons, ih]
      by_cases hname : name = own
      · rw [hname, beq_self_eq_true, beq_self_eq_true]
      · have hentry : (type, name) ≠ (type, own) := fun h ↦ hname (Prod.mk.inj h).2
        rw [beq_eq_false_iff_ne.mpr hname, beq_eq_false_iff_ne.mpr hentry]
    · have hentry : (key, name) ≠ (type, own) := fun h ↦ htype (Prod.mk.inj h).1.symm
      rw [producersIn_cons_of_ne htype, beq_eq_false_iff_ne.mpr hentry]
      exact ih

/-- Without the producers of a parameter a type is left with those of its other parameters. -/
theorem producersIn_filter (key type : TypeKey) (name : String) (producers : List ((TypeKey × String) × Producer)) :
    producersIn key (producers.filter (·.1 != (type, name))) =
      if type = key then (producersIn key producers).filter (·.1 != name) else producersIn key producers := by
  induction producers with
  | nil => exact (ite_self _).symm
  | cons entry rest ih =>
    obtain ⟨⟨other, own⟩, producer⟩ := entry
    by_cases hother : other = key
    · subst hother
      by_cases htype : type = other
      · subst htype
        rw [if_pos rfl] at ih ⊢
        by_cases hname : own = name
        · rw [hname, List.filter_cons_of_neg (by simp), producersIn_cons_self, List.filter_cons_of_neg (by simp), ih]
        · rw [List.filter_cons_of_pos (by simpa using hname), producersIn_cons_self, producersIn_cons_self,
            List.filter_cons_of_pos (by simpa using hname), ih]
      · rw [if_neg htype] at ih ⊢
        have hkept : ((other, own) != (type, name)) = true := bne_iff_ne.mpr fun h ↦ htype (Prod.mk.inj h).1.symm
        rw [List.filter_cons, if_pos hkept, producersIn_cons_self, producersIn_cons_self, ih]
    · rw [producersIn_cons_of_ne hother, ← ih, List.filter_cons]
      split
      · exact producersIn_cons_of_ne hother own producer _
      · rfl

variable {registry : Registry} {key : TypeKey} {declaration : Declaration}

theorem mapping_of_cached {mapping : Mapping} (h : registry.mapping? key = some mapping) (declaration : Declaration) :
    registry.mapping key declaration = ⟨registry, [], .ok mapping⟩ := by
  rw [Registry.mapping, h]

theorem mapping_of_fault {e : Error} (h : registry.mapping? key = none)
    (hbuild : Mapping.build declaration registry.settings = .error e) :
    registry.mapping key declaration = ⟨registry, [], .error e⟩ := by
  rw [Registry.mapping, h]
  dsimp only
  rw [hbuild]

theorem mapping_of_build {mapping : Mapping} (h : registry.mapping? key = none)
    (hbuild : Mapping.build declaration registry.settings = .ok mapping) :
    registry.mapping key declaration = ⟨{ registry with mappings := (key, mapping) :: registry.mappings },
      [⟨.built mapping.owner mapping.patterns.length mapping.isDynamic, none⟩], .ok mapping⟩ := by
  rw [Registry.mapping, h]
  dsimp only
  rw [hbuild]
  rfl

@[simp] theorem settings_mapping (registry : Registry) (key : TypeKey) (declaration : Declaration) :
    (registry.mapping key declaration).registry.settings = registry.settings := by
  unfold Registry.mapping
  split
  · rfl
  · split <;> rfl

@[simp] theorem producers_mapping (registry : Registry) (key : TypeKey) (declaration : Declaration) :
    (registry.mapping key declaration).registry.producers = registry.producers := by
  unfold Registry.mapping
  split
  · rfl
  · split <;> rfl

/-- A build adds the mapping of a type that has none, and changes no other. -/
theorem mapping?_mapping (registry : Registry) (key : TypeKey) (declaration : Declaration) (other : TypeKey) :
    (registry.mapping key declaration).registry.mapping? other = (registry.mapping? other).or
      (if key = other then (Mapping.build declaration registry.settings).toOption else none) := by
  cases hcached : registry.mapping? key with
  | some mapping =>
    rw [mapping_of_cached hcached]
    by_cases hkey : key = other
    · rw [← hkey, hcached, Option.some_or]
    · rw [if_neg hkey, Option.or_none]
  | none =>
    cases hbuild : Mapping.build declaration registry.settings with
    | error e =>
      rw [mapping_of_fault hcached hbuild]
      dsimp only [Except.toOption]
      rw [ite_self, Option.or_none]
    | ok mapping =>
      rw [mapping_of_build hcached hbuild]
      dsimp only [Except.toOption, mapping?]
      by_cases hkey : key = other
      · subst hkey
        rw [mapping?] at hcached
        rw [List.lookup_cons_self, hcached, if_pos rfl, Option.none_or]
      · rw [List.lookup_cons, beq_eq_false_iff_ne.mpr (Ne.symm hkey), if_neg hkey, Option.or_none]

/-- The mapping at hand comes from the registry, or has been built just now. -/
theorem mapping_result_eq_ok {mapping : Mapping} (h : (registry.mapping key declaration).result = .ok mapping) :
    registry.mapping? key = some mapping ∨
      registry.mapping? key = none ∧ Mapping.build declaration registry.settings = .ok mapping := by
  cases hcached : registry.mapping? key with
  | some cached =>
    rw [mapping_of_cached hcached] at h
    cases h
    exact .inl rfl
  | none =>
    cases hbuild : Mapping.build declaration registry.settings with
    | error e =>
      rw [mapping_of_fault hcached hbuild] at h
      cases h
    | ok built =>
      rw [mapping_of_build hcached hbuild] at h
      cases h
      exact .inr ⟨rfl, rfl⟩

/-- Only the build of a type without a mapping fails. -/
theorem mapping_result_eq_error {e : Error} (h : (registry.mapping key declaration).result = .error e) :
    registry.mapping? key = none ∧ Mapping.build declaration registry.settings = .error e := by
  cases hcached : registry.mapping? key with
  | some cached =>
    rw [mapping_of_cached hcached] at h
    cases h
  | none =>
    cases hbuild : Mapping.build declaration registry.settings with
    | error fault =>
      rw [mapping_of_fault hcached hbuild] at h
      cases h
      exact ⟨rfl, rfl⟩
    | ok built =>
      rw [mapping_of_build hcached hbuild] at h
      cases h

/-- The mapping at hand is kept. -/
theorem mapping?_of_result {mapping : Mapping} (h : (registry.mapping key declaration).result = .ok mapping) :
    (registry.mapping key declaration).registry.mapping? key = some mapping := by
  rw [mapping?_mapping, if_pos rfl]
  rcases mapping_result_eq_ok h with hcached | ⟨hnone, hbuild⟩
  · rw [hcached, Option.some_or]
  · rw [hnone, Option.none_or, hbuild]
    rfl

/-! ### Operations with a mapping at hand -/

section Found

variable {mapping : Mapping} (h : (registry.mapping key declaration).result = .ok mapping)

include h

theorem matchWith_of_mapping {σ : Type} (access : Access σ) (target : σ) (path : String) :
    registry.matchWith access key declaration target path =
      let bound := mapping.bindWith access (registry.producersOf key) target path
      (bound.view, ⟨(registry.mapping key declaration).registry, (registry.mapping key declaration).trace ++
        bound.events.map (⟨·, some ⟨mapping.owner, path⟩⟩), bound.result⟩) := by
  have hproducers : (registry.mapping key declaration).registry.producersOf key = registry.producersOf key := by
    rw [producersOf_eq, producers_mapping, ← producersOf_eq]
  unfold matchWith
  dsimp only
  rw [h]
  dsimp only
  rw [hproducers]

theorem matchPath_of_mapping (view : View) (path : String) : registry.matchPath key declaration view path =
    let bound := mapping.bind (registry.producersOf key) view path
    (bound.view, ⟨(registry.mapping key declaration).registry,
      (registry.mapping key declaration).trace ++ bound.events.map (⟨·, some ⟨mapping.owner, path⟩⟩), bound.result⟩) :=
  matchWith_of_mapping h View.access view path

theorem withMapping_of_mapping {α : Type} (next : Registry → Mapping → Step α) :
    registry.withMapping key declaration next =
      let second := next (registry.mapping key declaration).registry mapping
      ⟨second.registry, (registry.mapping key declaration).trace ++ second.trace, second.result⟩ := by
  unfold withMapping
  dsimp only
  rw [h]

end Found

theorem matchWith_of_fault {e : Error} (h : (registry.mapping key declaration).result = .error e) {σ : Type}
    (access : Access σ) (target : σ) (path : String) : registry.matchWith access key declaration target path =
      (target, ⟨(registry.mapping key declaration).registry, (registry.mapping key declaration).trace, .error e⟩) := by
  unfold matchWith
  dsimp only
  rw [h]

theorem matchPath_of_fault {e : Error} (h : (registry.mapping key declaration).result = .error e) (view : View)
    (path : String) : registry.matchPath key declaration view path =
      (view, ⟨(registry.mapping key declaration).registry, (registry.mapping key declaration).trace, .error e⟩) :=
  matchWith_of_fault h View.access view path

theorem withMapping_of_fault {e : Error} (h : (registry.mapping key declaration).result = .error e) {α : Type}
    (next : Registry → Mapping → Step α) : registry.withMapping key declaration next =
      ⟨(registry.mapping key declaration).registry, (registry.mapping key declaration).trace, .error e⟩ := by
  unfold withMapping
  dsimp only
  rw [h]

/-- A registration puts its producer in place of any other for the parameter, or it fails, for the declaration or for
the name of the parameter, and leaves the producers alone. -/
theorem setDynamicRegex_cases (registry : Registry) (key : TypeKey) (declaration : Declaration) (name : String)
    (producer : Producer) :
    let first := registry.mapping key declaration
    let step := registry.setDynamicRegex key declaration name producer
    (∃ mapping descriptor, first.result = .ok mapping ∧ mapping.find? name = some descriptor ∧
      descriptor.dynamic = true ∧ step.result = .ok () ∧ step.registry = { first.registry with
        producers := ((key, name), producer) :: registry.producers.filter (·.1 != (key, name)) }) ∨
    ∃ e, step.result = .error e ∧ step.registry = first.registry ∧
      (first.result = .error e ∨ e.category = .configuration) := by
  intro first step
  have hstep : step = registry.setDynamicRegex key declaration name producer := rfl
  unfold setDynamicRegex at hstep
  cases hresult : (registry.mapping key declaration).result with
  | error e =>
    rw [withMapping_of_fault hresult] at hstep
    rw [hstep]
    exact .inr ⟨e, rfl, rfl, .inl rfl⟩
  | ok mapping =>
    rw [withMapping_of_mapping hresult] at hstep
    cases hfind : mapping.find? name with
    | none =>
      rw [hstep, hfind]
      exact .inr ⟨_, rfl, rfl, .inr rfl⟩
    | some descriptor =>
      rw [hfind] at hstep
      dsimp only at hstep
      cases hdynamic : descriptor.dynamic with
      | false =>
        rw [hstep, hdynamic]
        exact .inr ⟨_, rfl, rfl, .inr rfl⟩
      | true =>
        rw [hdynamic, if_pos rfl] at hstep
        refine .inl ⟨mapping, descriptor, rfl, hfind, hdynamic, congrArg Step.result hstep, ?_⟩
        rw [hstep, producers_mapping]

end Registry

end PathBinding
