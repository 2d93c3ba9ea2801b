import PathBinding.Binding
import PathBinding.Proofs.Mapping

/-!
What binding asks of a mapping. Conversion and clearing depend on the names and kinds of parameters (`convert_congr`,
`apply_congr`), and what they refuse is a fault of the path or of the view but never of the declaration
(`isRefusal_apply`). A match goes through three steps, and where one fails nothing is bound, whatever the accessors are
(`bindWith_of_unresolved`, `bindWith_of_rejected`, `bindWith_of_regexOf`).
-/

set_option autoImplicit false
set_option relaxedAutoImplicit false

namespace PathBinding

/-- A value cannot be read, or the view does not take it. -/
def Error.IsRefusal (e : Error) : Prop :=
  e.category = .coercion ∨ e.category = .configuration

theorem Error.IsRefusal.isBuildError {e : Error} (h : e.IsRefusal) : e.isBuildError = false := by
  rw [Error.isBuildError]
  rcases h with h | h <;> rw [h] <;> rfl

namespace Mapping

variable {mapping other : Mapping}

theorem find?_kind (h : mapping.parameters.map Descriptor.shape = other.parameters.map Descriptor.shape) (name : String) :
    (mapping.find? name).map Descriptor.shape = (other.find? name).map Descriptor.shape := by
  have hshape (m : Mapping) : (m.find? name).map Descriptor.shape =
      (m.parameters.map Descriptor.shape).find? (·.1 == name) := by
    rw [List.find?_map]
    rfl
  rw [hshape, hshape, h]

/-- Conversion asks for the kinds of parameters only. -/
theorem convert_congr (h : mapping.parameters.map Descriptor.shape = other.parameters.map Descriptor.shape)
    (captured : List (String × String)) : mapping.convert captured = other.convert captured := by
  induction captured with
  | nil => rfl
  | cons p rest ih =>
    obtain ⟨name, raw⟩ := p
    have hfound := find?_kind h name
    rw [convert, convert]
    cases hfind : mapping.find? name with
    | none =>
      rw [hfind] at hfound
      rw [Option.map_eq_none_iff.mp hfound.symm]
      exact ih
    | some descriptor =>
      rw [hfind] at hfound
      obtain ⟨descriptor', hfind', hshape⟩ := Option.map_eq_some_iff.mp hfound.symm
      have hkind : descriptor'.kind = descriptor.kind := congrArg Prod.snd hshape
      rw [hfind']
      dsimp only
      rw [hkind, ih]

/-- What is written to parameters depends on their names only. -/
theorem writes_congr {descriptors others : List Descriptor} (h : descriptors.map (·.name) = others.map (·.name))
    (values : List (String × Value)) : writes descriptors values = writes others values := by
  induction descriptors generalizing others values with
  | nil =>
    obtain rfl : others = [] := List.map_eq_nil_iff.mp h.symm
    rfl
  | cons descriptor rest ih =>
    cases others with
    | nil => cases h
    | cons other others =>
      obtain ⟨hname, hrest⟩ := List.cons.inj h
      have hname : descriptor.name = other.name := hname
      have hrest := ih hrest
      rw [writes, writes, hname]
      simp only [hrest]

theorem apply_congr (h : mapping.parameters.map Descriptor.shape = other.parameters.map Descriptor.shape)
    (howner : mapping.owner = other.owner) (hnoMatch : mapping.noMatch = other.noMatch) (selection : Selection)
    (view : View) : mapping.apply selection view = other.apply selection view := by
  have hnames : mapping.parameters.map (·.name) = other.parameters.map (·.name) := by
    have hmapped := congrArg (List.map Prod.fst) h
    rwa [List.map_map, List.map_map] at hmapped
  have hcleared : (mapping.parameters.map fun d ↦ (d.name, (none : Option Value))) =
      other.parameters.map fun d ↦ (d.name, none) := by
    have hmapped := congrArg (List.map fun name ↦ (name, (none : Option Value))) hnames
    rwa [List.map_map, List.map_map] at hmapped
  unfold apply applyWith
  cases selection.winner with
  | none =>
    dsimp only
    rw [howner, hnoMatch, hcleared]
  | some winner =>
    dsimp only
    rw [convert_congr h, howner]
    cases other.convert selection.captured with
    | error e => rfl
    | ok values =>
      dsimp only
      rw [writes_congr hnames]

theorem isRefusal_setEach {view next : View} {values : List (String × Option Value)} {e : Error}
    (h : View.access.setEach view values = (next, some e)) : e.IsRefusal := by
  induction values generalizing view with
  | nil => cases h
  | cons p rest ih =>
    obtain ⟨name, value?⟩ := p
    rw [View.setEach_cons] at h
    cases hset : view.set name value? with
    | ok set =>
      rw [hset] at h
      exact ih h
    | error fault =>
      rw [hset] at h
      cases h
      unfold View.set at hset
      split at hset
      · split at hset <;> cases hset
        exact .inr rfl
      · split at hset
        · cases hset
          exact .inr rfl
        · next kind _ =>
          unfold Kind.assign at hset
          split at hset
          · cases hset
          · split at hset <;> cases hset
            exact .inl rfl

/-- What stops the conversion of captured text is a fault of that text. -/
theorem coercion_of_convert {captured : List (String × String)} {name raw : String} {e : Error}
    (h : mapping.convert captured = .error (name, raw, e)) : ∃ fault, e = .coercion name raw fault := by
  induction captured with
  | nil => cases h
  | cons p rest ih =>
    obtain ⟨own, text⟩ := p
    rw [convert] at h
    cases hfind : mapping.find? own with
    | none =>
      rw [hfind] at h
      exact ih h
    | some descriptor =>
      rw [hfind] at h
      dsimp only at h
      cases hparse : descriptor.kind.parse own text with
      | error fault =>
        rw [hparse] at h
        cases h
        unfold Kind.parse at hparse
        split at hparse <;> cases hparse
        exact ⟨_, rfl⟩
      | ok value =>
        rw [hparse] at h
        cases hrest : mapping.convert rest with
        | error fault =>
          rw [hrest] at h
          cases h
          exact ih hrest
        | ok values =>
          rw [hrest] at h
          cases h

theorem isRefusal_convert {captured : List (String × String)} {name raw : String} {e : Error}
    (h : mapping.convert captured = .error (name, raw, e)) : e.IsRefusal := by
  obtain ⟨fault, rfl⟩ := coercion_of_convert h
  exact .inl rfl

/-- A match that fails after a selection fails for a value. -/
theorem isRefusal_apply {selection : Selection} {view : View} {e : Error}
    (h : (mapping.apply selection view).result = .error e) : e.IsRefusal := by
  unfold apply applyWith at h
  split at h
  · split at h
    · next hset =>
      cases h
      exact isRefusal_setEach hset
    · cases h
  · split at h
    · next hconvert =>
      cases h
      exact isRefusal_convert hconvert
    · split at h
      · next hset =>
        cases h
        exact isRefusal_setEach hset
      · cases h

section

variable {σ : Type} (access : Access σ) {producers : Producers} {target : σ} {assembled : Assembly} {regex : Regex}
  {e : Error}

theorem bindWith_of_unresolved (h : mapping.assemble? producers (access.shown target) = .error e) (path : String) :
    mapping.bindWith access producers target path = ⟨target, [], .error e⟩ := by
  unfold bindWith
  rw [h]

theorem bindWith_of_rejected (hassemble : mapping.assemble? producers (access.shown target) = .ok assembled)
    (h : mapping.regexOf assembled = .error e) (path : String) :
    mapping.bindWith access producers target path = ⟨target, mapping.assemblyEvents assembled, .error e⟩ := by
  unfold bindWith
  rw [hassemble]
  dsimp only
  rw [h]

/-- A binding with an expression tells of the assembly and the match, and ends as the values are written. -/
theorem bindWith_of_regexOf (hassemble : mapping.assemble? producers (access.shown target) = .ok assembled)
    (hregex : mapping.regexOf assembled = .ok regex) (path : String) :
    mapping.bindWith access producers target path =
      let applied := mapping.applyWith access (mapping.select regex path) target
      ⟨applied.view, mapping.assemblyEvents assembled ++ mapping.selectionEvents path (mapping.select? regex path) ++
        applied.events, applied.result⟩ := by
  unfold bindWith select
  rw [hassemble]
  dsimp only
  rw [hregex]

end

/-! ### Views -/

variable {producers : Producers} {view : View} {assembled : Assembly} {regex : Regex} {e : Error}

theorem bind_of_unresolved (h : mapping.assemble? producers view = .error e) (path : String) :
    mapping.bind producers view path = ⟨view, [], .error e⟩ :=
  bindWith_of_unresolved View.access h path

theorem bind_of_rejected (hassemble : mapping.assemble? producers view = .ok assembled)
    (h : mapping.regexOf assembled = .error e) (path : String) :
    mapping.bind producers view path = ⟨view, mapping.assemblyEvents assembled, .error e⟩ :=
  bindWith_of_rejected View.access hassemble h path

theorem bind_of_regexOf (hassemble : mapping.assemble? producers view = .ok assembled)
    (hregex : mapping.regexOf assembled = .ok regex) (path : String) : mapping.bind producers view path =
      let applied := mapping.apply (mapping.select regex path) view
      ⟨applied.view, mapping.assemblyEvents assembled ++ mapping.selectionEvents path (mapping.select? regex path) ++
        applied.events, applied.result⟩ :=
  bindWith_of_regexOf View.access hassemble hregex path

theorem assemble?_of_static {text : String} (h : mapping.source = .static text regex) (producers : Producers)
    (view : View) : mapping.assemble? producers view = .ok (.ready regex) := by
  unfold assemble?
  rw [h]

theorem bind_of_static {text : String} (h : mapping.source = .static text regex) (producers : Producers) (view : View)
    (path : String) : mapping.bind producers view path =
      let applied := mapping.apply (mapping.select regex path) view
      ⟨applied.view, mapping.selectionEvents path (mapping.select? regex path) ++ applied.events, applied.result⟩ := by
  rw [bind_of_regexOf (assemble?_of_static h producers view) rfl]
  dsimp only [assemblyEvents]
  rw [List.nil_append]

end Mapping

end PathBinding
