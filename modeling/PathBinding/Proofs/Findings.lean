import Mathlib.Data.List.Nodup
import PathBinding.Derivation

/-!
What a derived binding has from the fields of its structure. Fields are gone through once, and each adds what it declares
to what the fields before it have declared. So a derived binding has one parameter for each field that declares one, in the
order of the fields (`Structure.parameters_of_derive`), and a parameter is kept in the field that declares it
(`Field.declares`).
-/

set_option autoImplicit false
set_option relaxedAutoImplicit false

namespace PathBinding.Derivation

/-- The parameter of a field, if the field declares one and is not at fault. -/
def Field.declared? (field : Field) : Option Parameter :=
  field.parameter?.bind fun items ↦ (field.parameter items).toOption

namespace Field

variable {field : Field} {items : List Item} {p : Parameter}

/-- A parameter is named by an option or else like its field, in which it is kept. -/
theorem declares (h : field.parameter items = .ok p) :
    p.name = (ParameterOptions.read items).1.name?.getD field.name ∧ p.field = field.name := by
  unfold parameter at h
  dsimp only at h
  split at h
  · split at h
    · cases h
      exact ⟨rfl, rfl⟩
    · cases h
  · cases h

theorem declared?_eq_some_iff :
    field.declared? = some p ↔ ∃ items, field.parameter? = some items ∧ field.parameter items = .ok p := by
  rw [declared?, Option.bind_eq_some_iff]
  refine exists_congr fun items ↦ and_congr_right fun _ ↦ ?_
  cases field.parameter items <;> simp [Except.toOption]

theorem field_of_declared? (h : field.declared? = some p) : p.field = field.name := by
  obtain ⟨items, -, hitems⟩ := declared?_eq_some_iff.mp h
  exact (declares hitems).2

end Field

namespace Findings

theorem parameters_addField (found : Findings) (field : Field) :
    (found.addField field).parameters = found.parameters ++ field.declared?.toList := by
  have hmatched (found : Findings) : (found.addMatched field).parameters = found.parameters := by
    unfold addMatched
    split_ifs <;> rfl
  rw [addField, hmatched, addParameter, Field.declared?]
  cases field.parameter? with
  | none => exact (List.append_nil _).symm
  | some items =>
    dsimp only [Option.map_some, Option.bind_some]
    cases field.parameter items with
    | ok p => rfl
    | error complaints => exact (List.append_nil _).symm

/-- Fields add what they declare in their order. -/
theorem parameters_foldl (found : Findings) (fields : List Field) :
    (fields.foldl addField found).parameters = found.parameters ++ fields.filterMap Field.declared? := by
  induction fields generalizing found with
  | nil => exact (List.append_nil _).symm
  | cons field rest ih =>
    rw [List.foldl_cons, ih, parameters_addField, List.append_assoc]
    cases h : field.declared? with
    | none => rw [List.filterMap_cons_none h]; rfl
    | some p => rw [List.filterMap_cons_some h]; rfl

end Findings

namespace Structure

variable {source : Structure} {derived : Derived}

/-- A derived binding has what the fields of the structure amount to. -/
theorem findings_of_derive (h : source.derive = .ok derived) :
    derived.parameters = source.findings.parameters ∧ derived.matched? = source.findings.matched? := by
  unfold derive at h
  dsimp only at h
  generalize (MappingOptions.read source.items).2 + (if source.shape = .named then 0 else 1) = faults at h
  split_ifs at h
  cases h
  exact ⟨rfl, rfl⟩

/-- The parameters of a derived binding are those that the fields declare. -/
theorem parameters_of_derive (h : source.derive = .ok derived) :
    derived.parameters = source.fields.filterMap Field.declared? := by
  rw [(findings_of_derive h).1, findings, Findings.parameters_foldl]
  rfl

theorem exists_field_of_derive (h : source.derive = .ok derived) {p : Parameter} (hp : p ∈ derived.parameters) :
    ∃ field ∈ source.fields, field.declared? = some p := by
  rw [parameters_of_derive h] at hp
  exact List.mem_filterMap.mp hp

/-- Parameters are kept in different fields. -/
theorem nodup_fields_of_derive (h : source.derive = .ok derived) (hfields : (source.fields.map (·.name)).Nodup) :
    (derived.parameters.map (·.field)).Nodup := by
  rw [parameters_of_derive h]
  refine List.Sublist.nodup ?_ hfields
  induction source.fields with
  | nil => exact .slnil
  | cons field rest ih =>
    cases hdeclared : field.declared? with
    | none =>
      rw [List.filterMap_cons_none hdeclared]
      exact ih.cons field.name
    | some p =>
      rw [List.filterMap_cons_some hdeclared, List.map_cons, Field.field_of_declared? hdeclared]
      exact ih.cons_cons field.name

/-- A field without an annotation for a parameter is not that of a parameter. -/
theorem not_mem_fields_of_derive (h : source.derive = .ok derived) (hfields : (source.fields.map (·.name)).Nodup)
    {field : Field} (hfield : field ∈ source.fields) (hnone : field.parameter? = none) :
    field.name ∉ derived.parameters.map (·.field) := by
  intro hmem
  obtain ⟨p, hp, hname⟩ := List.mem_map.mp hmem
  obtain ⟨own, hown, hdeclared⟩ := exists_field_of_derive h hp
  have hsame : own = field :=
    List.inj_on_of_nodup_map hfields hown hfield ((Field.field_of_declared? hdeclared).symm.trans hname)
  obtain ⟨items, hitems, -⟩ := Field.declared?_eq_some_iff.mp hdeclared
  rw [hsame, hnone] at hitems
  cases hitems

end Structure

end PathBinding.Derivation
