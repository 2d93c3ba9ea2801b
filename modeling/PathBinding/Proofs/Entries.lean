import Mathlib.Data.List.Nodup

/-!
Lists of entries with keys. The first entry of a key is the one that is found, and it is found in any order of the entries
if no two of them have one key (`lookup_perm`).
-/

set_option autoImplicit false
set_option relaxedAutoImplicit false

namespace PathBinding

variable {κ α : Type} [BEq κ] [LawfulBEq κ] {entries others : List (κ × α)} {name : κ} {value : α}

theorem lookup_filter_self (entries : List (κ × α)) (name : κ) :
    (entries.filter (·.1 != name)).lookup name = none := by
  rw [List.lookup_eq_none_iff]
  intro entry hentry
  have hkept := (List.mem_filter.mp hentry).2
  exact bne_iff_ne.mpr (bne_iff_ne.mp hkept).symm

theorem lookup_filter_of_ne (entries : List (κ × α)) {name other : κ} (h : other ≠ name) :
    (entries.filter (·.1 != name)).lookup other = entries.lookup other := by
  induction entries with
  | nil => rfl
  | cons entry rest ih =>
    obtain ⟨own, value⟩ := entry
    by_cases hown : own = name
    · subst hown
      rw [List.filter_cons_of_neg (by simp), ih, List.lookup_cons, beq_eq_false_iff_ne.mpr h]
    · rw [List.filter_cons_of_pos (by simpa using hown), List.lookup_cons, List.lookup_cons, ih]

theorem lookup_replaced_self (entries : List (κ × α)) (name : κ) (value : α) :
    (entries.map fun entry ↦ if entry.1 == name then (name, value) else entry).lookup name =
      (entries.lookup name).map fun _ ↦ value := by
  induction entries with
  | nil => rfl
  | cons entry rest ih =>
    obtain ⟨own, found⟩ := entry
    rw [List.map_cons]
    by_cases hown : own = name
    · subst hown
      rw [if_pos (beq_self_eq_true own), List.lookup_cons_self, List.lookup_cons_self]
      rfl
    · rw [if_neg (by simpa using hown), List.lookup_cons, List.lookup_cons, beq_eq_false_iff_ne.mpr (Ne.symm hown), ih]

theorem lookup_replaced_of_ne (entries : List (κ × α)) {name other : κ} (h : other ≠ name) (value : α) :
    (entries.map fun entry ↦ if entry.1 == name then (name, value) else entry).lookup other = entries.lookup other := by
  induction entries with
  | nil => rfl
  | cons entry rest ih =>
    obtain ⟨own, found⟩ := entry
    rw [List.map_cons]
    by_cases hown : own = name
    · subst hown
      rw [if_pos (beq_self_eq_true own), List.lookup_cons, List.lookup_cons, beq_eq_false_iff_ne.mpr h, ih]
    · rw [if_neg (by simpa using hown), List.lookup_cons, List.lookup_cons, ih]

theorem mem_of_lookup (h : entries.lookup name = some value) : (name, value) ∈ entries := by
  obtain ⟨before, after, rfl, -⟩ := List.lookup_eq_some_iff.mp h
  exact List.mem_append_right _ List.mem_cons_self

/-! ### Entries with different keys -/

theorem lookup_eq_some_iff_mem (hnodup : (entries.map Prod.fst).Nodup) :
    entries.lookup name = some value ↔ (name, value) ∈ entries := by
  refine ⟨mem_of_lookup, fun h ↦ ?_⟩
  obtain ⟨before, after, rfl⟩ := List.append_of_mem h
  rw [List.map_append, List.map_cons, List.nodup_middle, List.nodup_cons, List.mem_append, not_or] at hnodup
  refine List.lookup_eq_some_iff.mpr ⟨before, after, rfl, fun entry hentry ↦ ?_⟩
  rw [bne_iff_ne]
  rintro rfl
  exact hnodup.1.1 (List.mem_map.mpr ⟨entry, hentry, rfl⟩)

theorem lookup_perm (h : entries.Perm others) (hnodup : (entries.map Prod.fst).Nodup) (name : κ) :
    entries.lookup name = others.lookup name := by
  refine Option.ext fun value ↦ ?_
  have hnodup' : (others.map Prod.fst).Nodup := (h.map Prod.fst).nodup_iff.mp hnodup
  rw [lookup_eq_some_iff_mem hnodup, lookup_eq_some_iff_mem hnodup', h.mem_iff]

end PathBinding
