import PathBinding.Json
import PathBinding.Proofs.Entries

/-!
Trees of values. The members of an object have names of their own in a tree, and of the members of one name the last counts
(`nodup_lastWins`, `lookup_lastWins`). So members that are appended replace those in front of them, and all others stay.
Whether two trees are the same can be decided.
-/

set_option autoImplicit false
set_option relaxedAutoImplicit false

namespace PathBinding.Json

variable {members : List (String × Json)} {name : String}

/-- Puts a member in the place of the one of its name, or behind all. -/
def keep (kept : List (String × Json)) (m : String × Json) : List (String × Json) :=
  if kept.any (·.1 == m.1) then kept.map fun k ↦ if k.1 == m.1 then m else k else kept ++ [m]

theorem lastWins_eq (members : List (String × Json)) : lastWins members = members.foldl keep [] :=
  rfl

theorem any_name_iff {kept : List (String × Json)} : kept.any (·.1 == name) = true ↔ name ∈ kept.map Prod.fst := by
  simp

theorem map_fst_keep (kept : List (String × Json)) (m : String × Json) :
    (keep kept m).map Prod.fst = if m.1 ∈ kept.map Prod.fst then kept.map Prod.fst else kept.map Prod.fst ++ [m.1] := by
  rw [keep]
  by_cases h : m.1 ∈ kept.map Prod.fst
  · rw [if_pos (any_name_iff.mpr h), if_pos h, List.map_map]
    refine List.map_congr_left fun k _ ↦ ?_
    rw [Function.comp_apply]
    split
    · next hname => exact (beq_iff_eq.mp hname).symm
    · rfl
  · rw [if_neg (mt any_name_iff.mp h), if_neg h, List.map_append]
    rfl

theorem nodup_keep {kept : List (String × Json)} (h : (kept.map Prod.fst).Nodup) (m : String × Json) :
    ((keep kept m).map Prod.fst).Nodup := by
  rw [map_fst_keep]
  split
  · exact h
  · next hname => exact List.nodup_append.mpr ⟨h, List.nodup_singleton _, fun a ha b hb hab ↦
      hname (List.mem_singleton.mp hb ▸ hab ▸ ha)⟩

theorem lookup_keep (kept : List (String × Json)) (m : String × Json) (name : String) :
    (keep kept m).lookup name = if name = m.1 then some m.2 else kept.lookup name := by
  obtain ⟨own, value⟩ := m
  rw [keep]
  dsimp only
  by_cases hkept : own ∈ kept.map Prod.fst
  · rw [if_pos (any_name_iff.mpr hkept)]
    by_cases hname : name = own
    · subst hname
      obtain ⟨found, hfound⟩ : ∃ found, kept.lookup name = some found := by
        rw [← Option.isSome_iff_exists, List.lookup_isSome_iff]
        simpa using hkept
      rw [lookup_replaced_self, hfound, if_pos rfl, Option.map_some]
    · rw [lookup_replaced_of_ne kept hname, if_neg hname]
  · rw [if_neg (mt any_name_iff.mp hkept), List.lookup_append]
    by_cases hname : name = own
    · subst hname
      have hnone : kept.lookup name = none := by
        rw [List.lookup_eq_none_iff]
        rintro ⟨other, found⟩ hfound
        exact bne_iff_ne.mpr fun heq ↦ hkept (heq ▸ List.mem_map_of_mem hfound)
      rw [hnone, Option.none_or, List.lookup_cons_self, if_pos rfl]
    · rw [List.lookup_cons, beq_eq_false_iff_ne.mpr hname, if_neg hname]
      exact Option.or_none

theorem nodup_foldl_keep {kept : List (String × Json)} (h : (kept.map Prod.fst).Nodup) (members : List (String × Json)) :
    ((members.foldl keep kept).map Prod.fst).Nodup := by
  induction members generalizing kept with
  | nil => exact h
  | cons m rest ih => exact ih (nodup_keep h m)

theorem lookup_foldl_keep (kept members : List (String × Json)) (name : String) :
    (members.foldl keep kept).lookup name = (members.reverse.lookup name).or (kept.lookup name) := by
  induction members generalizing kept with
  | nil => rfl
  | cons m rest ih =>
    rw [List.foldl_cons, ih, lookup_keep, List.reverse_cons, List.lookup_append, Option.or_assoc]
    refine congrArg _ ?_
    obtain ⟨own, value⟩ := m
    rw [List.lookup_cons]
    by_cases hname : name = own
    · rw [if_pos hname, beq_iff_eq.mpr hname, Option.some_or]
    · rw [if_neg hname, beq_eq_false_iff_ne.mpr hname]
      rfl

/-- In a tree the members have names of their own. -/
theorem nodup_lastWins (members : List (String × Json)) : ((lastWins members).map Prod.fst).Nodup := by
  rw [lastWins_eq]
  refine nodup_foldl_keep ?_ members
  exact List.nodup_nil

/-- The last member of a name is the one that counts. -/
theorem lookup_lastWins (members : List (String × Json)) (name : String) :
    (lastWins members).lookup name = members.reverse.lookup name := by
  rw [lastWins_eq, lookup_foldl_keep]
  exact Option.or_none

theorem lookup_reverse (h : (members.map Prod.fst).Nodup) (name : String) :
    members.reverse.lookup name = members.lookup name :=
  (lookup_perm members.reverse_perm.symm h name).symm

/-! ### Equality -/

mutual

/-- Whether two trees are the same. -/
def same : Json → Json → Bool
  | .null, .null | .fraction, .fraction | .unrepresentable, .unrepresentable => true
  | .bool truth, .bool other => truth == other
  | .int number, .int other => number == other
  | .str text, .str other => text == other
  | .arr items, .arr others => sameItems items others
  | .obj members, .obj others => sameMembers members others
  | _, _ => false

def sameItems : List Json → List Json → Bool
  | [], [] => true
  | item :: rest, other :: others => same item other && sameItems rest others
  | _, _ => false

def sameMembers : List (String × Json) → List (String × Json) → Bool
  | [], [] => true
  | (name, value) :: rest, (otherName, other) :: others =>
    name == otherName && same value other && sameMembers rest others
  | _, _ => false

end

mutual

theorem same_iff (json other : Json) : same json other = true ↔ json = other := by
  cases json with
  | arr items =>
    cases other with
    | arr others => rw [same, sameItems_iff items others, arr.injEq]
    | _ => simp [same]
  | obj members =>
    cases other with
    | obj others => rw [same, sameMembers_iff members others, obj.injEq]
    | _ => simp [same]
  | _ => cases other <;> simp [same]

theorem sameItems_iff (items others : List Json) : sameItems items others = true ↔ items = others := by
  cases items with
  | nil => cases others <;> simp [sameItems]
  | cons item rest =>
    cases others with
    | nil => simp [sameItems]
    | cons other others =>
      rw [sameItems, Bool.and_eq_true, same_iff item other, sameItems_iff rest others, List.cons.injEq]

theorem sameMembers_iff (members others : List (String × Json)) :
    sameMembers members others = true ↔ members = others := by
  cases members with
  | nil => cases others <;> simp [sameMembers]
  | cons m rest =>
    cases others with
    | nil => simp [sameMembers]
    | cons other others =>
      obtain ⟨name, value⟩ := m
      obtain ⟨otherName, other⟩ := other
      rw [sameMembers, Bool.and_eq_true, Bool.and_eq_true, beq_iff_eq, same_iff value other,
        sameMembers_iff rest others, List.cons.injEq, Prod.mk.injEq]

end

instance : DecidableEq Json :=
  fun json other ↦ decidable_of_iff _ (same_iff json other)

end PathBinding.Json
