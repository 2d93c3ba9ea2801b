import PathBinding.Json.Codec
import PathBinding.Proofs.Entries
import PathBinding.Proofs.Json.Text

/-!
Documents that say the same. The members of an object may stand in any order, and some of them may be to spare; a document
restates another if this is all in which they differ (`Restates`). An object with names of its own says of each field what
the member of this name says (`fields?_obj`), so a record is read from each restatement as from the document itself
(`required?_of_retells`, `optional?_of_retells`).
-/

set_option autoImplicit false
set_option relaxedAutoImplicit false

namespace PathBinding.Json

/-- The second document says the same as the first. Members may stand in another order, and those to spare may be missing. -/
inductive Restates (spare : List (String × Json)) : Json → Json → Prop
  | same (json : Json) : Restates spare json json
  | arr {items others : List Json} (h : List.Forall₂ (Restates spare) items others) :
    Restates spare (.arr items) (.arr others)
  | obj {members others : List (String × Json)} (kept missing : List (String × Json))
      (hsplit : members.Perm (kept ++ missing)) (hmissing : ∀ m ∈ missing, m ∈ spare)
      (hnames : kept.map Prod.fst = others.map Prod.fst)
      (hvalues : List.Forall₂ (Restates spare) (kept.map Prod.snd) (others.map Prod.snd)) :
    Restates spare (.obj members) (.obj others)

/-- What a restatement says of a member: the same, or nothing if it is to spare. -/
inductive Retells (spare : List (String × Json)) (name : String) : Option Json → Option Json → Prop
  | kept {json other : Json} (h : Restates spare json other) : Retells spare name (some json) (some other)
  | missing {json : Json} (h : (name, json) ∈ spare) : Retells spare name (some json) none
  | absent : Retells spare name none none

variable {spare members others : List (String × Json)} {json other : Json} {name : String}

/-! ### Parts of restatements -/

theorem Restates.eq_of_depth (h : Restates spare json other) (hdepth : json.depth = 0) : other = json := by
  cases h with
  | same => rfl
  | arr => cases hdepth
  | obj => cases hdepth

theorem Restates.eq_of_depth_right (h : Restates spare json other) (hdepth : other.depth = 0) : json = other := by
  cases h with
  | same => rfl
  | arr => cases hdepth
  | obj => cases hdepth

/-- A document with one member that is not to spare is restated by itself only. -/
theorem Restates.eq_of_single {tag : String} {content : Json} (h : Restates spare (.obj [(tag, content)]) json)
    (hspare : (tag, content) ∉ spare) (hdepth : content.depth = 0) : json = .obj [(tag, content)] := by
  cases h with
  | same => rfl
  | @obj _ others kept missing hsplit hmissing hnames hvalues =>
    have hnil : missing = [] := by
      refine List.eq_nil_iff_forall_not_mem.mpr fun m hm ↦ hspare ?_
      obtain rfl := List.mem_singleton.mp (hsplit.mem_iff.mpr (List.mem_append_right _ hm))
      exact hmissing _ hm
    rw [hnil, List.append_nil] at hsplit
    obtain rfl := List.singleton_perm.mp hsplit
    obtain ⟨⟨own, value⟩, rfl, rfl⟩ := List.map_eq_singleton_iff.mp hnames.symm
    have hvalue : value = content := (List.forall₂_cons.mp hvalues).1.eq_of_depth hdepth
    rw [hvalue]

/-- With nothing to spare a document with one member restates itself only. -/
theorem Restates.eq_of_single_right {tag : String} {content : Json} (h : Restates [] json (.obj [(tag, content)]))
    (hdepth : content.depth = 0) : json = .obj [(tag, content)] := by
  cases h with
  | same => rfl
  | @obj members _ kept missing hsplit hmissing hnames hvalues =>
    obtain rfl : missing = [] := List.eq_nil_iff_forall_not_mem.mpr fun m hm ↦ nomatch hmissing m hm
    rw [List.append_nil] at hsplit
    obtain ⟨⟨own, value⟩, rfl, rfl⟩ := List.map_eq_singleton_iff.mp hnames
    obtain rfl := List.perm_singleton.mp hsplit
    have hvalue : value = content := (List.forall₂_cons.mp hvalues).1.eq_of_depth_right hdepth
    rw [hvalue]

/-- A document without parts, or with one member that has none. -/
def IsSimple (json : Json) : Prop :=
  json.depth = 0 ∨ ∃ tag content, json = .obj [(tag, content)] ∧ content.depth = 0

/-- Nothing but a simple document says the same, if there is nothing to spare. -/
theorem Restates.eq_of_isSimple (h : Restates [] json other) (hsimple : json.IsSimple ∨ other.IsSimple) :
    json = other := by
  rcases hsimple with (hdepth | ⟨tag, content, rfl, hdepth⟩) | (hdepth | ⟨tag, content, rfl, hdepth⟩)
  · exact (h.eq_of_depth hdepth).symm
  · exact (h.eq_of_single List.not_mem_nil hdepth).symm
  · exact h.eq_of_depth_right hdepth
  · exact h.eq_of_single_right hdepth

theorem Restates.exists_items {items : List Json} (h : Restates spare (.arr items) json) :
    ∃ others, json = .arr others ∧ List.Forall₂ (Restates spare) items others := by
  cases h with
  | same => exact ⟨items, rfl, List.forall₂_same.mpr fun item _ ↦ .same item⟩
  | arr h => exact ⟨_, rfl, h⟩

theorem retells_lookup (hnames : members.map Prod.fst = others.map Prod.fst)
    (hvalues : List.Forall₂ (Restates spare) (members.map Prod.snd) (others.map Prod.snd)) (name : String) :
    Retells spare name (members.lookup name) (others.lookup name) := by
  induction members generalizing others with
  | nil =>
    obtain rfl : others = [] := List.map_eq_nil_iff.mp hnames.symm
    exact .absent
  | cons m members ih =>
    cases others with
    | nil => cases hnames
    | cons o others =>
      obtain ⟨own, value⟩ := m
      obtain ⟨own', value'⟩ := o
      rw [List.map_cons, List.map_cons, List.cons.injEq] at hnames
      obtain ⟨rfl, hnames⟩ := hnames
      obtain ⟨hvalue, hvalues⟩ := List.forall₂_cons.mp hvalues
      rw [List.lookup_cons, List.lookup_cons]
      dsimp only
      cases name == own with
      | true => exact .kept hvalue
      | false => exact ih hnames hvalues

theorem Retells.refl (spare : List (String × Json)) (name : String) (json? : Option Json) :
    Retells spare name json? json? := by
  cases json? with
  | none => exact .absent
  | some json => exact .kept (.same json)

/-- A restatement of an object is an object that retells each member. -/
theorem Restates.exists_members (h : Restates spare (.obj members) json) (hnodup : (members.map Prod.fst).Nodup) :
    ∃ others, json = .obj others ∧ (others.map Prod.fst).Nodup ∧
      ∀ name, Retells spare name (members.lookup name) (others.lookup name) := by
  cases h with
  | same => exact ⟨members, rfl, hnodup, fun name ↦ .refl spare name _⟩
  | @obj _ others kept missing hsplit hmissing hnames hvalues =>
    have hall : ((kept ++ missing).map Prod.fst).Nodup := (hsplit.map Prod.fst).nodup_iff.mp hnodup
    rw [List.map_append] at hall
    refine ⟨others, rfl, hnames ▸ (List.nodup_append.mp hall).1, fun name ↦ ?_⟩
    rw [lookup_perm hsplit hnodup, List.lookup_append]
    have hkept := retells_lookup hnames hvalues name
    generalize others.lookup name = found at hkept ⊢
    cases hlookup : kept.lookup name with
    | some value =>
      rw [hlookup] at hkept
      exact hkept
    | none =>
      rw [hlookup] at hkept
      cases hkept
      rw [Option.none_or]
      cases hvalue : missing.lookup name with
      | none => exact .absent
      | some value => exact .missing (hmissing _ (mem_of_lookup hvalue))

/-! ### Plain documents -/

theorem arePlain_iff {items : List Json} : ArePlain items ↔ ∀ item ∈ items, item.IsPlain := by
  induction items with
  | nil => exact iff_of_true trivial nofun
  | cons item items ih => exact (and_congr_right fun _ ↦ ih).trans List.forall_mem_cons.symm

theorem havePlain_iff : HavePlain members ↔ ArePlain (members.map Prod.snd) := by
  induction members with
  | nil => exact .rfl
  | cons m members ih => exact and_congr_right fun _ ↦ ih

/-- A restatement of a plain document is plain. -/
theorem Restates.isPlain (h : Restates spare json other) : json.IsPlain → other.IsPlain := by
  refine @Restates.rec spare (fun json other _ ↦ json.IsPlain → other.IsPlain)
    (fun items others _ ↦ ArePlain items → ArePlain others) ?same ?arr ?obj ?nil ?cons _ _ h
  case same => exact fun _ hplain ↦ hplain
  case arr => exact fun _ hitems hplain ↦ hitems hplain
  case obj =>
    intro members others kept missing hsplit _ _ _ hvalues hplain
    refine havePlain_iff.mpr (hvalues (arePlain_iff.mpr fun item hitem ↦ ?_))
    refine arePlain_iff.mp (havePlain_iff.mp hplain) item ((hsplit.map Prod.snd).mem_iff.mpr ?_)
    rw [List.map_append]
    exact List.mem_append_left _ hitem
  case nil => exact fun _ ↦ trivial
  case cons => exact fun _ _ hitem hitems hplain ↦ ⟨hitem hplain.1, hitems hplain.2⟩

/-! ### Records from objects -/

theorem map_snd_filter (hnodup : (members.map Prod.fst).Nodup) (name : String) :
    (members.filter (·.1 == name)).map Prod.snd = (members.lookup name).toList := by
  induction members with
  | nil => rfl
  | cons m members ih =>
    obtain ⟨own, value⟩ := m
    rw [List.map_cons, List.nodup_cons] at hnodup
    rw [List.lookup_cons]
    by_cases hname : own = name
    · subst hname
      have hnone : members.lookup own = none := by
        refine List.lookup_eq_none_iff.mpr fun m hm ↦ bne_iff_ne.mpr ?_
        rintro rfl
        exact hnodup.1 (List.mem_map.mpr ⟨m, hm, rfl⟩)
      rw [List.filter_cons_of_pos (by simp), List.map_cons, ih hnodup.2, hnone, beq_self_eq_true]
      rfl
    · rw [List.filter_cons_of_neg (by simpa using hname), ih hnodup.2, beq_eq_false_iff_ne.mpr (Ne.symm hname)]

/-- The fields of a record are the members of their names, if each of these stands once. -/
theorem fields?_obj (hnodup : (members.map Prod.fst).Nodup) (names : List String) :
    (Json.obj members).fields? names = some (names.map fun name ↦ members.lookup name) := by
  have hfound : (names.map fun name ↦ (members.filter (·.1 == name)).map (·.2)) =
      names.map fun name ↦ (members.lookup name).toList :=
    List.map_congr_left fun name _ ↦ map_snd_filter hnodup name
  unfold fields?
  dsimp only
  rw [hfound, if_pos, List.map_map]
  · refine congrArg some (List.map_congr_left fun name _ ↦ ?_)
    rw [Function.comp_apply]
    cases members.lookup name <;> rfl
  · rw [List.all_map, List.all_eq_true]
    intro name _
    rw [Function.comp_apply]
    cases members.lookup name <;> rfl

variable {α : Type} {decode : Json → Option α} {value default : α} {found : Option Json}

/-- A field that is not to spare is there, and is read as the document itself is. -/
theorem required?_of_retells (h : Retells spare name (some json) found) (hspare : (name, json) ∉ spare)
    (hdecode : ∀ other, Restates spare json other → decode other = some value) : required? decode found = some value := by
  cases h with
  | kept h => exact hdecode _ h
  | missing h => exact absurd h hspare

/-- A field that is to spare has its default, so it may be left out. -/
theorem optional?_of_retells (h : Retells spare name (some json) found) (hspare : (name, json) ∈ spare → value = default)
    (hdecode : ∀ other, Restates spare json other → decode other = some value) :
    optional? default decode found = some value := by
  cases h with
  | kept h => exact hdecode _ h
  | missing h => exact congrArg some (hspare h).symm

theorem option?_of_restates {value? : Option α} {encode : α → Json} (h : Restates spare (ofOption encode value?) json)
    (hdecode : ∀ value, Restates spare (encode value) json → json ≠ .null ∧ decode json = some value) :
    option? decode json = some value? := by
  cases value? with
  | none => rw [h.eq_of_depth rfl, ofOption, option?]
  | some value =>
    obtain ⟨hne, hvalue⟩ := hdecode value h
    rw [option?.eq_2 _ _ hne, hvalue, Option.map_some]

/-- Items are read from their restatements, too. -/
theorem list?_of_restates {values : List α} {encode : α → Json} (h : Restates spare (.arr (values.map encode)) json)
    (hdecode : ∀ value ∈ values, ∀ other, Restates spare (encode value) other → decode other = some value) :
    list? decode json = some values := by
  obtain ⟨others, rfl, hitems⟩ := h.exists_items
  rw [list?]
  clear h
  induction values generalizing others with
  | nil =>
    cases hitems
    rfl
  | cons value values ih =>
    obtain ⟨hfirst, hvalues⟩ := List.forall_mem_cons.mp hdecode
    obtain ⟨other, others, hother, hothers, rfl⟩ := List.forall₂_cons_left_iff.mp hitems
    rw [List.mapM_cons, hfirst other hother, ih hvalues others hothers]
    rfl

end PathBinding.Json
