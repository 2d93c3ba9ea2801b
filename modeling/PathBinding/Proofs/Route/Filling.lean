import PathBinding.Proofs.Route.Reading

/-!
Routes filled with texts. Coherent values fill a route (`fillsAll_filled`): a group is left out if none of its own
parameters has a value, and then no group inside has one. Since a slash stands in front of each component, texts without
slashes can be told from what a route is filled to with them, and so can the groups that take part (`agree_of_fills`).
-/

set_option autoImplicit false
set_option relaxedAutoImplicit false

namespace PathBinding

open Component

variable {fits : String → Option String → List Char → Prop} {value value' : String → Option (List Char)}

namespace Component

open Segment

/-- All parameters have texts that fit them. -/
def AreFilled (fits : String → Option String → List Char → Prop) (value : String → Option (List Char))
    (steps : List Component) : Prop :=
  ∀ name ∈ namesAll steps, ∃ w, value name = some w ∧ fits name none w

theorem areFilled_cons {step : Component} {rest : List Component} : AreFilled fits value (step :: rest) ↔
    (∀ name ∈ step.names, ∃ w, value name = some w ∧ fits name none w) ∧ AreFilled fits value rest :=
  List.forall_mem_append

theorem filledAll_cons (value : String → Option (List Char)) (step : Component) (rest : List Component) :
    filledAll value (step :: rest) = '/' :: (step.filled value ++ filledAll value rest) :=
  rfl

/-- The segments of components are filled to the components filled one behind the other. -/
theorem fillsAll_treeBetween {before : List Char} {steps : List Component} {after : List Segment} {s : List Char}
    (hbefore : isLiteral before = true) (hsound : ∀ c ∈ steps, c.IsSound) :
    FillsAll fits value (treeBetween before steps after) s ↔ AreFilled fits value steps ∧
      ∃ v, s = unescapeChars before ++ (filledAll value steps ++ v) ∧ FillsAll fits value after v := by
  induction steps generalizing before s with
  | nil =>
    rw [treeBetween, fillsAll_behind_iff]
    exact (and_iff_right fun _ h ↦ absurd h List.not_mem_nil).symm
  | cons step rest ih =>
    obtain ⟨hstep, hrest⟩ := List.forall_mem_cons.mp hsound
    cases step with
    | literal text =>
      rw [treeBetween, ih (isLiteral_slash_append hbefore hstep.2.1) hrest, unescapeChars_append hbefore, unescapeChars_slash]
      refine and_congr Iff.rfl (exists_congr fun v ↦ and_congr_left fun _ ↦ ?_)
      rw [filledAll_cons, filled, List.append_assoc, List.cons_append, List.cons_append, List.append_assoc]
    | parameter name =>
      have hslash : unescapeChars (before ++ ['/']) = unescapeChars before ++ ['/'] := unescapeChars_append hbefore ['/']
      rw [areFilled_cons, filledAll_cons, filled, names, List.forall_mem_singleton]
      constructor
      · rintro ⟨u, v, rfl, hu, w, x, rfl, ⟨hw, hfits⟩, hx⟩
        obtain ⟨hrest, y, rfl, hy⟩ := (ih rfl hrest).mp hx
        rw [Fills, String.toList_ofList, hslash] at hu
        refine ⟨⟨⟨w, hw, hfits⟩, hrest⟩, y, ?_, hy⟩
        rw [hu, hw]
        simp [unescapeChars]
      · rintro ⟨⟨⟨w, hw, hfits⟩, hfilled⟩, v, rfl, hv⟩
        refine ⟨unescapeChars before ++ ['/'], w ++ (filledAll value rest ++ v), ?_, ?_, w, filledAll value rest ++ v, rfl,
          ⟨hw, hfits⟩, (ih rfl hrest).mpr ⟨hfilled, v, rfl, hv⟩⟩
        · rw [hw]
          simp
        · rw [Fills, String.toList_ofList, hslash]

theorem head_filledAll (value : String → Option (List Char)) (steps : List Component) {x : List Char}
    (hx : ∀ c ∈ x.head?, c = '/') : ∀ c ∈ (filledAll value steps ++ x).head?, c = '/' := by
  cases steps with
  | nil => exact hx
  | cons step rest => exact fun c hc ↦ (Option.some.inj hc).symm

/-- Texts without a slash are told by the slash behind them. -/
theorem append_inj_of_slash {u v x y : List Char} (hu : '/' ∉ u) (hv : '/' ∉ v) (hx : ∀ c ∈ x.head?, c = '/')
    (hy : ∀ c ∈ y.head?, c = '/') (h : u ++ x = v ++ y) : u = v ∧ x = y := by
  have hempty {u v z y : List Char} (hv : '/' ∉ v) (hy : ∀ c ∈ (z ++ y).head?, c = '/') (h : v = u ++ z) : z = [] := by
    cases z with
    | nil => rfl
    | cons c z =>
      obtain rfl : c = '/' := hy c rfl
      exact absurd (h ▸ List.mem_append_right u List.mem_cons_self) hv
  rcases List.append_eq_append_iff.mp h with ⟨z, rfl, rfl⟩ | ⟨z, rfl, rfl⟩
  · obtain rfl := hempty hv hx rfl
    exact ⟨(List.append_nil u).symm, rfl⟩
  · obtain rfl := hempty hu hy rfl
    exact ⟨List.append_nil v, rfl⟩

theorem slash_notMem_filled {step : Component} (hsound : step.IsSound)
    (h : ∀ name ∈ step.names, ∃ w, value name = some w ∧ '/' ∉ w) : '/' ∉ step.filled value := by
  cases step with
  | literal text => exact fun hmem ↦ hsound.2.2.2.1 ((unescapeChars_sublist _).subset hmem)
  | parameter name =>
    obtain ⟨w, hw, hslash⟩ := h name List.mem_cons_self
    rwa [filled, hw]

/-- Where texts without slashes stand between slashes, the components tell them. -/
theorem filledAll_inj {steps : List Component} {x y : List Char} (hsound : ∀ c ∈ steps, c.IsSound)
    (hfilled : AreFilled (fun _ _ w ↦ '/' ∉ w) value steps) (hfilled' : AreFilled (fun _ _ w ↦ '/' ∉ w) value' steps)
    (hx : ∀ c ∈ x.head?, c = '/') (hy : ∀ c ∈ y.head?, c = '/') (h : filledAll value steps ++ x = filledAll value' steps ++ y) :
    (∀ name ∈ namesAll steps, value name = value' name) ∧ x = y := by
  induction steps with
  | nil => exact ⟨fun _ h ↦ absurd h List.not_mem_nil, h⟩
  | cons step rest ih =>
    obtain ⟨hstep, hrest⟩ := List.forall_mem_cons.mp hsound
    obtain ⟨hfirst, hfilled⟩ := areFilled_cons.mp hfilled
    obtain ⟨hfirst', hfilled'⟩ := areFilled_cons.mp hfilled'
    rw [filledAll_cons, filledAll_cons, List.cons_append, List.cons_append, List.append_assoc, List.append_assoc] at h
    obtain ⟨hsame, hbehind⟩ := append_inj_of_slash (slash_notMem_filled hstep hfirst) (slash_notMem_filled hstep hfirst')
      (head_filledAll value rest hx) (head_filledAll value' rest hy) (List.cons.inj h).2
    obtain ⟨hagree, hxy⟩ := ih hrest hfilled hfilled' hbehind
    refine ⟨List.forall_mem_append.mpr ⟨fun name hname ↦ ?_, hagree⟩, hxy⟩
    cases step with
    | literal text => cases hname
    | parameter own =>
      obtain rfl := List.mem_singleton.mp hname
      obtain ⟨w, hw, -⟩ := hfirst name hname
      obtain ⟨w', hw', -⟩ := hfirst' name hname
      rw [filled, filled, hw, hw'] at hsame
      rw [hw, hw']
      exact congrArg some hsame

theorem question_notMem_filledAll {steps : List Component} (hsound : ∀ c ∈ steps, c.IsSound)
    (hvalue : ∀ name ∈ namesAll steps, ∀ w, value name = some w → '?' ∉ w) : '?' ∉ filledAll value steps := by
  intro hmem
  obtain ⟨step, hstep, hmem⟩ := List.mem_flatMap.mp hmem
  obtain hmem := (List.mem_cons.mp hmem).resolve_left (by decide)
  cases step with
  | literal text => exact (hsound _ hstep).2.2.2.2 ((unescapeChars_sublist _).subset hmem)
  | parameter name =>
    rw [filled] at hmem
    cases hw : value name with
    | none =>
      rw [hw] at hmem
      cases hmem
    | some w =>
      rw [hw] at hmem
      exact hvalue name (List.mem_flatMap.mpr ⟨_, hstep, List.mem_singleton_self name⟩) w hw hmem

end Component

namespace Route

open Segment

/-- All groups are left out, or the outermost takes part. -/
theorem fillsAll_treeTails_cons {tail : List Component} {more : List (List Component)} {s : List Char}
    (hsound : ∀ c ∈ tail, c.IsSound) : FillsAll fits value (treeTails (tail :: more)) s ↔
      (s = [] ∧ ∀ name ∈ (tail :: more).flatMap namesAll, value name = none) ∨
      AreFilled fits value tail ∧ ∃ v, s = filledAll value tail ++ v ∧ FillsAll fits value (treeTails more) v := by
  have hnames : (∀ p ∈ placeholdersAll (treeBetween [] tail (treeTails more)), value p.1 = none) ↔
      ∀ name ∈ (tail :: more).flatMap namesAll, value name = none := by
    rw [placeholders_treeBetween, placeholders_treeTails, ← List.map_append, List.flatMap_cons]
    exact List.forall_mem_map
  have hgroup : FillsAll fits value (treeTails (tail :: more)) s ↔
      Fills fits value (.optional (treeBetween [] tail (treeTails more))) s := by
    constructor
    · rintro ⟨u, v, rfl, hu, rfl⟩
      rwa [List.append_nil]
    · exact fun h ↦ ⟨s, [], (List.append_nil s).symm, h, rfl⟩
  rw [hgroup, Fills, hnames, fillsAll_treeBetween rfl hsound]
  rfl

theorem head_fills_treeTails {tails : List (List Component)} {s : List Char} (hsound : ∀ c ∈ tails.flatten, c.IsSound)
    (h : FillsAll fits value (treeTails tails) s) : ∀ c ∈ s.head?, c = '/' := by
  induction tails generalizing s with
  | nil =>
    obtain rfl : s = [] := h
    exact fun c hc ↦ (nomatch hc)
  | cons tail more ih =>
    obtain ⟨htail, hmore⟩ := List.forall_mem_append.mp (List.flatten_cons ▸ hsound)
    rcases (fillsAll_treeTails_cons htail).mp h with ⟨rfl, -⟩ | ⟨-, v, rfl, hv⟩
    · exact fun c hc ↦ (nomatch hc)
    · exact head_filledAll value tail (ih hmore hv)

theorem filledAll_ne_nil {steps : List Component} (h : namesAll steps ≠ []) (x : List Char) : filledAll value steps ++ x ≠ [] := by
  cases steps with
  | nil => exact absurd rfl h
  | cons step rest => exact List.cons_ne_nil _ _

/-- Groups that are filled with texts without slashes tell the texts. -/
theorem agree_of_treeTails {tails : List (List Component)} {s : List Char} (hsound : ∀ c ∈ tails.flatten, c.IsSound)
    (hanchored : ∀ tail ∈ tails, namesAll tail ≠ [])
    (h : FillsAll (fun _ _ w ↦ '/' ∉ w) value (treeTails tails) s)
    (h' : FillsAll (fun _ _ w ↦ '/' ∉ w) value' (treeTails tails) s) :
    ∀ name ∈ tails.flatMap namesAll, value name = value' name := by
  induction tails generalizing s with
  | nil => exact fun _ hname ↦ absurd hname List.not_mem_nil
  | cons tail more ih =>
    obtain ⟨htail, hmore⟩ := List.forall_mem_append.mp (List.flatten_cons ▸ hsound)
    obtain ⟨hname, hnames⟩ := List.forall_mem_cons.mp hanchored
    rcases (fillsAll_treeTails_cons htail).mp h with ⟨rfl, hnone⟩ | ⟨hfilled, v, rfl, hv⟩
    · rcases (fillsAll_treeTails_cons htail).mp h' with ⟨-, hnone'⟩ | ⟨-, v', hs, -⟩
      · exact fun name hmem ↦ (hnone name hmem).trans (hnone' name hmem).symm
      · exact absurd hs.symm (filledAll_ne_nil hname v')
    · rcases (fillsAll_treeTails_cons htail).mp h' with ⟨hs, -⟩ | ⟨hfilled', v', hs, hv'⟩
      · exact absurd hs (filledAll_ne_nil hname v)
      · obtain ⟨hagree, rfl⟩ := filledAll_inj htail hfilled hfilled' (head_fills_treeTails hmore hv)
          (head_fills_treeTails hmore hv') hs
        exact List.forall_mem_append.mpr ⟨hagree, ih hmore hnames hv hv'⟩

theorem fillsAll_tree {route : Route} {s : List Char} : FillsAll fits value route.tree s ↔
    AreFilled fits value (route.first :: route.rest) ∧
      ∃ v, s = filledAll value (route.first :: route.rest) ++ v ∧ FillsAll fits value (treeTails route.tails) v := by
  obtain ⟨hfront, -⟩ := List.forall_mem_append.mp (List.cons_append ▸ route.sound)
  exact fillsAll_treeBetween rfl hfront

/-- A route that is filled with texts without slashes tells the texts. -/
theorem agree_of_fills {route : Route} {s : List Char} (h : FillsAll (fun _ _ w ↦ '/' ∉ w) value route.tree s)
    (h' : FillsAll (fun _ _ w ↦ '/' ∉ w) value' route.tree s) : ∀ name ∈ route.names, value name = value' name := by
  obtain ⟨hfront, htails⟩ := List.forall_mem_append.mp (List.cons_append ▸ route.sound)
  obtain ⟨hfilled, v, rfl, hv⟩ := fillsAll_tree.mp h
  obtain ⟨hfilled', v', hs, hv'⟩ := fillsAll_tree.mp h'
  obtain ⟨hagree, rfl⟩ := filledAll_inj hfront hfilled hfilled' (head_fills_treeTails htails hv)
    (head_fills_treeTails htails hv') hs
  exact List.forall_mem_append.mpr ⟨hagree, agree_of_treeTails htails route.anchored hv hv'⟩

/-- Which parameters of a route have values: all in front of the groups, all or none of each group's own, and all of a
group's own if a group inside has any. -/
structure IsCoherent {α : Type} (route : Route) (value : String → Option α) : Prop where
  required : ∀ name ∈ namesAll (route.first :: route.rest), (value name).isSome
  together : ∀ tail ∈ route.tails,
    (∀ name ∈ namesAll tail, (value name).isSome) ∨ ∀ name ∈ namesAll tail, value name = none
  nested : route.tails.Pairwise fun outer inner ↦
    (∃ name ∈ namesAll inner, (value name).isSome) → ∀ name ∈ namesAll outer, (value name).isSome

theorem areFilled_of_isSome {steps : List Component} (h : ∀ name ∈ namesAll steps, (value name).isSome)
    (hfits : ∀ name ∈ namesAll steps, ∀ w, value name = some w → fits name none w) : AreFilled fits value steps := by
  intro name hname
  obtain ⟨w, hw⟩ := Option.isSome_iff_exists.mp (h name hname)
  exact ⟨w, hw, hfits name hname w hw⟩

theorem fillsAll_filledTails {tails : List (List Component)} (hsound : ∀ c ∈ tails.flatten, c.IsSound)
    (hanchored : ∀ tail ∈ tails, namesAll tail ≠ [])
    (htogether : ∀ tail ∈ tails, (∀ name ∈ namesAll tail, (value name).isSome) ∨ ∀ name ∈ namesAll tail, value name = none)
    (hnested : tails.Pairwise fun outer inner ↦
      (∃ name ∈ namesAll inner, (value name).isSome) → ∀ name ∈ namesAll outer, (value name).isSome)
    (hfits : ∀ name ∈ tails.flatMap namesAll, ∀ w, value name = some w → fits name none w) :
    FillsAll fits value (treeTails tails) (filledTails value tails) := by
  induction tails with
  | nil => rfl
  | cons tail more ih =>
    obtain ⟨htail, hmore⟩ := List.forall_mem_append.mp (List.flatten_cons ▸ hsound)
    obtain ⟨hown, hinner⟩ := List.pairwise_cons.mp hnested
    obtain ⟨hname, hnames⟩ := List.forall_mem_cons.mp hanchored
    obtain ⟨hfits, hfits'⟩ := List.forall_mem_append.mp hfits
    obtain ⟨hfirst, htogether⟩ := List.forall_mem_cons.mp htogether
    rw [fillsAll_treeTails_cons htail, filledTails]
    rcases hfirst with hset | hnone
    · rw [if_pos (List.all_eq_true.mpr hset)]
      exact .inr ⟨areFilled_of_isSome hset hfits, _, rfl, ih hmore hnames htogether hinner hfits'⟩
    · obtain ⟨name, hmem⟩ := List.exists_mem_of_ne_nil _ hname
      have hunset : ¬(value name).isSome := by simp [hnone name hmem]
      rw [if_neg fun hall ↦ hunset (List.all_eq_true.mp hall name hmem)]
      refine .inl ⟨rfl, List.forall_mem_append.mpr ⟨hnone, fun other hother ↦ ?_⟩⟩
      -- A group inside has no values either.
      obtain ⟨group, hgroup, hother⟩ := List.mem_flatMap.mp hother
      rcases htogether group hgroup with hset | hnone'
      · exact absurd (hown group hgroup ⟨other, hother, hset other hother⟩ name hmem) hunset
      · exact hnone' other hother

/-- A route is filled with the texts of coherent values. -/
theorem fillsAll_filled {route : Route} (hcoherent : route.IsCoherent value)
    (hfits : ∀ name ∈ route.names, ∀ w, value name = some w → fits name none w) :
    FillsAll fits value route.tree (route.filled value) := by
  obtain ⟨-, htails⟩ := List.forall_mem_append.mp (List.cons_append ▸ route.sound)
  obtain ⟨hfits, hfits'⟩ := List.forall_mem_append.mp hfits
  exact fillsAll_tree.mpr ⟨areFilled_of_isSome hcoherent.required hfits, _, rfl,
    fillsAll_filledTails htails route.anchored hcoherent.together hcoherent.nested hfits'⟩

theorem question_notMem_filled {route : Route} (hvalue : ∀ name ∈ route.names, ∀ w, value name = some w → '?' ∉ w) :
    '?' ∉ route.filled value := by
  have htails {tails : List (List Component)} (hsound : ∀ c ∈ tails.flatten, c.IsSound)
      (hvalue : ∀ name ∈ tails.flatMap namesAll, ∀ w, value name = some w → '?' ∉ w) : '?' ∉ filledTails value tails := by
    induction tails with
    | nil => exact List.not_mem_nil
    | cons tail more ih =>
      obtain ⟨htail, hmore⟩ := List.forall_mem_append.mp (List.flatten_cons ▸ hsound)
      obtain ⟨hvalue, hvalue'⟩ := List.forall_mem_append.mp hvalue
      rw [filledTails]
      split
      · exact List.not_mem_append (question_notMem_filledAll htail hvalue) (ih hmore hvalue')
      · exact List.not_mem_nil
  obtain ⟨hfront, hsound⟩ := List.forall_mem_append.mp (List.cons_append ▸ route.sound)
  obtain ⟨hvalue, hvalue'⟩ := List.forall_mem_append.mp hvalue
  exact List.not_mem_append (question_notMem_filledAll hfront hvalue) (htails hsound hvalue')

/-- Behind its first slash a filled route goes on with something else. -/
theorem filled_front {route : Route} (hrequired : ∀ name ∈ route.first.names, (value name).isSome)
    (hvalue : ∀ name ∈ route.first.names, ∀ w, value name = some w → w ≠ [] ∧ '/' ∉ w) :
    ∃ rest, route.filled value = '/' :: rest ∧ rest.head? ≠ some '/' := by
  have hfirst := route.sound _ List.mem_cons_self
  have hset : ∀ name ∈ route.first.names, ∃ w, value name = some w ∧ '/' ∉ w := by
    intro name hname
    obtain ⟨w, hw⟩ := Option.isSome_iff_exists.mp (hrequired name hname)
    exact ⟨w, hw, (hvalue name hname w hw).2⟩
  have hslash := slash_notMem_filled hfirst hset
  have hne : route.first.filled value ≠ [] := by
    cases hstep : route.first with
    | literal text =>
      rw [hstep] at hfirst
      exact unescapeChars_ne_nil hfirst.1 hfirst.2.1
    | parameter name =>
      have hmem : name ∈ route.first.names := hstep ▸ List.mem_cons_self
      obtain ⟨w, hw, -⟩ := hset name hmem
      rw [Component.filled, hw]
      exact (hvalue name hmem w hw).1
  obtain ⟨c, letters, hletters⟩ := List.exists_cons_of_ne_nil hne
  rw [hletters] at hslash
  refine ⟨c :: (letters ++ filledAll value route.rest ++ filledTails value route.tails), ?_, ?_⟩
  · rw [Route.filled, filledAll_cons, hletters]
    rfl
  · rintro ⟨⟩
    exact hslash List.mem_cons_self

end Route

end PathBinding
