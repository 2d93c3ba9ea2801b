import PathBinding.Proofs.Regex.Language

/-!
Alternatives of which at least one is a factor alone. Such alternatives have no common beginning, so they stay as they
are written (`alternation_eq`), and the first of them that reaches the end of a text on its own decides what is captured
there (`captures_altAll`).
-/

set_option autoImplicit false
set_option relaxedAutoImplicit false

namespace PathBinding.Regex

/-! ### How alternatives are put together -/

theorem flatMap_branches {rs : List Regex} (h : ∀ r ∈ rs, r.branches = [r]) : rs.flatMap branches = rs := by
  induction rs with
  | nil => rfl
  | cons r rs ih =>
    rw [List.flatMap_cons, h r List.mem_cons_self, ih fun r' hr' ↦ h r' (List.mem_cons_of_mem r hr')]
    rfl

theorem alternation_singleton {r : Regex} (h : r.branches = [r]) : alternation [r] = r := by
  have hflat : [r].flatMap branches = [r] := flatMap_branches (by simpa using h)
  rw [alternation, alternationWithin, hflat]

theorem unionOf?_eq_none {rs : List Regex} {r : Regex} (hr : r ∈ rs) (hset : setOf? r = none) :
    unionOf? rs = none := by
  have hmap : rs.mapM setOf? = none := by
    induction rs with
    | nil => cases hr
    | cons s rs ih =>
      rw [List.mapM_cons]
      rcases List.mem_cons.mp hr with rfl | hr
      · rw [hset]
        rfl
      · rw [ih hr]
        cases setOf? s <;> rfl
  rw [unionOf?, hmap]

/-- Assumes: no alternative has branches of its own, and one of them is a single factor that is no set. Alternatives are
kept as they are. -/
theorem alternation_eq {rs : List Regex} (hrs : ∀ r ∈ rs, r.branches = [r]) {r : Regex} (hr : r ∈ rs)
    (hset : setOf? r = none) (hfactor : (Factor.ofParts r.parts).length < 2) : alternation rs = altAll rs := by
  rw [alternation, alternationWithin, flatMap_branches hrs, unionOf?_eq_none hr hset]
  match rs with
  | [] => rfl
  | [r] => rfl
  | first :: second :: rest =>
    have hany : ((first :: second :: rest).map fun r ↦ Factor.ofParts r.parts).any (·.length < 2) = true := by
      rw [List.any_map, List.any_eq_true]
      exact ⟨r, hr, by simpa using hfactor⟩
    simp only [hany, or_true, if_true]

theorem alternation_groups {rs : List Regex} (h : ∀ r ∈ rs, ∃ name body, r = .group name body) :
    alternation rs = altAll rs := by
  cases rs with
  | nil => rfl
  | cons first rest =>
    have hbranches : ∀ r ∈ first :: rest, r.branches = [r] := fun r hr ↦ by
      obtain ⟨name, body, rfl⟩ := h r hr
      rfl
    obtain ⟨name, body, rfl⟩ := h first List.mem_cons_self
    exact alternation_eq hbranches List.mem_cons_self rfl (Nat.lt_succ_self 1)

/-! ### The first alternative that reaches the end -/

theorem captured?_of_same {t u : Thread} (h : List.Forall₂ Capture.Same t.captures u.captures) :
    t.captured? = u.captured? := by
  funext name
  rw [Thread.captured?, Thread.captured?]
  generalize t.captures = ks at h
  generalize u.captures = ks' at h
  induction h with
  | nil => rfl
  | @cons k k' ks ks' hsame _ ih =>
    rw [List.find?_cons, List.find?_cons, ← hsame.1]
    split
    · rw [Option.map_some, Option.map_some, hsame.2]
    · exact ih

theorem Frame.captured?_of_rel {F : Frame} (hnamed : F.named) {n : Nat} {a b : Option Thread}
    (h : Option.Rel (F.Alike n) a b) : a.map Thread.captured? = b.map Thread.captured? := by
  cases h with
  | some hlike => rw [Option.map_some, Option.map_some, captured?_of_same (hlike.captures hnamed)]
  | none => rfl

/-- Where a part of the way has begun does not matter to what a run captures. -/
theorem captured?_mark (r : Regex) {t : Thread} {o : Nat} (ho : o ≤ t.offset + t.rest.length) :
    (threadAt o (run none r [t.mark])).map Thread.captured? = (threadAt o (run none r [t])).map Thread.captured? := by
  let F : Frame := ⟨[], [], t.offset + t.rest.length, 0, True, True, fun _ ↦ True, fun _ ↦ rfl⟩
  have hsame : List.Forall₂ Capture.Same t.captures t.captures :=
    List.forall₂_same.mpr fun _ _ ↦ ⟨rfl, rfl⟩
  have halike : F.Alike 0 t.mark t := by
    refine ⟨⟨t.rest, ?_, ?_, rfl, rfl⟩, fun _ ↦ rfl, fun _ ↦ hsame,
      ⟨[], [], t.mark.begun, t.begun, rfl, rfl, .nil, rfl⟩, fun _ _ ↦ Iff.rfl⟩
    · simp [F, Thread.mark]
    · simp [F]
  have hrun : F.Respects (run none r) := F.respects_run r (fun _ _ ↦ trivial) (Or.inl trivial)
  exact F.captured?_of_rel trivial ((hrun.single halike).threadAt ho)

theorem captured?_alt (a b : Regex) {t : Thread} {o : Nat} (ho : o ≤ t.offset + t.rest.length) :
    (threadAt o (run none (.alt a b) [t])).map Thread.captured? =
      ((threadAt o (run none a [t])).map Thread.captured?).or ((threadAt o (run none b [t])).map Thread.captured?) := by
  have hall (r : Regex) : (run none r [t.mark]).filter t.mark.isFrom = run none r [t.mark] :=
    List.filter_eq_self.mpr fun u hu ↦ (isFrom_mark ((forward_run none r).lead hu)).mpr rfl
  have hprefer : run none (.alt a b) [t] =
      distinct ((run none a [t.mark] ++ run none b [t.mark]).map Thread.unmark) := by
    have hnodup : (offsetsOf [t]).Nodup := List.nodup_singleton t.offset
    have heq := prefer_eq (forward_run none a) (forward_run none b) hnodup
    simp only [List.map_cons, List.map_nil, List.flatMap_cons, List.flatMap_nil, List.append_nil, hall] at heq
    exact heq
  have hunmark : (fun t : Thread ↦ t.unmark.captured?) = Thread.captured? := rfl
  rw [hprefer, threadAt_distinct, threadAt_map_of_eq (f := Thread.unmark) (fun _ ↦ rfl), threadAt_append,
    Option.map_map, ← captured?_mark a ho, ← captured?_mark b ho]
  cases threadAt o (run none a [t.mark]) <;> rfl

/-- What is captured behind alternatives is what the first of them captures that gets there. -/
theorem captures_altAll {rs : List Regex} (hrs : rs ≠ []) {t : Thread} {o : Nat} (ho : o ≤ t.offset + t.rest.length) :
    (threadAt o (run none (altAll rs) [t])).map Thread.captured? =
      rs.findSome? fun r ↦ (threadAt o (run none r [t])).map Thread.captured? := by
  induction rs with
  | nil => exact absurd rfl hrs
  | cons r rs ih =>
    cases rs with
    | nil =>
      rw [altAll, List.findSome?_cons]
      cases (threadAt o (run none r [t])).map Thread.captured? <;> rfl
    | cons s rs =>
      rw [altAll, captured?_alt r _ ho, ih (List.cons_ne_nil s rs), List.findSome?_cons (a := r)]
      · cases (threadAt o (run none r [t])).map Thread.captured? <;> rfl
      · exact List.cons_ne_nil s rs

/-! ### Which groups capture -/

/-- A run captures under the names of its groups only. -/
theorem mem_groupNames_of_captured {r : Regex} {offset : Nat} {before : Option Char} {text : List Char} {t : Thread}
    (ht : t ∈ run none r [.start offset before text]) {name : String} (hname : (t.captured? name).isSome) :
    name ∈ r.groupNames := by
  let scope : Scope := ⟨fun name ↦ name ∈ r.groupNames, fun _ ↦ True, fun _ ↦ True⟩
  have hforward := run_forward scope r none ⟨fun _ hn ↦ hn, fun _ _ ↦ trivial, fun _ _ _ _ ↦ trivial⟩
  obtain ⟨s, hs, -⟩ := hforward.lead ht
  obtain ⟨gained, hgained, hnames⟩ := hs.captures
  rw [Thread.captured?, Option.isSome_map, List.find?_isSome] at hname
  obtain ⟨k, hk, hsame⟩ := hname
  rw [hgained, Thread.start, List.append_nil] at hk
  exact beq_iff_eq.mp hsame ▸ (hnames k hk).1

/-- A group captures whenever it is passed. -/
theorem captured_of_group {name : String} {body : Regex} {s t : Thread} (ht : t ∈ run none (.group (some name) body) [s]) :
    (t.captured? name).isSome := by
  obtain ⟨u, hu, rfl⟩ := List.mem_map.mp ht
  obtain ⟨r, hr, -⟩ := (forward_run none body).lead hu
  have hcaptures : ((u.capture name).unmark).captures = ⟨name, s.rest, r.length⟩ :: u.captures :=
    hr.captures_capture name
  rw [Thread.captured?, hcaptures]
  simp

end PathBinding.Regex
