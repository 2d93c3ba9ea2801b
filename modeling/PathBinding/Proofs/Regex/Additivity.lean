import PathBinding.Proofs.Regex.Loop

/-!
Which offsets an expression reaches from several threads: those that it reaches from each of them alone (`additive_run`). What
is reached from one thread thus never hides what is reached from another, although at each offset only one thread goes on.

The reason is that threads at one offset of a text reach the same offsets, as long as the places that either has passed
do not lie within the expression (`Additive.same`). Parts of an expression have places of their own, so threads that come
out of one part are fresh for the next.
-/

set_option autoImplicit false
set_option relaxedAutoImplicit false

namespace PathBinding.Regex

open Relation

/-! ### Positions in a text -/

/-- A thread stands somewhere in a text. -/
def Thread.On (text : List Char) (t : Thread) : Prop :=
  ∃ s, (Thread.start 0 none text).Ahead t s

namespace Thread.On

variable {text : List Char} {t u : Thread}

theorem start (text : List Char) : (Thread.start 0 none text).On text :=
  ⟨[], Ahead.refl _⟩

theorem ahead {s : List Char} (h : t.On text) (hu : t.Ahead u s) : u.On text :=
  h.elim fun r hr ↦ ⟨r ++ s, hr.trans hu⟩

theorem lead {scope : Scope} {least : Nat} (h : t.On text) (hu : Leads scope least t u) :
    u.On text :=
  hu.elim fun _ hs ↦ h.ahead hs.1.toAhead

theorem offset_add (h : t.On text) : t.offset + t.rest.length = text.length := by
  obtain ⟨s, hrest, hoffset, -⟩ := h
  have hlength : text.length = s.length + t.rest.length := by
    rw [← List.length_append, ← hrest]
    rfl
  rw [hlength, hoffset]
  simp [Thread.start]

/-- The offset tells the position. -/
theorem position_eq (h : t.On text) (hu : u.On text) (ho : t.offset = u.offset) :
    t.rest = u.rest ∧ t.before = u.before := by
  obtain ⟨s, hrest, hoffset, hbefore⟩ := h
  obtain ⟨r, hrest', hoffset', hbefore'⟩ := hu
  have hlength : s.length = r.length := by
    simp only [Thread.start] at hoffset hoffset'
    omega
  obtain ⟨rfl, hsame⟩ := List.append_inj (hrest.symm.trans hrest') hlength
  exact ⟨hsame, hbefore.trans hbefore'.symm⟩

end Thread.On

/-! ### Places of parts -/

/-- The places of an expression at a place, or all places where they have no names yet. -/
def Place.Inside (place : Place) (p : List Nat) : Prop :=
  ∀ path, place = some path → path <:+ p

/-- The places that threads may gain in an expression at a place. -/
def Place.Gained (place : Place) (p : List Nat) : Prop :=
  ∃ path, place = some path ∧ path <:+ p

namespace Place

variable {place : Place} {p : List Nat}

theorem suffix_part (path : List Nat) (kind number : Nat) : path <:+ number :: kind :: path :=
  ⟨[number, kind], rfl⟩

theorem Inside.of_part {kind number : Nat} (h : (place.part kind number).Inside p) :
    place.Inside p := by
  rintro path rfl
  exact (suffix_part path kind number).trans (h _ rfl)

theorem Gained.of_part {kind number : Nat} (h : (place.part kind number).Gained p) :
    place.Gained p := by
  obtain ⟨path', hpath', hp⟩ := h
  obtain ⟨path, rfl, rfl⟩ := Option.map_eq_some_iff.mp hpath'
  exact ⟨path, rfl, (suffix_part path kind number).trans hp⟩

/-- Different parts have no place in common. -/
theorem not_inside_of_gained {kind number kind' number' : Nat}
    (hne : kind ≠ kind' ∨ number ≠ number') (h : (place.part kind number).Gained p) :
    ¬(place.part kind' number').Inside p := by
  obtain ⟨path', hpath', hp⟩ := h
  obtain ⟨path, rfl, rfl⟩ := Option.map_eq_some_iff.mp hpath'
  intro hinside
  have hp' : number' :: kind' :: path <:+ p := hinside _ rfl
  have heq := (List.suffix_of_suffix_length_le hp hp' (Nat.le_refl _)).eq_of_length rfl
  simp only [List.cons.injEq, and_true] at heq
  omega

end Place

/-- A thread has passed none of some places. -/
def Thread.Fresh (P : List Nat → Prop) (t : Thread) : Prop :=
  ∀ p ∈ t.passed, ¬P p

/-- Threads may gain some places and anything else. -/
def Scope.through (G : List Nat → Prop) : Scope :=
  ⟨fun _ ↦ True, fun _ ↦ True, G⟩

theorem Leads.widen {G H : List Nat → Prop} {least : Nat} {t u : Thread} (hGH : ∀ p, G p → H p)
    (h : Leads (.through G) least t u) : Leads (.through H) least t u :=
  h.imp fun _ hs ↦ ⟨⟨hs.1.toAhead, hs.1.begun, hs.1.captures, hs.1.chars, fun p hp ↦
    (hs.1.passed p hp).imp_right (hGH p)⟩, hs.2⟩

theorem Forward.widen {G H : List Nat → Prop} {least : Nat} {f : List Thread → List Thread}
    (hGH : ∀ p, G p → H p) (h : Forward (.through G) least f) : Forward (.through H) least f :=
  ⟨fun ts hts ↦ (h.follows ts hts).mono fun _ _ ↦ Leads.widen hGH, h.nodup⟩

/-! ### Steps that treat threads apart -/

/-- A step, to which the places `P` matter and in which threads gain places of `G` only, that reaches from threads on a
text what it reaches from each of them. -/
structure Additive (text : List Char) (P G : List Nat → Prop) (f : List Thread → List Thread) :
    Prop where
  forward : Forward (.through G) 0 f
  respects : ∀ F : Frame, F.looks → (∀ p, P p → F.places p) → F.Respects f
  apart : ∀ ts, (offsetsOf ts).Nodup → (∀ t ∈ ts, t.On text ∧ t.Fresh P) → ∀ o,
    o ∈ offsetsOf (f ts) ↔ ∃ t ∈ ts, o ∈ offsetsOf (f [t])

namespace Additive

variable {text : List Char} {P Q G H : List Nat → Prop} {f g : List Thread → List Thread}

theorem weaken (h : Additive text P G f) (hP : ∀ p, P p → Q p) (hG : ∀ p, G p → H p) :
    Additive text Q H f where
  forward := h.forward.widen hG
  respects F hlooks hplaces := h.respects F hlooks fun p hp ↦ hplaces p (hP p hp)
  apart ts hnodup hts := h.apart ts hnodup fun t ht ↦
    ⟨(hts t ht).1, fun p hp ↦ mt (hP p) ((hts t ht).2 p hp)⟩

/-- Threads at one offset reach the same offsets. -/
theorem same (h : Additive text P G f) {t u : Thread} (ht : t.On text ∧ t.Fresh P)
    (hu : u.On text ∧ u.Fresh P) (hoffset : t.offset = u.offset) (o : Nat) :
    o ∈ offsetsOf (f [t]) ↔ o ∈ offsetsOf (f [u]) := by
  obtain ⟨hrest, hbefore⟩ := ht.1.position_eq hu.1 hoffset
  let F : Frame := ⟨[], [], text.length, 0, True, False, P, fun _ ↦ rfl⟩
  have halike : F.Alike 0 t u := by
    refine ⟨⟨t.rest, ?_, ?_, ht.1.offset_add, hoffset.symm⟩, fun _ ↦ hbefore, False.elim,
      ⟨[], [], t.begun, u.begun, rfl, rfl, .nil, rfl⟩, fun p hp ↦ ?_⟩
    · simp [F]
    · simp [F, hrest]
    · exact iff_of_false (fun h ↦ ht.2 p h hp) fun h ↦ hu.2 p h hp
  have haligned := (h.respects F trivial fun _ hp ↦ hp).single halike
  have hle {t : Thread} (ht : t.On text) (ho : o ∈ offsetsOf (f [t])) : o ≤ text.length := by
    obtain ⟨v, hv, rfl⟩ := mem_offsetsOf.mp ho
    have := (ht.lead (h.forward.lead hv)).offset_add
    omega
  constructor
  · intro ho
    exact (haligned.mem_offsetsOf_iff (hle ht.1 ho)).mp ho
  · intro ho
    exact (haligned.mem_offsetsOf_iff (hle hu.1 ho)).mpr ho

/-- What a step leads to stands on the text and is fresh for other places. -/
theorem on_fresh (h : Additive text P G f) (hdisjoint : ∀ p, G p → ¬Q p) {ts : List Thread}
    (hnodup : (offsetsOf ts).Nodup) (hts : ∀ t ∈ ts, t.On text ∧ t.Fresh Q) :
    ∀ u ∈ f ts, u.On text ∧ u.Fresh Q := by
  intro u hu
  obtain ⟨t, ht, s, hs, -⟩ := (h.forward.follows ts hnodup).source hu
  refine ⟨(hts t ht).1.ahead hs.toAhead, fun p hp ↦ ?_⟩
  exact (hs.passed p hp).elim ((hts t ht).2 p) (hdisjoint p)

theorem comp (hf : Additive text P G f) (hg : Additive text Q H g)
    (hdisjoint : ∀ p, G p → ¬Q p) :
    Additive text (fun p ↦ P p ∨ Q p) (fun p ↦ G p ∨ H p) fun ts ↦ g (f ts) where
  forward := (hf.forward.widen fun _ ↦ Or.inl).comp (hg.forward.widen fun _ ↦ Or.inr)
  respects F hlooks hplaces := (hf.respects F hlooks fun p hp ↦ hplaces p (Or.inl hp)).comp
    (hg.respects F hlooks fun p hp ↦ hplaces p (Or.inr hp))
  apart ts hnodup hts o := by
    have hP {t : Thread} (ht : t ∈ ts) : t.On text ∧ t.Fresh P :=
      ⟨(hts t ht).1, fun p hp ↦ mt Or.inl ((hts t ht).2 p hp)⟩
    have hQ {t : Thread} (ht : t ∈ ts) : t.On text ∧ t.Fresh Q :=
      ⟨(hts t ht).1, fun p hp ↦ mt Or.inr ((hts t ht).2 p hp)⟩
    have hgood := hf.on_fresh hdisjoint hnodup fun t ↦ hQ
    have hsingle {t : Thread} (ht : t ∈ ts) : ∀ u ∈ f [t], u.On text ∧ u.Fresh Q :=
      hf.on_fresh hdisjoint (List.nodup_singleton _) fun s hs ↦ by
        rw [List.mem_singleton.mp hs]
        exact hQ ht
    have hapart {t : Thread} (ht : t ∈ ts) := hg.apart (f [t])
      (hf.forward.nodup _ (List.nodup_singleton _)) (hsingle ht) o
    rw [hg.apart (f ts) (hf.forward.nodup ts hnodup) hgood]
    constructor
    · rintro ⟨u, hu, ho⟩
      obtain ⟨t, ht, hut⟩ := (hf.apart ts hnodup (fun t ↦ hP) u.offset).mp (mem_offsetsOf_of_mem hu)
      obtain ⟨v, hv, hoffset⟩ := mem_offsetsOf.mp hut
      exact ⟨t, ht, (hapart ht).mpr
        ⟨v, hv, (hg.same (hsingle ht v hv) (hgood u hu) hoffset o).mpr ho⟩⟩
    · rintro ⟨t, ht, ho⟩
      obtain ⟨v, hv, ho⟩ := (hapart ht).mp ho
      obtain ⟨u, hu, hoffset⟩ := mem_offsetsOf.mp
        ((hf.apart ts hnodup (fun t ↦ hP) v.offset).mpr ⟨t, ht, mem_offsetsOf_of_mem hv⟩)
      exact ⟨u, hu, (hg.same (hgood u hu) (hsingle ht v hv) hoffset o).mpr ho⟩

end Additive

section Steps

variable {text : List Char} {P G : List Nat → Prop} {f g : List Thread → List Thread}

theorem additive_id (text : List Char) (P G : List Nat → Prop) :
    Additive text P G fun ts ↦ ts where
  forward := .id _
  respects F _ _ := .id F
  apart ts _ _ o := by simp [mem_offsetsOf, eq_comm]

theorem mem_offsetsOf_filterMap (f : Thread → Option Thread) (ts : List Thread) (o : Nat) :
    o ∈ offsetsOf (ts.filterMap f) ↔ ∃ t ∈ ts, o ∈ offsetsOf ([t].filterMap f) := by
  simp only [mem_offsetsOf, List.mem_filterMap, List.mem_singleton]
  constructor
  · rintro ⟨u, ⟨t, ht, hu⟩, ho⟩
    exact ⟨t, ht, u, ⟨t, rfl, hu⟩, ho⟩
  · rintro ⟨t, ht, u, ⟨s, rfl, hu⟩, ho⟩
    exact ⟨u, ⟨s, ht, hu⟩, ho⟩

theorem additive_pass (text : List Char) (place : Place) :
    Additive text place.Inside (place = some ·) fun ts ↦ ts.filterMap (·.pass? place) where
  forward := forward_pass fun _ hpath ↦ hpath
  respects F _ hplaces := Frame.respects_pass fun path hpath ↦ hplaces path fun path' hpath' ↦ by
    cases hpath.symm.trans hpath'
    exact List.suffix_rfl
  apart ts _ _ := mem_offsetsOf_filterMap _ ts

/-- Of two ways each counts. -/
theorem mem_offsetsOf_prefer {scope : Scope} (hf : Forward scope 0 f) (hg : Forward scope 0 g)
    {ts : List Thread} (hnodup : (offsetsOf ts).Nodup) (o : Nat) :
    o ∈ offsetsOf (prefer ts f g) ↔
      o ∈ offsetsOf (f (ts.map Thread.mark)) ∨ o ∈ offsetsOf (g (ts.map Thread.mark)) := by
  have hmarked : (offsetsOf (ts.map Thread.mark)).Nodup := by
    rwa [offsetsOf_mark]
  -- Whatever a way leads to begins at some thread.
  have hsource {f : List Thread → List Thread} (hf : Forward scope 0 f) {v : Thread}
      (hv : v ∈ f (ts.map Thread.mark)) : ∃ t ∈ ts, t.mark.isFrom v = true := by
    obtain ⟨m, hm, hlead⟩ := (hf.follows _ hmarked).source hv
    obtain ⟨t, ht, rfl⟩ := List.mem_map.mp hm
    exact ⟨t, ht, (isFrom_mark hlead).mpr rfl⟩
  rw [prefer_eq hf hg hnodup, mem_offsetsOf_distinct]
  simp only [mem_offsetsOf, List.mem_flatMap, List.mem_map, List.mem_append, List.mem_filter]
  constructor
  · rintro ⟨u, ⟨t, -, v, hv, rfl⟩, ho⟩
    exact hv.imp (fun hv ↦ ⟨v, hv.1, ho⟩) fun hv ↦ ⟨v, hv.1, ho⟩
  · rintro (⟨v, hv, ho⟩ | ⟨v, hv, ho⟩)
    · obtain ⟨t, ht, hfrom⟩ := hsource hf hv
      exact ⟨v.unmark, ⟨t, ht, v, Or.inl ⟨hv, hfrom⟩, rfl⟩, ho⟩
    · obtain ⟨t, ht, hfrom⟩ := hsource hg hv
      exact ⟨v.unmark, ⟨t, ht, v, Or.inr ⟨hv, hfrom⟩, rfl⟩, ho⟩

theorem Additive.apart_mark (h : Additive text P G f) {ts : List Thread}
    (hnodup : (offsetsOf ts).Nodup) (hts : ∀ t ∈ ts, t.On text ∧ t.Fresh P) (o : Nat) :
    o ∈ offsetsOf (f (ts.map Thread.mark)) ↔ ∃ t ∈ ts, o ∈ offsetsOf (f [t.mark]) := by
  have hmarked : (offsetsOf (ts.map Thread.mark)).Nodup := by
    rwa [offsetsOf_mark]
  have hgood : ∀ m ∈ ts.map Thread.mark, m.On text ∧ m.Fresh P := by
    intro m hm
    obtain ⟨t, ht, rfl⟩ := List.mem_map.mp hm
    have hmark : t.Ahead t.mark [] := ⟨rfl, rfl, rfl⟩
    exact ⟨(hts t ht).1.ahead hmark, (hts t ht).2⟩
  rw [h.apart _ hmarked hgood]
  simp only [List.mem_map, exists_exists_and_eq_and]

theorem additive_prefer (hf : Additive text P G f) (hg : Additive text P G g) :
    Additive text P G fun ts ↦ prefer ts f g where
  forward := forward_prefer hf.forward hg.forward
  respects F hlooks hplaces :=
    Frame.respects_prefer (hf.respects F hlooks hplaces) (hg.respects F hlooks hplaces)
  apart ts hnodup hts o := by
    have hsingle (t : Thread) : (offsetsOf [t]).Nodup := List.nodup_singleton _
    rw [mem_offsetsOf_prefer hf.forward hg.forward hnodup, hf.apart_mark hnodup hts,
      hg.apart_mark hnodup hts, ← exists_or]
    simp only [mem_offsetsOf_prefer hf.forward hg.forward (hsingle _), List.map_cons, List.map_nil,
      and_or_left]

/-- Iterations that all take part, each at a part of its own. -/
theorem additive_inTurn {place : Place} {kind : Nat} {step : Nat → List Thread → List Thread}
    (hstep : ∀ i, Additive text (place.part kind i).Inside (place.part kind i).Gained (step i))
    (n : Nat) :
    Additive text (fun p ↦ ∃ i, (place.part kind i).Inside p)
      (fun p ↦ ∃ i < n, (place.part kind i).Gained p) (inTurn ((List.range n).map step)) := by
  induction n with
  | zero => exact additive_id text _ _
  | succ n ih =>
    have hsucc : inTurn ((List.range (n + 1)).map step) =
        fun ts ↦ step n (inTurn ((List.range n).map step) ts) := by
      funext ts
      simp [inTurn, List.range_succ]
    rw [hsucc]
    refine (ih.comp (hstep n) fun p hp ↦ ?_).weaken (fun p hp ↦ ?_) fun p hp ↦ ?_
    · obtain ⟨i, hi, hp⟩ := hp
      exact Place.not_inside_of_gained (Or.inr (Nat.ne_of_lt hi)) hp
    · exact hp.elim (fun hp ↦ hp) fun hp ↦ ⟨n, hp⟩
    · rcases hp with ⟨i, hi, hp⟩ | hp
      · exact ⟨i, Nat.lt_succ_of_lt hi, hp⟩
      · exact ⟨n, Nat.lt_succ_self n, hp⟩

/-- The places of the last `count` iterations of a bounded repetition. -/
def Place.Iterations (place : Place) (count : Nat) (holds : Place → List Nat → Prop)
    (p : List Nat) : Prop :=
  ∃ i < count, holds (place.part 1 i) p ∨ holds (place.part 2 i) p

theorem additive_upTo {place : Place} {step : Nat → List Thread → List Thread}
    (hstep : ∀ i, Additive text (place.part 1 i).Inside (place.part 1 i).Gained (step i))
    (greedy : Bool) (count : Nat) :
    Additive text (place.Iterations count Place.Inside) (place.Iterations count Place.Gained)
      (upTo step greedy (place.part 2) count) := by
  induction count with
  | zero => exact additive_id text _ _
  | succ count ih =>
    have hdisjoint {kind number : Nat} (hne : kind = 1 ∨ kind = 2) (hle : count ≤ number)
        (p : List Nat) (hp : (place.part kind number).Gained p) :
        ¬place.Iterations count Place.Inside p := by
      rintro ⟨i, hi, hin | hin⟩
      · exact Place.not_inside_of_gained (by omega) hp hin
      · exact Place.not_inside_of_gained (by omega) hp hin
    have hmore {holds : Place → List Nat → Prop} {p : List Nat} (hp : place.Iterations count holds p) :
        place.Iterations (count + 1) holds p := by
      obtain ⟨i, hi, hp⟩ := hp
      exact ⟨i, Nat.lt_succ_of_lt hi, hp⟩
    have hagain := (hstep count).comp ih (hdisjoint (Or.inl rfl) (Nat.le_refl _))
    have hpass : Additive text (place.part 2 count).Inside (place.part 2 count).Gained _ :=
      (additive_pass text (place.part 2 count)).weaken (fun _ hp ↦ hp)
        fun p hp ↦ ⟨p, hp, List.suffix_rfl⟩
    have hfirst (p : List Nat) (hp : (place.part 2 count).Gained p) :
        ¬((place.part 1 count).Inside p ∨ place.Iterations count Place.Inside p) :=
      not_or.mpr ⟨Place.not_inside_of_gained (by omega) hp,
        hdisjoint (Or.inr rfl) (Nat.le_refl _) p hp⟩
    have hlast (holds : Place → List Nat → Prop) (p : List Nat)
        (hp : holds (place.part 2 count) p ∨ holds (place.part 1 count) p ∨
          place.Iterations count holds p) : place.Iterations (count + 1) holds p := by
      rcases hp with hp | hp | hp
      · exact ⟨count, Nat.lt_succ_self count, Or.inr hp⟩
      · exact ⟨count, Nat.lt_succ_self count, Or.inl hp⟩
      · exact hmore hp
    have hgreedy := (hpass.comp (additive_prefer hagain (additive_id text _ _)) hfirst).weaken
      (hlast Place.Inside) (hlast Place.Gained)
    have hlazy := (hpass.comp (additive_prefer (additive_id text _ _) hagain) hfirst).weaken
      (hlast Place.Inside) (hlast Place.Gained)
    have hfunext : upTo step greedy (place.part 2) (count + 1) = fun threads ↦
        if greedy then prefer (threads.filterMap (·.pass? (place.part 2 count)))
          (fun threads ↦ upTo step greedy (place.part 2) count (step count threads)) fun ts ↦ ts
        else prefer (threads.filterMap (·.pass? (place.part 2 count))) (fun ts ↦ ts)
          fun threads ↦ upTo step greedy (place.part 2) count (step count threads) :=
      funext fun threads ↦ upTo_succ step greedy (place.part 2) count threads
    rw [hfunext]
    cases greedy with
    | true => exact hgreedy
    | false => exact hlazy

end Steps

/-! ### Repetitions without an end -/

section Repetition

variable {text : List Char} {body : Regex} {take : Turning → Thread → Turning}

/-- Where each thread remembers places of its own, none hides what another reaches. -/
theorem mem_offsetsOf_behind_some (path : List Nat) (ts : List Thread) (o : Nat) :
    o ∈ offsetsOf (behind (some path) take ts) ↔
      ∃ t ∈ ts, o ∈ offsetsOf (behind (some path) take [t]) := by
  simp only [behind, mem_offsetsOf_distinct, List.flatMap_cons, List.flatMap_nil, List.append_nil]
  simp only [mem_offsetsOf, List.mem_flatMap]
  constructor
  · rintro ⟨u, ⟨t, ht, hu⟩, ho⟩
    exact ⟨t, ht, u, hu, ho⟩
  · rintro ⟨t, ht, u, hu, ho⟩
    exact ⟨u, ⟨t, ht, hu⟩, ho⟩

/-- Which offsets of a text an expression outside repetitions reaches from which. -/
def Reaches (text : List Char) (r : Regex) (o o' : Nat) : Prop :=
  ∃ t : Thread, t.On text ∧ t.passed = [] ∧ t.offset = o ∧ o' ∈ offsetsOf (run none r [t])

theorem reaches_iff {r : Regex} {P G : List Nat → Prop} (h : Additive text P G (run none r))
    {t : Thread} (ht : t.On text) (hpassed : t.passed = []) (o : Nat) :
    Reaches text r t.offset o ↔ o ∈ offsetsOf (run none r [t]) := by
  constructor
  · rintro ⟨u, hu, hpassed', hoffset, ho⟩
    exact (h.same ⟨hu, by simp [Thread.Fresh, hpassed']⟩ ⟨ht, by simp [Thread.Fresh, hpassed]⟩
      hoffset o).mp ho
  · intro ho
    exact ⟨t, ht, hpassed, rfl, ho⟩

/-- Outside repetitions threads remember no places. -/
theorem passed_run {r : Regex} {t u : Thread} (hpassed : t.passed = []) (hu : u ∈ run none r [t]) :
    u.passed = [] := by
  have hcovers : (Scope.through fun _ ↦ False).Covers none r :=
    ⟨fun _ _ ↦ trivial, fun _ _ ↦ trivial, nofun⟩
  obtain ⟨s, hs, -⟩ := (run_forward _ r none hcovers).lead hu
  refine List.eq_nil_iff_forall_not_mem.mpr fun p hp ↦ ?_
  rcases hs.passed p hp with hin | hfalse
  · simp [hpassed] at hin
  · exact hfalse

theorem consuming_run {P G : List Nat → Prop} (h : Additive text P G (run none body))
    (hleast : body.leastLength ≠ 0) :
    Consuming (Reaches text body) (fun t ↦ t.On text ∧ t.passed = []) fun t ↦ run none body [t] where
  lead _ _ hu := ((run_forward .all body none (Scope.all_covers none body)).lead hu).weaken
    (Nat.pos_of_ne_zero hleast)
  stays _ ht _ hu := ⟨ht.1.lead ((forward_run none body).lead hu), passed_run ht.2 hu⟩
  mem _ ht o := (reaches_iff h ht.1 ht.2 o).symm

/-- The way through a repetition without an end. -/
def takeAny (body : Regex) (min : Nat) (greedy : Bool) (within : Place) :
    Turning → Thread → Turning :=
  let step (t : Thread) : List Thread := run (within.part 1 0) body [t]
  let first := if body.leastLength = 0 then within.part 2 1 else within.part 2 0
  if min = 0 then iterateAny step greedy first (within.part 2 0)
  else iterate step greedy (within.part 2 0)

/-- A consuming iteration leads from each thread to what can be reached in some number of steps. -/
theorem mem_behind_takeAny {P G : List Nat → Prop} (h : Additive text P G (run none body))
    (hleast : body.leastLength ≠ 0) (min : Nat) (greedy : Bool) {ts : List Thread}
    (hts : ∀ t ∈ ts, t.On text ∧ t.passed = []) (o : Nat) :
    o ∈ offsetsOf (behind none (takeAny body min greedy none) ts) ↔ ∃ t ∈ ts,
      if min = 0 then ReflTransGen (Reaches text body) t.offset o
      else TransGen (Reaches text body) t.offset o := by
  have hconsuming := consuming_run h hleast
  unfold takeAny
  rw [if_neg hleast]
  by_cases hmin : min = 0
  · simp only [if_pos hmin]
    exact mem_behind_iterateAny hconsuming greedy hts o
  · simp only [if_neg hmin]
    exact mem_behind_iterate hconsuming greedy hts o

theorem additive_behind {within : Place} {min : Nat} {greedy : Bool}
    (hbody : Additive text (within.part 1 0).Inside (within.part 1 0).Gained
      (run (within.part 1 0) body)) (hwithin : within = none → body.leastLength ≠ 0) :
    Additive text (fun p ↦ (within.part 1 0).Inside p ∨ ∃ i, (within.part 2 i).Inside p)
      within.Gained (behind within (takeAny body min greedy within)) where
  forward := by
    have hstep (t : Thread) : ∀ u ∈ run (within.part 1 0) body [t],
        Leads (.through within.Gained) 0 t u :=
      fun u hu ↦ (hbody.forward.lead hu).widen fun p hp ↦ hp.of_part
    have hplace (i : Nat) (path : List Nat) (hpath : within.part 2 i = some path) :
        (Scope.through within.Gained).places path :=
      Place.Gained.of_part ⟨path, hpath, List.suffix_rfl⟩
    refine forward_behind fun turning t ↦ ?_
    unfold takeAny
    by_cases hmin : min = 0
    · rw [if_pos hmin]
      refine adds_iterateAny hstep ?_ (hplace 0) greedy turning t
      split
      · exact hplace 1
      · exact hplace 0
    · rw [if_neg hmin]
      exact adds_iterate hstep (hplace 0) greedy turning t
  respects F hlooks hplaces := by
    have hrun := hbody.respects F hlooks fun p hp ↦ hplaces p (Or.inl hp)
    have hlead (t : Thread) : ∀ u ∈ run (within.part 1 0) body [t], Leads .all 0 t u :=
      fun u hu ↦ hrun.forward.lead hu
    have hplace (i : Nat) (path : List Nat) (hpath : within.part 2 i = some path) :
        F.places path := by
      refine hplaces path (Or.inr ⟨i, fun path' hpath' ↦ ?_⟩)
      cases hpath.symm.trans hpath'
      exact List.suffix_rfl
    unfold takeAny
    by_cases hmin : min = 0
    · rw [if_pos hmin]
      refine Frame.respects_behind (grows_iterateAny hlead greedy) fun ht hab ↦
        Frame.alike_iterateAny hlead (fun _ _ ↦ hrun.single) ?_ (hplace 0) greedy ht hab
      split
      · exact hplace 1
      · exact hplace 0
    · rw [if_neg hmin]
      exact Frame.respects_behind (grows_iterate hlead greedy) fun ht hab ↦
        Frame.alike_iterate hlead (fun _ _ ↦ hrun.single) (hplace 0) greedy ht hab
  apart ts _ hts o := by
    cases within with
    | some path => exact mem_offsetsOf_behind_some path ts o
    | none =>
      have hgood : ∀ t ∈ ts, t.On text ∧ t.passed = [] := by
        intro t ht
        refine ⟨(hts t ht).1, List.eq_nil_iff_forall_not_mem.mpr fun p hp ↦ ?_⟩
        exact (hts t ht).2 p hp (Or.inl nofun)
      have hleast := hwithin rfl
      rw [mem_behind_takeAny hbody hleast min greedy hgood]
      refine exists_congr fun t ↦ and_congr_right fun ht ↦ ?_
      rw [mem_behind_takeAny hbody hleast min greedy
        fun u hu ↦ by rw [List.mem_singleton.mp hu]; exact hgood t ht]
      simp

end Repetition

/-! ### Every expression -/

theorem run_repeat_none (place : Place) (body : Regex) (min : Nat) (greedy : Bool)
    (ts : List Thread) :
    let within : Place := if place.isNone ∧ body.leastLength = 0 then some [] else place
    run place (.repeat min none greedy body) ts =
      (behind within (takeAny body min greedy within)
        (inTurn ((List.range (min - 1)).map fun i ↦ run (within.part 0 i) body) ts)).map
          (Thread.forgetIn place) := by
  rw [run]
  rfl

/-- Threads on a text that are fresh for an expression reach apart what they reach together. -/
theorem additive_run (text : List Char) (r : Regex) (place : Place) :
    Additive text place.Inside place.Gained (run place r) := by
  -- Only what concerns several threads is by induction.
  have hof (r : Regex) (place : Place)
      (hapart : ∀ ts, (offsetsOf ts).Nodup → (∀ t ∈ ts, t.On text ∧ t.Fresh place.Inside) → ∀ o,
        o ∈ offsetsOf (run place r ts) ↔ ∃ t ∈ ts, o ∈ offsetsOf (run place r [t])) :
      Additive text place.Inside place.Gained (run place r) := by
    have hcovers : (Scope.through place.Gained).Covers place r :=
      ⟨fun _ _ ↦ trivial, fun _ _ ↦ trivial, fun path p hpath hp ↦ ⟨path, hpath, hp⟩⟩
    exact ⟨(run_forward _ r place hcovers).weaken (Nat.zero_le _),
      fun F hlooks hplaces ↦ Frame.respects_run r hplaces (Or.inl hlooks), hapart⟩
  induction r generalizing place with
  | empty => exact additive_id text _ _
  | set chars => exact hof _ _ fun ts _ _ ↦ mem_offsetsOf_filterMap (·.advance? chars) ts
  | look condition =>
    refine hof _ _ fun ts _ _ o ↦ ?_
    simp only [run, mem_offsetsOf, List.mem_filter, List.mem_singleton]
    constructor
    · rintro ⟨t, ⟨ht, hholds⟩, ho⟩
      exact ⟨t, ht, t, ⟨rfl, hholds⟩, ho⟩
    · rintro ⟨t, ht, u, ⟨rfl, hholds⟩, ho⟩
      exact ⟨u, ⟨ht, hholds⟩, ho⟩
  | seq a b iha ihb =>
    have hcomp := (iha (place.part 0 0)).comp (ihb (place.part 0 1)) fun p hp ↦
      Place.not_inside_of_gained (by omega) hp
    exact hcomp.weaken (fun p hp ↦ hp.elim Place.Inside.of_part Place.Inside.of_part)
      fun p hp ↦ hp.elim Place.Gained.of_part Place.Gained.of_part
  | alt a b iha ihb =>
    have hprefer := additive_prefer ((iha (place.part 0 0)).weaken (fun _ ↦ Or.inl) fun _ ↦ Or.inl)
      ((ihb (place.part 0 1)).weaken (fun _ ↦ Or.inr) fun _ ↦ Or.inr)
    refine ((additive_pass text place).comp hprefer fun p hp ↦ ?_).weaken (fun p hp ↦ ?_)
      fun p hp ↦ ?_
    · -- The place itself is shorter than those of its parts.
      have hlonger (number : Nat) : ¬(place.part 0 number).Inside p := by
        intro hin
        have hlength := (hin (number :: 0 :: p) (by rw [hp]; rfl)).length_le
        simp only [List.length_cons] at hlength
        omega
      exact not_or.mpr ⟨hlonger 0, hlonger 1⟩
    · rcases hp with hp | hp | hp
      · exact hp
      · exact hp.of_part
      · exact hp.of_part
    · rcases hp with hp | hp | hp
      · exact ⟨p, hp, List.suffix_rfl⟩
      · exact hp.of_part
      · exact hp.of_part
  | «repeat» min max greedy body ih =>
    cases max with
    | some max =>
      have hrequired := additive_inTurn (fun i ↦ ih (place.part 0 i)) min
      have hoptional := additive_upTo (fun i ↦ ih (place.part 1 i)) greedy (max - min)
      refine (hrequired.comp hoptional fun p hp ↦ ?_).weaken (fun p hp ↦ ?_) fun p hp ↦ ?_
      · rintro ⟨j, -, hin | hin⟩
        · exact hp.elim fun i hi ↦ Place.not_inside_of_gained (by omega) hi.2 hin
        · exact hp.elim fun i hi ↦ Place.not_inside_of_gained (by omega) hi.2 hin
      · rcases hp with ⟨i, hp⟩ | ⟨i, -, hp | hp⟩
        · exact hp.of_part
        · exact hp.of_part
        · exact hp.of_part
      · rcases hp with ⟨i, -, hp⟩ | ⟨i, -, hp | hp⟩
        · exact hp.of_part
        · exact hp.of_part
        · exact hp.of_part
    | none =>
      refine hof _ _ fun ts hnodup hts o ↦ ?_
      have hoffset (t : Thread) : (t.forgetIn place).offset = t.offset := by
        cases place <;> rfl
      simp only [run_repeat_none, offsetsOf_map_of_eq hoffset]
      generalize hwithin : (if place.isNone ∧ body.leastLength = 0 then some [] else place : Place)
        = within
      have hinside : ∀ p, within.Inside p → place.Inside p := by
        cases place with
        | none => exact fun p _ path hpath ↦ by cases hpath
        | some path =>
          rw [if_neg (by simp)] at hwithin
          exact hwithin ▸ fun p hp ↦ hp
      have hnone : within = none → body.leastLength ≠ 0 := by
        intro hnone hleast
        cases place with
        | none => simp [hnone, hleast] at hwithin
        | some path => simp [hnone] at hwithin
      have hrequired := additive_inTurn (fun i ↦ ih (within.part 0 i)) (min - 1)
      have hbehind : Additive text _ _ (behind within (takeAny body min greedy within)) :=
        additive_behind (ih (within.part 1 0)) hnone
      refine ((hrequired.comp hbehind fun p hp ↦ ?_).weaken (fun p hp ↦ hinside p ?_)
        fun _ hp ↦ hp).apart ts hnodup hts o
      · obtain ⟨i, -, hp⟩ := hp
        rintro (hin | ⟨j, hin⟩)
        · exact Place.not_inside_of_gained (by omega) hp hin
        · exact Place.not_inside_of_gained (by omega) hp hin
      · rcases hp with ⟨i, hp⟩ | hp | ⟨i, hp⟩
        · exact hp.of_part
        · exact hp.of_part
        · exact hp.of_part
  | group name body ih =>
    cases name with
    | none => exact ih place
    | some name =>
      refine hof _ _ fun ts hnodup hts o ↦ ?_
      have hoffset (t : Thread) : ((t.capture name).unmark).offset = t.offset := by
        rw [Thread.From.unmark_capture]
        rfl
      simp only [run, offsetsOf_map_of_eq hoffset]
      rw [(ih place).apart_mark hnodup hts]
      rfl

end PathBinding.Regex
