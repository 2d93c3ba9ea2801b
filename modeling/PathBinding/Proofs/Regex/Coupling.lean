import PathBinding.Proofs.Regex.Likeness

/-!
Two runs of one expression on texts that share a stretch, for repetitions and so for every expression: lists that are
aligned stay so (`respects_run`).

The bound of a repetition depends on the text that is left, so it differs between the runs. `Turning.Adequate` says when
it is too large to count. It holds of all threads behind an iteration (`Turning.adequate_begin`), as these are further on
in the text or stand where the iteration has begun.
-/

set_option autoImplicit false
set_option relaxedAutoImplicit false

namespace PathBinding.Regex

/-! ### Bounds of repetitions -/

/-- From one state of a repetition to the next, iterations have only begun at some offset or behind it. -/
def Turning.Begins (least : Nat) (before after : Turning) : Prop :=
  (∀ o, before.begun.contains o = true → after.begun.contains o = true) ∧
    ∀ o, after.begun.contains o = true → before.begun.contains o = true ∨ least ≤ o

/-- A bound that no repetition under way at a thread can use up: either no iteration begins here, or there are more
iterations to go than there is text. -/
def Turning.Adequate (bound : Nat) (turning : Turning) (t : Thread) : Prop :=
  bound ≠ 0 ∧ (turning.begun.contains t.offset = true ∨ t.rest.length + 1 < bound)

namespace Turning

variable {least more bound : Nat} {first second third : Turning} {t u : Thread}

theorem contains_begin (turning : Turning) (t : Thread) (o : Nat) :
    (turning.begin t).begun.contains o = true ↔ o = t.offset ∨ turning.begun.contains o = true := by
  rw [begin, Std.TreeSet.contains_insert, Std.compare_beq_eq_beq, Bool.or_eq_true, beq_iff_eq,
    eq_comm]

namespace Begins

theorem refl (least : Nat) (turning : Turning) : Begins least turning turning :=
  ⟨fun _ h ↦ h, fun _ ↦ Or.inl⟩

theorem trans (h : Begins least first second) (h' : Begins least second third) :
    Begins least first third :=
  ⟨fun o ho ↦ h'.1 o (h.1 o ho), fun o ho ↦ (h'.2 o ho).elim (h.2 o) Or.inr⟩

theorem weaken (h : Begins least first second) (hle : more ≤ least) : Begins more first second :=
  ⟨h.1, fun o ho ↦ (h.2 o ho).imp_right (Nat.le_trans hle)⟩

theorem begin (turning : Turning) (t : Thread) : Begins t.offset turning (turning.begin t) :=
  ⟨fun o ho ↦ (contains_begin turning t o).mpr (Or.inr ho), fun o ho ↦
    ((contains_begin turning t o).mp ho).elim (fun h ↦ Or.inr (Nat.le_of_eq h.symm)) Or.inl⟩

theorem foldl {take : Turning → Thread → Turning} {ts : List Thread}
    (htake : ∀ turning, ∀ t ∈ ts, Begins least turning (take turning t)) (turning : Turning) :
    Begins least turning (ts.foldl take turning) := by
  induction ts generalizing turning with
  | nil => exact refl least turning
  | cons t ts ih =>
    exact (htake turning t List.mem_cons_self).trans
      (ih (fun turning s hs ↦ htake turning s (List.mem_cons_of_mem t hs)) _)

theorem adequate (h : Begins least first second) (ht : Adequate bound first t) :
    Adequate bound second t :=
  ⟨ht.1, ht.2.imp_left (h.1 t.offset)⟩

end Begins

/-- What an iteration leads to has bounds enough: it is further on in the text, or stands where the iteration has
begun. -/
theorem adequate_begin {scope : Scope} (turning : Turning) (hu : Leads scope 0 t u)
    (hbound : t.rest.length + 1 ≤ bound) : Adequate bound (turning.begin t) u := by
  obtain ⟨s, hs, -⟩ := hu
  refine ⟨by omega, ?_⟩
  cases s with
  | nil => exact Or.inl ((contains_begin turning t _).mpr (Or.inl hs.offset))
  | cons c s =>
    refine Or.inr ?_
    have hlength : t.rest.length = s.length + 1 + u.rest.length := by
      rw [hs.rest, List.length_append, List.length_cons]
    omega

end Turning

/-- What a repetition under way gains from a thread lies behind it. -/
structure Turning.Grows (t : Thread) (before after : Turning) : Prop where
  adds : before.Adds (Leads .all 0) t after
  begins : before.Begins t.offset after

section Begun

variable {scope : Scope} {step : Thread → List Thread} {place first : Place}

theorem begins_turn (hstep : ∀ t, ∀ u ∈ step t, Leads scope 0 t u) (greedy : Bool) (bound : Nat)
    (turning : Turning) (t : Thread) :
    turning.Begins t.offset (turn step greedy place bound turning t) := by
  induction bound generalizing turning t with
  | zero => exact .refl _ turning
  | succ bound ih =>
    rw [turn]
    split
    · exact .refl _ turning
    next s hs =>
    rw [← offset_of_pass hs]
    have hagain : ∀ turning : Turning, turning.Begins s.offset
        (if turning.begun.contains s.offset then turning
          else (step s).foldl (turn step greedy place bound) (turning.begin s)) := by
      intro turning
      split
      · exact .refl _ turning
      · refine (Turning.Begins.begin turning s).trans (.foldl (fun turning u hu ↦ ?_) _)
        exact (ih turning u).weaken (hstep s u hu).offset_le
    cases greedy with
    | true => exact hagain turning
    | false => exact hagain (turning.leave s)

theorem begins_iterate (hstep : ∀ t, ∀ u ∈ step t, Leads scope 0 t u) (greedy : Bool)
    (turning : Turning) (t : Thread) :
    turning.Begins t.offset (iterate step greedy place turning t) := by
  rw [iterate]
  split
  · exact .refl _ turning
  · refine (Turning.Begins.begin turning t).trans (.foldl (fun turning u hu ↦ ?_) _)
    exact (begins_turn hstep greedy _ turning u).weaken (hstep t u hu).offset_le

theorem begins_iterateAny (hstep : ∀ t, ∀ u ∈ step t, Leads scope 0 t u) (greedy : Bool)
    (turning : Turning) (t : Thread) :
    turning.Begins t.offset (iterateAny step greedy first place turning t) := by
  rw [iterateAny]
  split
  · exact .refl _ turning
  next s hs =>
  rw [← offset_of_pass hs]
  cases greedy with
  | true => exact begins_iterate hstep true turning s
  | false => exact begins_iterate hstep false (turning.leave s) s

theorem grows_turn (hstep : ∀ t, ∀ u ∈ step t, Leads .all 0 t u) (greedy : Bool) (bound : Nat)
    (turning : Turning) (t : Thread) : turning.Grows t (turn step greedy place bound turning t) :=
  ⟨adds_turn hstep (fun _ _ ↦ trivial) greedy bound turning t,
    begins_turn hstep greedy bound turning t⟩

theorem grows_iterate (hstep : ∀ t, ∀ u ∈ step t, Leads .all 0 t u) (greedy : Bool)
    (turning : Turning) (t : Thread) : turning.Grows t (iterate step greedy place turning t) :=
  ⟨adds_iterate hstep (fun _ _ ↦ trivial) greedy turning t, begins_iterate hstep greedy turning t⟩

theorem grows_iterateAny (hstep : ∀ t, ∀ u ∈ step t, Leads .all 0 t u) (greedy : Bool)
    (turning : Turning) (t : Thread) :
    turning.Grows t (iterateAny step greedy first place turning t) :=
  ⟨adds_iterateAny hstep (fun _ _ ↦ trivial) (fun _ _ ↦ trivial) greedy turning t,
    begins_iterateAny hstep greedy turning t⟩

end Begun

namespace Frame

/-- States of a repetition that agree on the stretch. -/
structure AlikeTurning (F : Frame) (n : Nat) (a b : Turning) : Prop where
  begun : ∀ o, o ≤ F.last → (a.begun.contains o = true ↔ b.begun.contains (o + F.shift) = true)
  front : F.Aligned n a.front.threads b.front.threads

namespace AlikeTurning

variable {F : Frame} {n : Nat} {a b c : Turning} {t t' : Thread}

theorem start (F : Frame) (n : Nat) : F.AlikeTurning n .start .start :=
  ⟨fun _ _ ↦ by simp [Turning.start], .nil⟩

theorem leave (h : F.AlikeTurning n a b) (ht : F.Alike n t t') :
    F.AlikeTurning n (a.leave t) (b.leave t') :=
  ⟨h.begun, aligned_add h.front ht⟩

theorem begin (h : F.AlikeTurning n a b) (ht : F.Alike n t t') :
    F.AlikeTurning n (a.begin t) (b.begin t') where
  begun o ho := by
    rw [Turning.contains_begin, Turning.contains_begin, h.begun o ho, ht.offset,
      Nat.add_right_cancel_iff]
  front := h.front

/-- What is gained beyond the stretch does not count. -/
theorem beyond (h : F.AlikeTurning n a b) (ht : F.last < t.offset) (hgrows : a.Grows t c) :
    F.AlikeTurning n c b where
  begun o ho := by
    refine Iff.trans ⟨fun hc ↦ ?_, hgrows.begins.1 o⟩ (h.begun o ho)
    exact (hgrows.begins.2 o hc).resolve_right (by omega)
  front := by
    obtain ⟨⟨added, hadded, hlead⟩, -⟩ := hgrows.adds
    rw [hadded]
    have happend := h.front.append (.of_beyond added fun u hu ↦
      Nat.lt_of_lt_of_le ht (hlead u hu).offset_le)
    rwa [List.append_nil] at happend

theorem beyond' (h : F.AlikeTurning n a b) (ht : F.last + F.shift < t'.offset)
    (hgrows : b.Grows t' c) : F.AlikeTurning n a c where
  begun o ho := by
    refine (h.begun o ho).trans ⟨hgrows.begins.1 _, fun hc ↦ ?_⟩
    exact (hgrows.begins.2 _ hc).resolve_right (by omega)
  front := by
    obtain ⟨⟨added, hadded, hlead⟩, -⟩ := hgrows.adds
    rw [hadded]
    have happend := h.front.append (.of_beyond' added fun u hu ↦
      Nat.lt_of_lt_of_le ht (hlead u hu).offset_le)
    rwa [List.append_nil] at happend

/-- Aligned threads are taken one after the other, each under a condition that lasts. -/
theorem foldl {take take' : Turning → Thread → Turning} (good good' : Turning → Thread → Prop)
    (hgrows : ∀ (a : Turning) (t : Thread), a.Grows t (take a t))
    (hgrows' : ∀ (a : Turning) (t : Thread), a.Grows t (take' a t))
    (hgood : ∀ a t u, good a u → good (take a t) u)
    (hgood' : ∀ a t u, good' a u → good' (take' a t) u)
    (htake : ∀ a b t t', F.Alike n t t' → good a t → good' b t' → F.AlikeTurning n a b →
      F.AlikeTurning n (take a t) (take' b t'))
    {ts ts' : List Thread} (h : F.Aligned n ts ts') (hab : F.AlikeTurning n a b)
    (hts : ∀ t ∈ ts, good a t) (hts' : ∀ t ∈ ts', good' b t) :
    F.AlikeTurning n (ts.foldl take a) (ts'.foldl take' b) := by
  induction h generalizing a b with
  | nil => exact hab
  | @beyond t ts ts' head _ ih =>
    exact ih (hab.beyond head (hgrows a t))
      (fun u hu ↦ hgood a t u (hts u (List.mem_cons_of_mem t hu))) hts'
  | @beyond' t' ts ts' head _ ih =>
    exact ih (hab.beyond' head (hgrows' b t')) hts
      (fun u hu ↦ hgood' b t' u (hts' u (List.mem_cons_of_mem t' hu)))
  | @cons t t' ts ts' head _ ih =>
    exact ih (htake a b t t' head (hts t List.mem_cons_self) (hts' t' List.mem_cons_self) hab)
      (fun u hu ↦ hgood a t u (hts u (List.mem_cons_of_mem t hu)))
      (fun u hu ↦ hgood' b t' u (hts' u (List.mem_cons_of_mem t' hu)))

end AlikeTurning

section Repetition

variable {F : Frame} {n : Nat} {step : Thread → List Thread} {place first : Place}

/-- An iteration that begins alike on both sides, and all that comes behind it. -/
theorem alike_again (hlead : ∀ t, ∀ u ∈ step t, Leads .all 0 t u)
    (hstep : ∀ t t', F.Alike n t t' → F.Aligned n (step t) (step t')) (greedy : Bool)
    {bound bound' : Nat}
    (hturn : ∀ {a b : Turning} {t t' : Thread}, F.Alike n t t' → a.Adequate bound t →
      b.Adequate bound' t' → F.AlikeTurning n a b → F.AlikeTurning n
        (turn step greedy place bound a t) (turn step greedy place bound' b t'))
    {a b : Turning} {t t' : Thread} (ht : F.Alike n t t')
    (hbound : a.begun.contains t.offset = true ∨ t.rest.length + 1 ≤ bound)
    (hbound' : b.begun.contains t'.offset = true ∨ t'.rest.length + 1 ≤ bound')
    (h : F.AlikeTurning n a b) : F.AlikeTurning n
      (if a.begun.contains t.offset then a
        else (step t).foldl (turn step greedy place bound) (a.begin t))
      (if b.begun.contains t'.offset then b
        else (step t').foldl (turn step greedy place bound') (b.begin t')) := by
  have hbegun := h.begun t.offset ht.offset_le
  rw [← ht.offset] at hbegun
  by_cases hin : a.begun.contains t.offset = true
  · rwa [if_pos hin, if_pos (hbegun.mp hin)]
  · rw [if_neg hin, if_neg (mt hbegun.mpr hin)]
    have hfuel := hbound.resolve_left hin
    have hfuel' := hbound'.resolve_left (mt hbegun.mpr hin)
    exact AlikeTurning.foldl (fun a t ↦ a.Adequate bound t) (fun b t ↦ b.Adequate bound' t)
      (grows_turn hlead greedy bound) (grows_turn hlead greedy bound')
      (fun a t _ hu ↦ (begins_turn hlead greedy bound a t).adequate hu)
      (fun b t _ hu ↦ (begins_turn hlead greedy bound' b t).adequate hu)
      (fun _ _ _ _ hu hgood hgood' hab ↦ hturn hu hgood hgood' hab) (hstep t t' ht) (h.begin ht)
      (fun u hu ↦ a.adequate_begin (hlead t u hu) hfuel)
      (fun u hu ↦ b.adequate_begin (hlead t' u hu) hfuel')

theorem alike_turn (hlead : ∀ t, ∀ u ∈ step t, Leads .all 0 t u)
    (hstep : ∀ t t', F.Alike n t t' → F.Aligned n (step t) (step t'))
    (hplaces : ∀ path, place = some path → F.places path) (greedy : Bool) {bound bound' : Nat}
    {a b : Turning} {t t' : Thread} (ht : F.Alike n t t') (hbound : a.Adequate bound t)
    (hbound' : b.Adequate bound' t') (h : F.AlikeTurning n a b) :
    F.AlikeTurning n (turn step greedy place bound a t) (turn step greedy place bound' b t') := by
  induction bound generalizing bound' a b t t' with
  | zero => exact absurd rfl hbound.1
  | succ bound ih =>
    obtain ⟨bound', rfl⟩ := Nat.exists_eq_succ_of_ne_zero hbound'.1
    have hpass := ht.pass hplaces
    rw [turn, turn]
    generalize hs : t.pass? place = o at hpass
    generalize hs' : t'.pass? place = o' at hpass
    cases hpass with
    | none => exact h
    | @some s s' hpass =>
      have hagain {a b : Turning} (h : F.AlikeTurning n a b) (ha : a.Adequate (bound + 1) t)
          (hb : b.Adequate (bound' + 1) t') :=
        alike_again hlead hstep greedy ih hpass
          (by rw [offset_of_pass hs, rest_of_pass hs]; exact ha.2.imp_right Nat.le_of_lt_succ)
          (by rw [offset_of_pass hs', rest_of_pass hs']; exact hb.2.imp_right Nat.le_of_lt_succ) h
      cases greedy with
      | true => exact (hagain h hbound hbound').leave hpass
      | false => exact hagain (h.leave hpass) hbound hbound'

theorem alike_iterate (hlead : ∀ t, ∀ u ∈ step t, Leads .all 0 t u)
    (hstep : ∀ t t', F.Alike n t t' → F.Aligned n (step t) (step t'))
    (hplaces : ∀ path, place = some path → F.places path) (greedy : Bool) {a b : Turning}
    {t t' : Thread} (ht : F.Alike n t t') (h : F.AlikeTurning n a b) :
    F.AlikeTurning n (iterate step greedy place a t) (iterate step greedy place b t') :=
  alike_again hlead hstep greedy
    (fun hu hgood hgood' hab ↦ alike_turn hlead hstep hplaces greedy hu hgood hgood' hab) ht
    (Or.inr (Nat.le_refl _)) (Or.inr (Nat.le_refl _)) h

theorem alike_iterateAny (hlead : ∀ t, ∀ u ∈ step t, Leads .all 0 t u)
    (hstep : ∀ t t', F.Alike n t t' → F.Aligned n (step t) (step t'))
    (hfirst : ∀ path, first = some path → F.places path)
    (hplaces : ∀ path, place = some path → F.places path) (greedy : Bool) {a b : Turning}
    {t t' : Thread} (ht : F.Alike n t t') (h : F.AlikeTurning n a b) :
    F.AlikeTurning n (iterateAny step greedy first place a t)
      (iterateAny step greedy first place b t') := by
  have hpass := ht.pass hfirst
  rw [iterateAny, iterateAny]
  generalize t.pass? first = o at hpass
  generalize t'.pass? first = o' at hpass
  cases hpass with
  | none => exact h
  | @some s s' hpass =>
    have hiterate {a b : Turning} (h : F.AlikeTurning n a b) :=
      alike_iterate hlead hstep hplaces greedy hpass h
    cases greedy with
    | true => exact (hiterate h).leave hpass
    | false => exact hiterate (h.leave hpass)

theorem respects_behind {take : Turning → Thread → Turning}
    (hgrows : ∀ (turning : Turning) (t : Thread), turning.Grows t (take turning t))
    (htake : ∀ {n : Nat} {a b : Turning} {t t' : Thread}, F.Alike n t t' → F.AlikeTurning n a b →
      F.AlikeTurning n (take a t) (take b t')) : F.Respects (behind place take) where
  forward := forward_behind fun turning t ↦ (hgrows turning t).adds
  aligned {n ts ts'} _ _ h := by
    cases place with
    | none =>
      exact (AlikeTurning.foldl (fun _ _ ↦ True) (fun _ _ ↦ True) hgrows hgrows
        (fun _ _ _ h ↦ h) (fun _ _ _ h ↦ h) (fun _ _ _ _ ht _ _ hab ↦ htake ht hab) h
        (.start F n) (fun _ _ ↦ trivial) fun _ _ ↦ trivial).front
    | some path =>
      have hbeyond (t u : Thread) (hu : u ∈ (take .start t).front.threads) :
          t.offset ≤ u.offset := by
        obtain ⟨⟨added, hadded, hlead⟩, -⟩ := (hgrows .start t).adds
        exact (hlead u (by rw [hadded] at hu; exact hu)).offset_le
      exact (h.flatMap (fun _ _ _ _ ht ↦ (htake ht (.start F n)).front)
        (fun t _ ↦ hbeyond t) fun t _ ↦ hbeyond t).distinct

end Repetition

/-! ### Every expression -/

/-- A frame that a run at a place respects: the places of the run count, and so does each place where they have no
names yet. -/
def Covers (F : Frame) (place : Place) : Prop :=
  ∀ p, (∀ path, place = some path → path <:+ p) → F.places p

section Run

variable {F : Frame} {place : Place}

theorem Covers.part (h : F.Covers place) (kind number : Nat) : F.Covers (place.part kind number) := by
  refine fun p hp ↦ h p fun path hpath ↦ ?_
  exact List.IsSuffix.trans ⟨[number, kind], rfl⟩ (hp (number :: kind :: path) (by rw [hpath]; rfl))

theorem Covers.here (h : F.Covers place) (path : List Nat) (hpath : place = some path) :
    F.places path :=
  h path fun path' hpath' ↦ by
    cases hpath.symm.trans hpath'
    exact List.suffix_rfl

theorem respects_repeat {body : Regex} {within : Place}
    (ih : ∀ kind number, F.Respects (run (within.part kind number) body))
    {first next : Place} (hfirst : ∀ path, first = some path → F.places path)
    (hnext : ∀ path, next = some path → F.places path) (min : Nat) (greedy : Bool) :
    let required := (List.range (min - 1)).map fun i ↦ run (within.part 0 i) body
    let step (t : Thread) : List Thread := run (within.part 1 0) body [t]
    let take := if min = 0 then iterateAny step greedy first next else iterate step greedy next
    F.Respects fun ts ↦ behind within take (inTurn required ts) := by
  intro required step take
  have hlead (t : Thread) : ∀ u ∈ step t, Leads .all 0 t u := fun u hu ↦ (ih 1 0).forward.lead hu
  have hstep {n : Nat} (t t' : Thread) (ht : F.Alike n t t') : F.Aligned n (step t) (step t') :=
    (ih 1 0).single ht
  have hrequired : F.Respects (inTurn required) := respects_inTurn fun f hf ↦ by
    obtain ⟨i, -, rfl⟩ := List.mem_map.mp hf
    exact ih 0 i
  refine hrequired.comp ?_
  by_cases hmin : min = 0
  · have htake : take = iterateAny step greedy first next := if_pos hmin
    rw [htake]
    exact respects_behind (grows_iterateAny hlead greedy) fun ht hab ↦
      alike_iterateAny hlead hstep hfirst hnext greedy ht hab
  · have htake : take = iterate step greedy next := if_neg hmin
    rw [htake]
    exact respects_behind (grows_iterate hlead greedy) fun ht hab ↦
      alike_iterate hlead hstep hnext greedy ht hab

/-- Assumes: the frame counts the places of the run, and conditions on positions hold alike if there are any. Aligned
lists lead to aligned lists. -/
theorem respects_run (r : Regex) (h : F.Covers place) (hlooks : F.looks ∨ r.lookFree = true) :
    F.Respects (run place r) := by
  induction r generalizing place with
  | empty => exact .id F
  | set chars => exact respects_advance F chars
  | look condition => exact respects_filter (hlooks.resolve_right Bool.false_ne_true) condition
  | seq a b iha ihb =>
    simp only [lookFree, Bool.and_eq_true] at hlooks
    exact (iha (h.part 0 0) (hlooks.imp_right And.left)).comp
      (ihb (h.part 0 1) (hlooks.imp_right And.right))
  | alt a b iha ihb =>
    simp only [lookFree, Bool.and_eq_true] at hlooks
    exact (respects_pass h.here).comp (respects_prefer
      (iha (h.part 0 0) (hlooks.imp_right And.left)) (ihb (h.part 0 1) (hlooks.imp_right And.right)))
  | «repeat» min max greedy body ih =>
    cases max with
    | some max =>
      have hrequired : F.Respects (inTurn ((List.range min).map fun i ↦ run (place.part 0 i) body)) :=
        respects_inTurn fun f hf ↦ by
          obtain ⟨i, -, rfl⟩ := List.mem_map.mp hf
          exact ih (h.part 0 i) hlooks
      exact hrequired.comp (respects_upTo (fun i ↦ ih (h.part 1 i) hlooks)
        (fun i ↦ (h.part 2 i).here) greedy (max - min))
    | none =>
      generalize hwithin : (if place.isNone ∧ body.leastLength = 0 then some [] else place : Place)
        = within
      have hcovers : F.Covers within := by
        cases place with
        | none => exact fun p _ ↦ h p nofun
        | some path =>
          rw [if_neg (by simp)] at hwithin
          exact hwithin ▸ h
      have hfirst : ∀ path, (if body.leastLength = 0 then within.part 2 1 else within.part 2 0) =
          some path → F.places path := by
        split
        · exact (hcovers.part 2 1).here
        · exact (hcovers.part 2 0).here
      have hloop := respects_repeat (fun kind number ↦ ih (hcovers.part kind number) hlooks) hfirst
        (hcovers.part 2 0).here min greedy
      have hrun : run place (.repeat min none greedy body) = fun ts ↦ (behind within
          (if min = 0 then iterateAny (fun t ↦ run (within.part 1 0) body [t]) greedy
            (if body.leastLength = 0 then within.part 2 1 else within.part 2 0) (within.part 2 0)
          else iterate (fun t ↦ run (within.part 1 0) body [t]) greedy (within.part 2 0))
          (inTurn ((List.range (min - 1)).map fun i ↦ run (within.part 0 i) body) ts)).map
            (Thread.forgetIn place) := by
        funext ts
        rw [run, ← hwithin]
      refine ⟨forward_run place _, fun hts hts' hab ↦ ?_⟩
      have hoffset (t : Thread) : (t.forgetIn place).offset = t.offset := by
        cases place <;> rfl
      rw [hrun]
      exact (hloop.aligned hts hts' hab).map (fun _ _ ht ↦ ht.forgetIn place) hoffset hoffset
  | group name body ih =>
    cases name with
    | none => exact ih h hlooks
    | some name => exact respects_group name (ih h hlooks)

end Run

end Frame

end PathBinding.Regex
