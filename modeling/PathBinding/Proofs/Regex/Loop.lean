import Mathlib.Logic.Relation
import PathBinding.Proofs.Regex.Coupling

/-!
A repetition without an end whose iterations all consume text is a search in depth for the offsets that can be reached:
an iteration begins at most once at each offset, and what has been found is not looked for again. `mem_behind_iterate` and
`mem_behind_iterateAny` say that nothing is missed, in whatever order the threads in front of it come.

The search leads forwards only, so an offset where an iteration has begun is done with once the search is back at it or
before it (`Turning.Closed`).
-/

set_option autoImplicit false
set_option relaxedAutoImplicit false

namespace PathBinding.Regex

open Relation

variable {E : Nat → Nat → Prop}

/-- At each offset from `least` on where an iteration has begun, all that it leads to has been found. -/
def Turning.Closed (E : Nat → Nat → Prop) (least : Nat) (turning : Turning) : Prop :=
  ∀ o, least ≤ o → turning.begun.contains o = true →
    ∀ o', TransGen E o o' → o' ∈ offsetsOf turning.front.threads

/-- What is found from one state of a repetition to the next are the offsets in a relation to an offset. -/
def Turning.Finds (R : Nat → Prop) (before after : Turning) : Prop :=
  ∀ o, o ∈ offsetsOf after.front.threads ↔ o ∈ offsetsOf before.front.threads ∨ R o

namespace Turning

variable {least : Nat} {R S : Nat → Prop} {first second third : Turning} {t : Thread}

theorem Finds.trans (h : Finds R first second) (h' : Finds S second third) :
    Finds (fun o ↦ R o ∨ S o) first third := by
  intro o
  rw [h' o, h o, or_assoc]

theorem Finds.congr (h : Finds R first second) (hRS : ∀ o, R o ↔ S o) : Finds S first second := by
  intro o
  rw [h o, hRS o]

theorem finds_leave (turning : Turning) (t : Thread) :
    Finds (fun o ↦ t.offset = o) turning (turning.leave t) := by
  intro o
  rw [leave, Front.mem_offsetsOf_add, eq_comm]

theorem Closed.leave {turning : Turning} (h : turning.Closed E least) (t : Thread) :
    (turning.leave t).Closed E least := by
  intro o ho hbegun o' hreach
  exact (finds_leave turning t o').mpr (Or.inl (h o ho hbegun o' hreach))

/-- Where an iteration has begun before, all was found already. -/
theorem Closed.widen (h : first.Closed E least) (h' : second.Closed E t.offset)
    (hbegins : first.Begins t.offset second) (hfinds : Finds R first second) :
    second.Closed E least := by
  intro o ho hbegun o' hreach
  rcases hbegins.2 o hbegun with hold | hle
  · exact (hfinds o').mpr (Or.inl (h o ho hold o' hreach))
  · exact h' o hle hbegun o' hreach

theorem Closed.start (E : Nat → Nat → Prop) : Turning.start.Closed E 0 := by
  intro o _ hbegun
  simp [Turning.start] at hbegun

end Turning

section Search

variable {step : Thread → List Thread} {good : Thread → Prop}

/-- Iterations from good threads lead forwards, to good threads at the offsets in a relation. -/
structure Consuming (E : Nat → Nat → Prop) (good : Thread → Prop) (step : Thread → List Thread) :
    Prop where
  lead : ∀ t, ∀ u ∈ step t, Leads .all 1 t u
  stays : ∀ t, good t → ∀ u ∈ step t, good u
  mem : ∀ t, good t → ∀ o, o ∈ offsetsOf (step t) ↔ E t.offset o

namespace Consuming

theorem weak (h : Consuming E good step) (t u : Thread) (hu : u ∈ step t) : Leads .all 0 t u :=
  (h.lead t u hu).weaken (Nat.zero_le 1)

theorem transGen_iff (h : Consuming E good step) {t : Thread} (ht : good t) (o : Nat) :
    TransGen E t.offset o ↔ ∃ u ∈ step t, ReflTransGen E u.offset o := by
  rw [TransGen.head'_iff]
  constructor
  · rintro ⟨o', hstep, hreach⟩
    obtain ⟨u, hu, rfl⟩ := mem_offsetsOf.mp ((h.mem t ht o').mpr hstep)
    exact ⟨u, hu, hreach⟩
  · rintro ⟨u, hu, hreach⟩
    exact ⟨u.offset, (h.mem t ht u.offset).mp (mem_offsetsOf_of_mem hu), hreach⟩

end Consuming

variable (h : Consuming E good step) (greedy : Bool) {bound : Nat}
include h

/-- The iterations that go on from several threads behind an offset. -/
theorem finds_foldl
    (hturn : ∀ (turning : Turning) (u : Thread), good u → turning.Adequate bound u →
      turning.Closed E u.offset →
      let next := turn step greedy none bound turning u
      next.Closed E u.offset ∧ turning.Finds (ReflTransGen E u.offset) next)
    {least : Nat} {us : List Thread} {turning : Turning} (hclosed : turning.Closed E least)
    (hus : ∀ u ∈ us, good u ∧ least ≤ u.offset ∧ turning.Adequate bound u) :
    let next := us.foldl (turn step greedy none bound) turning
    next.Closed E least ∧ turning.Finds (fun o ↦ ∃ u ∈ us, ReflTransGen E u.offset o) next := by
  induction us generalizing turning with
  | nil => exact ⟨hclosed, fun o ↦ by simp⟩
  | cons u us ih =>
    obtain ⟨hgood, hle, hbound⟩ := hus u List.mem_cons_self
    obtain ⟨hclosed', hfinds⟩ := hturn turning u hgood hbound
      fun o ho ↦ hclosed o (Nat.le_trans hle ho)
    have hbegins : turning.Begins u.offset (turn step greedy none bound turning u) :=
      begins_turn h.weak greedy bound turning u
    obtain ⟨hlast, hrest⟩ := ih (hclosed.widen hclosed' hbegins hfinds) fun v hv ↦ by
      obtain ⟨hgood, hle, hbound⟩ := hus v (List.mem_cons_of_mem u hv)
      exact ⟨hgood, hle, hbegins.adequate hbound⟩
    refine ⟨hlast, (hfinds.trans hrest).congr fun o ↦ ?_⟩
    simp

/-- An iteration from a thread with all that comes behind it. -/
theorem finds_again
    (hturn : ∀ (turning : Turning) (u : Thread), good u → turning.Adequate bound u →
      turning.Closed E u.offset →
      let next := turn step greedy none bound turning u
      next.Closed E u.offset ∧ turning.Finds (ReflTransGen E u.offset) next)
    {turning : Turning} {t : Thread} (ht : good t)
    (hbound : turning.begun.contains t.offset = true ∨ t.rest.length + 1 ≤ bound)
    (hclosed : turning.Closed E t.offset) :
    let next := if turning.begun.contains t.offset then turning
      else (step t).foldl (turn step greedy none bound) (turning.begin t)
    next.Closed E t.offset ∧ turning.Finds (TransGen E t.offset) next := by
  intro next
  by_cases hin : turning.begun.contains t.offset = true
  · have hnext : next = turning := if_pos hin
    rw [hnext]
    refine ⟨hclosed, fun o ↦ (or_iff_left_of_imp fun hreach ↦ ?_).symm⟩
    exact hclosed t.offset (Nat.le_refl _) hin o hreach
  · have hnext : next = (step t).foldl (turn step greedy none bound) (turning.begin t) :=
      if_neg hin
    rw [hnext]
    have hfuel := hbound.resolve_left hin
    have hbehind : (turning.begin t).Closed E (t.offset + 1) := by
      intro o ho hbegun
      rcases (turning.contains_begin t o).mp hbegun with rfl | hold
      · omega
      · exact hclosed o (by omega) hold
    obtain ⟨hclosed', hfinds⟩ := finds_foldl h greedy hturn hbehind fun u (hu : u ∈ step t) ↦
      ⟨h.stays t ht u hu, (h.lead t u hu).offset_le, turning.adequate_begin (h.weak t u hu) hfuel⟩
    have hfinds : turning.Finds (TransGen E t.offset) _ :=
      Turning.Finds.congr hfinds fun o ↦ (h.transGen_iff ht o).symm
    refine ⟨fun o ho hbegun o' hreach ↦ ?_, hfinds⟩
    rcases Nat.eq_or_lt_of_le ho with rfl | hlt
    · exact (hfinds o').mpr (Or.inr hreach)
    · exact hclosed' o hlt hbegun o' hreach

omit h in
/-- An iteration and the way on, in one of the two orders. -/
theorem finds_leave_again {t : Thread} (again : Turning → Turning) {turning : Turning}
    (hagain : ∀ before : Turning, before.begun = turning.begun → before.Closed E t.offset →
      (again before).Closed E t.offset ∧ before.Finds (TransGen E t.offset) (again before))
    (hclosed : turning.Closed E t.offset) :
    let next := if greedy then (again turning).leave t else again (turning.leave t)
    next.Closed E t.offset ∧ turning.Finds (ReflTransGen E t.offset) next := by
  intro next
  have hor (o : Nat) : t.offset = o ∨ TransGen E t.offset o ↔ ReflTransGen E t.offset o := by
    rw [reflTransGen_iff_eq_or_transGen, eq_comm]
  cases greedy with
  | true =>
    obtain ⟨hclosed', hfinds⟩ := hagain turning rfl hclosed
    exact ⟨hclosed'.leave t, (hfinds.trans (Turning.finds_leave _ t)).congr fun o ↦
      or_comm.trans (hor o)⟩
  | false =>
    obtain ⟨hclosed', hfinds⟩ := hagain (turning.leave t) rfl (hclosed.leave t)
    exact ⟨hclosed', ((turning.finds_leave t).trans hfinds).congr hor⟩

theorem finds_turn (bound : Nat) (turning : Turning) (t : Thread) (ht : good t)
    (hbound : turning.Adequate bound t) (hclosed : turning.Closed E t.offset) :
    let next := turn step greedy none bound turning t
    next.Closed E t.offset ∧ turning.Finds (ReflTransGen E t.offset) next := by
  induction bound generalizing turning t with
  | zero => exact absurd rfl hbound.1
  | succ bound ih =>
    refine finds_leave_again greedy (fun turning ↦ if turning.begun.contains t.offset then turning
      else (step t).foldl (turn step greedy none bound) (turning.begin t))
      (fun before hbegun hbefore ↦ ?_) hclosed
    refine finds_again h greedy ih ht ?_ hbefore
    rw [hbegun]
    exact hbound.2.imp_right Nat.le_of_lt_succ

theorem finds_iterate (turning : Turning) (t : Thread) (ht : good t)
    (hclosed : turning.Closed E t.offset) :
    let next := iterate step greedy none turning t
    next.Closed E t.offset ∧ turning.Finds (TransGen E t.offset) next :=
  finds_again h greedy (finds_turn h greedy _) ht (Or.inr (Nat.le_refl _)) hclosed

theorem finds_iterateAny (turning : Turning) (t : Thread) (ht : good t)
    (hclosed : turning.Closed E t.offset) :
    let next := iterateAny step greedy none none turning t
    next.Closed E t.offset ∧ turning.Finds (ReflTransGen E t.offset) next :=
  finds_leave_again greedy (iterate step greedy none · t)
    (fun before _ hbefore ↦ finds_iterate h greedy before t ht hbefore) hclosed

omit h in
theorem mem_behind {R : Nat → Nat → Prop} {take : Turning → Thread → Turning}
    (hbegins : ∀ (turning : Turning) (t : Thread), turning.Begins t.offset (take turning t))
    (htake : ∀ (turning : Turning) (t : Thread), good t → turning.Closed E t.offset →
      (take turning t).Closed E t.offset ∧ turning.Finds (R t.offset) (take turning t))
    {ts : List Thread} (hts : ∀ t ∈ ts, good t) (o : Nat) :
    o ∈ offsetsOf (behind none take ts) ↔ ∃ t ∈ ts, R t.offset o := by
  have hfoldl (turning : Turning) (hclosed : turning.Closed E 0) :
      turning.Finds (fun o ↦ ∃ t ∈ ts, R t.offset o) (ts.foldl take turning) := by
    induction ts generalizing turning with
    | nil => intro o; simp
    | cons t ts ih =>
      obtain ⟨hclosed', hfinds⟩ := htake turning t (hts t List.mem_cons_self)
        fun o _ ↦ hclosed o (Nat.zero_le o)
      have hrest := ih (fun u hu ↦ hts u (List.mem_cons_of_mem t hu)) (take turning t)
        (hclosed.widen hclosed' (hbegins turning t) hfinds)
      exact (hfinds.trans hrest).congr fun o ↦ by simp
  rw [behind, hfoldl .start (.start E) o]
  simp [Turning.start]

/-- Behind at least one iteration from each thread. -/
theorem mem_behind_iterate {ts : List Thread} (hts : ∀ t ∈ ts, good t) (o : Nat) :
    o ∈ offsetsOf (behind none (iterate step greedy none) ts) ↔
      ∃ t ∈ ts, TransGen E t.offset o :=
  mem_behind (begins_iterate h.weak greedy) (finds_iterate h greedy) hts o

/-- Behind any number of iterations from each thread. -/
theorem mem_behind_iterateAny {ts : List Thread} (hts : ∀ t ∈ ts, good t) (o : Nat) :
    o ∈ offsetsOf (behind none (iterateAny step greedy none none) ts) ↔
      ∃ t ∈ ts, ReflTransGen E t.offset o :=
  mem_behind (begins_iterateAny h.weak greedy) (finds_iterateAny h greedy) hts o

end Search

end PathBinding.Regex
