import Mathlib.Data.List.Induction
import PathBinding.Proofs.Regex.Language

/-!
Which thread a result comes from. What an expression reaches from more threads begins with what it reaches from the first
of them (`appends_run`): a thread is tried only where those before it have not been. So each result comes from a thread
that reaches its offset alone (`exists_source`).
-/

set_option autoImplicit false
set_option relaxedAutoImplicit false

namespace PathBinding.Regex

variable {scope : Scope}

/-! ### Steps that append -/

/-- A step to whose results further threads only append results of their own. -/
def Appends (scope : Scope) (f : List Thread → List Thread) : Prop :=
  ∀ ts us, (offsetsOf (ts ++ us)).Nodup → ∃ more, f (ts ++ us) = f ts ++ more ∧ Follows (Leads scope 0) us more

theorem appends_id (scope : Scope) : Appends scope id :=
  fun _ us _ ↦ ⟨us, rfl, .refl (Leads.refl scope) us⟩

theorem Appends.comp {f g : List Thread → List Thread} (hf : Appends scope f) (hforward : Forward scope 0 f)
    (hg : Appends scope g) : Appends scope fun ts ↦ g (f ts) := by
  intro ts us hnodup
  obtain ⟨more, hmore, hfollows⟩ := hf ts us hnodup
  have hnodup' := hforward.nodup _ hnodup
  rw [hmore] at hnodup'
  obtain ⟨last, hlast, hfollows'⟩ := hg (f ts) more hnodup'
  refine ⟨last, ?_, hfollows.trans (fun _ _ _ hfirst hsecond ↦ hfirst.trans hsecond) hfollows'⟩
  dsimp only
  rw [hmore, hlast]

theorem appends_filterMap {f : Thread → Option Thread} (hf : ∀ t u, f t = some u → Leads scope 0 t u) :
    Appends scope (List.filterMap f) :=
  fun _ us _ ↦ ⟨us.filterMap f, List.filterMap_append, .filterMap hf us⟩

theorem appends_filter (p : Thread → Bool) : Appends scope (List.filter p) :=
  fun ts us _ ↦ ⟨us.filter p, List.filter_append ts us, (Follows.refl (Leads.refl scope) us).sublist List.filter_sublist⟩

theorem appends_pass {place : Place} (hplaces : ∀ path, place = some path → scope.places path) :
    Appends scope fun ts ↦ ts.filterMap (·.pass? place) :=
  appends_filterMap fun _ _ h ↦ .pass hplaces h

/-- Later threads come behind the first thread for each offset. -/
theorem distinct_append (first second : List Thread) :
    ∃ more, distinct (first ++ second) = distinct first ++ more ∧ more.Sublist second := by
  have hsplit : distinct (first ++ second) = ((Front.empty.addAll first).addAll second).threads := by
    rw [distinct, Front.addAll, List.foldl_append]
    rfl
  rw [hsplit]
  exact Front.threads_addAll _ second

/-- What comes from one of the first threads does not depend on the further ones. -/
theorem filter_isFrom_append {f : List Thread → List Thread} (hf : Appends scope f) {ts us : List Thread}
    (hnodup : (offsetsOf (ts ++ us)).Nodup) {t : Thread} (ht : t ∈ ts) :
    (f ((ts ++ us).map Thread.mark)).filter t.mark.isFrom = (f (ts.map Thread.mark)).filter t.mark.isFrom := by
  have hmarked : (offsetsOf (ts.map Thread.mark ++ us.map Thread.mark)).Nodup := by
    rwa [← List.map_append, offsetsOf_mark]
  obtain ⟨more, hmore, hfollows⟩ := hf _ _ hmarked
  have hnone : more.filter t.mark.isFrom = [] := by
    refine List.filter_eq_nil_iff.mpr fun u hu hfrom ↦ ?_
    obtain ⟨m, hm, hlead⟩ := hfollows.source hu
    obtain ⟨s, hs, rfl⟩ := List.mem_map.mp hm
    have hoffset : s.offset = t.offset := (isFrom_mark hlead).mp hfrom
    rw [offsetsOf_append] at hnodup
    exact (List.nodup_append.mp hnodup).2.2 _ (mem_offsetsOf_of_mem ht) _ (mem_offsetsOf_of_mem hs) hoffset.symm
  rw [List.map_append, hmore, List.filter_append, hnone, List.append_nil]

theorem appends_prefer {first second : List Thread → List Thread} (hfirst : Forward scope 0 first)
    (hsecond : Forward scope 0 second) (happends : Appends scope first) (happends' : Appends scope second) :
    Appends scope fun ts ↦ prefer ts first second := by
  intro ts us hnodup
  have hnodup' : (offsetsOf ts).Nodup := by
    rw [offsetsOf_append] at hnodup
    exact (List.nodup_append.mp hnodup).1
  let from_ (ts : List Thread) (t : Thread) : List Thread :=
    ((first (ts.map Thread.mark)).filter t.mark.isFrom ++ (second (ts.map Thread.mark)).filter t.mark.isFrom).map
      Thread.unmark
  have hsame : ∀ t ∈ ts, from_ (ts ++ us) t = from_ ts t := fun t ht ↦ by
    dsimp only [from_]
    rw [filter_isFrom_append happends hnodup ht, filter_isFrom_append happends' hnodup ht]
  have hleads : ∀ t ∈ us, ∀ u ∈ from_ (ts ++ us) t, Leads scope 0 t u := by
    intro t ht u hu
    obtain ⟨v, hv, rfl⟩ := List.mem_map.mp hu
    have hmem : t ∈ ts ++ us := List.mem_append_right ts ht
    refine Leads.unmark ?_
    exact (List.mem_append.mp hv).elim (hfirst.lead_of_isFrom hnodup hmem) (hsecond.lead_of_isFrom hnodup hmem)
  obtain ⟨more, hmore, hsub⟩ := distinct_append (ts.flatMap (from_ ts)) (us.flatMap (from_ (ts ++ us)))
  refine ⟨more, ?_, (Follows.flatMap hleads).sublist hsub⟩
  dsimp only
  rw [prefer_eq hfirst hsecond hnodup, prefer_eq hfirst hsecond hnodup', List.flatMap_append]
  exact (congrArg (fun first ↦ distinct (first ++ _)) (List.flatMap_congr hsame)).trans hmore

/-! ### Repetitions -/

theorem appends_behind {place : Place} {take : Turning → Thread → Turning}
    (htake : ∀ (turning : Turning) (t : Thread), turning.Adds (Leads scope 0) t (take turning t)) :
    Appends scope (behind place take) := by
  intro ts us _
  cases place with
  | none =>
    obtain ⟨⟨added, hadded, hfollows⟩, -⟩ :=
      Turning.Adds.foldl (fun turning t (_ : t ∈ us) ↦ htake turning t) (ts.foldl take .start)
    refine ⟨added, ?_, hfollows⟩
    rw [behind, behind, List.foldl_append, hadded]
  | some path =>
    obtain ⟨more, hmore, hsub⟩ := distinct_append (ts.flatMap fun t ↦ (take .start t).front.threads)
      (us.flatMap fun t ↦ (take .start t).front.threads)
    refine ⟨more, ?_, (Follows.flatMap fun t _ u hu ↦ ?_).sublist hsub⟩
    · rw [behind, behind, List.flatMap_append, hmore]
    · obtain ⟨⟨added, hadded, hlead⟩, -⟩ := htake .start t
      exact hlead u (by rw [hadded] at hu; exact hu)

theorem appends_inTurn {steps : List (List Thread → List Thread)} (hforward : ∀ f ∈ steps, Forward scope 0 f)
    (happends : ∀ f ∈ steps, Appends scope f) : Appends scope (inTurn steps) := by
  induction steps with
  | nil => exact appends_id scope
  | cons f steps ih =>
    obtain ⟨hf, hrest⟩ := List.forall_mem_cons.mp hforward
    obtain ⟨hf', hrest'⟩ := List.forall_mem_cons.mp happends
    exact hf'.comp hf (ih hrest hrest')

theorem appends_upTo {step : Nat → List Thread → List Thread} (hforward : ∀ i, Forward scope 0 (step i))
    (happends : ∀ i, Appends scope (step i)) {places : Nat → Place}
    (hplaces : ∀ i path, places i = some path → scope.places path) (greedy : Bool) (count : Nat) :
    Appends scope (upTo step greedy places count) := by
  induction count with
  | zero => exact appends_id scope
  | succ count ih =>
    have hpass := forward_pass (hplaces count)
    have hagain : Forward scope 0 fun threads ↦ upTo step greedy places count (step count threads) :=
      (hforward count).comp (forward_upTo hforward hplaces greedy count)
    have hagain' : Appends scope fun threads ↦ upTo step greedy places count (step count threads) :=
      (happends count).comp (hforward count) ih
    have hid : Forward scope 0 id := .id scope
    have hid' := appends_id scope
    have hfunext : upTo step greedy places (count + 1) = fun threads ↦
        if greedy then prefer (threads.filterMap (·.pass? (places count)))
          (fun threads ↦ upTo step greedy places count (step count threads)) id
        else prefer (threads.filterMap (·.pass? (places count))) id
          (fun threads ↦ upTo step greedy places count (step count threads)) :=
      funext fun threads ↦ upTo_succ step greedy places count threads
    rw [hfunext]
    cases greedy with
    | true => exact (appends_pass (hplaces count)).comp hpass (appends_prefer hagain hid hagain' hid')
    | false => exact (appends_pass (hplaces count)).comp hpass (appends_prefer hid hagain hid' hagain')

/-! ### Every expression -/

/-- A repetition without an end, where the names of places are in scope. -/
theorem appends_repeat {body : Regex} (within : Place)
    (hforward : ∀ kind number, Forward scope 0 (run (within.part kind number) body))
    (ih : ∀ kind number, Appends scope (run (within.part kind number) body))
    (hplaces : ∀ number path, within.part 2 number = some path → scope.places path) (min : Nat) (greedy : Bool) :
    Appends scope fun ts ↦ behind within (takeAny body min greedy within)
      (inTurn ((List.range (min - 1)).map fun i ↦ run (within.part 0 i) body) ts) := by
  have hsteps : ∀ f ∈ (List.range (min - 1)).map fun i ↦ run (within.part 0 i) body,
      Forward scope 0 f ∧ Appends scope f := by
    intro f hf
    obtain ⟨i, -, rfl⟩ := List.mem_map.mp hf
    exact ⟨hforward 0 i, ih 0 i⟩
  have hrequired := forward_inTurn fun f hf ↦ (hsteps f hf).1
  have hstep (t : Thread) : ∀ u ∈ run (within.part 1 0) body [t], Leads scope 0 t u :=
    fun u hu ↦ (hforward 1 0).lead hu
  refine (appends_inTurn (fun f hf ↦ (hsteps f hf).1) fun f hf ↦ (hsteps f hf).2).comp
    (hrequired.weaken (Nat.zero_le _)) (appends_behind fun turning t ↦ ?_)
  unfold takeAny
  by_cases hmin : min = 0
  · rw [if_pos hmin]
    refine adds_iterateAny hstep ?_ (hplaces 0) greedy turning t
    split
    · exact hplaces 1
    · exact hplaces 0
  · rw [if_neg hmin]
    exact adds_iterate hstep (hplaces 0) greedy turning t

/-- What an expression reaches from further threads comes behind what it reaches from the first. -/
theorem appends_run (scope : Scope) (r : Regex) (place : Place) (h : scope.Covers place r) :
    Appends scope (run place r) := by
  induction r generalizing place scope with
  | empty => exact appends_id scope
  | set chars =>
    refine appends_filterMap fun t u hu ↦ ?_
    obtain ⟨c, hc⟩ := Thread.From.advance h.chars hu
    exact ⟨[c], hc, Nat.zero_le _⟩
  | look condition => exact appends_filter condition.holds
  | seq a b iha ihb =>
    have ha := (h.part 0 0).sub (a := a) (by simp +contextual [groupNames]) (by simp +contextual [mentions])
    have hb := (h.part 0 1).sub (a := b) (by simp +contextual [groupNames]) (by simp +contextual [mentions])
    exact (iha scope _ ha).comp ((run_forward scope a _ ha).weaken (Nat.zero_le _)) (ihb scope _ hb)
  | alt a b iha ihb =>
    have ha := (h.part 0 0).sub (a := a) (by simp +contextual [groupNames]) (by simp +contextual [mentions])
    have hb := (h.part 0 1).sub (a := b) (by simp +contextual [groupNames]) (by simp +contextual [mentions])
    exact (appends_pass h.here).comp (forward_pass h.here) (appends_prefer
      ((run_forward scope a _ ha).weaken (Nat.zero_le _)) ((run_forward scope b _ hb).weaken (Nat.zero_le _))
      (iha scope _ ha) (ihb scope _ hb))
  | «repeat» min max greedy body ih =>
    have hbody {scope : Scope} (place : Place)
        (hcovers : scope.Covers place (.repeat min max greedy body)) : scope.Covers place body :=
      hcovers.sub (fun _ hn ↦ hn) (fun _ hc ↦ hc)
    have hforward {scope : Scope} {place : Place} (hcovers : scope.Covers place (.repeat min max greedy body))
        (kind number : Nat) : Forward scope 0 (run (place.part kind number) body) :=
      (run_forward scope body _ (hbody _ (hcovers.part kind number))).weaken (Nat.zero_le _)
    cases max with
    | some max =>
      have hsteps : ∀ f ∈ (List.range min).map fun i ↦ run (place.part 0 i) body,
          Forward scope 0 f ∧ Appends scope f := by
        intro f hf
        obtain ⟨i, -, rfl⟩ := List.mem_map.mp hf
        exact ⟨hforward h 0 i, ih scope _ (hbody _ (h.part 0 i))⟩
      have hrequired := forward_inTurn fun f hf ↦ (hsteps f hf).1
      exact (appends_inTurn (fun f hf ↦ (hsteps f hf).1) fun f hf ↦ (hsteps f hf).2).comp
        (hrequired.weaken (Nat.zero_le _)) (appends_upTo (fun i ↦ hforward h 1 i)
          (fun i ↦ ih scope _ (hbody _ (h.part 1 i))) (fun i ↦ (h.part 2 i).here) greedy (max - min))
    | none =>
      cases place with
      | none =>
        have hanywhere (place : Place) := h.anywhere place
        have happends := appends_repeat (if body.leastLength = 0 then some [] else none)
          (fun kind number ↦ hforward (hanywhere _) kind number)
          (fun kind number ↦ ih scope.anywhere _ (hbody _ (hanywhere _))) (fun _ _ _ ↦ trivial) min greedy
        intro ts us hnodup
        obtain ⟨more, hmore, hfollows⟩ := happends ts us hnodup
        refine ⟨more.map (Thread.forgetIn none), ?_, ?_⟩
        · simp only [run_repeat_none, Option.isNone_none, true_and]
          rw [← List.map_append]
          exact congrArg (List.map _) hmore
        · have hsame : Follows (Leads scope.anywhere 0) (us.map fun t ↦ t) more := by rwa [List.map_id']
          exact hsame.map fun _ _ hlead ↦ hlead.imp fun s hs ↦ ⟨hs.1.forget, hs.2⟩
      | some path =>
        have happends := appends_repeat (some path) (hforward h) (fun kind number ↦ ih scope _ (hbody _ (h.part kind number)))
          (fun number ↦ (h.part 2 number).here) min greedy
        intro ts us hnodup
        simp only [run_repeat_none, Option.isNone_some, Bool.false_eq_true, false_and, if_false, map_forgetIn_some]
        exact happends ts us hnodup
  | group name body ih =>
    cases name with
    | none => exact ih scope place (h.sub (fun _ hn ↦ hn) (fun _ hc ↦ hc))
    | some name =>
      have hbody := ih scope place (h.sub (fun _ hn ↦ List.mem_cons_of_mem _ hn) (fun _ hc ↦ hc))
      intro ts us hnodup
      have hmarked : (offsetsOf (ts.map Thread.mark ++ us.map Thread.mark)).Nodup := by
        rwa [← List.map_append, offsetsOf_mark]
      obtain ⟨more, hmore, hfollows⟩ := hbody _ _ hmarked
      refine ⟨more.map fun t ↦ (t.capture name).unmark, ?_, hfollows.map fun t u hlead ↦ ?_⟩
      · rw [run, List.map_append, hmore, List.map_append, run]
      · exact hlead.imp fun s hs ↦ ⟨hs.1.capture (h.names name List.mem_cons_self), hs.2⟩

/-! ### Sources -/

/-- The names of the groups of an expression, and no places. -/
def Scope.outside (r : Regex) : Scope :=
  ⟨(· ∈ r.groupNames), fun _ ↦ True, fun _ ↦ False⟩

/-- Assumes: threads at offsets of their own on a text, which have passed no places. Each result comes from a thread that
reaches its offset alone. -/
theorem exists_source {text : List Char} (r : Regex) {ts : List Thread} (hnodup : (offsetsOf ts).Nodup)
    (hts : ∀ t ∈ ts, t.On text ∧ t.passed = []) {u : Thread} (hu : u ∈ run none r ts) :
    ∃ t ∈ ts, Leads (.outside r) 0 t u ∧ u.offset ∈ offsetsOf (run none r [t]) := by
  have hcovers : (Scope.outside r).Covers none r := ⟨fun _ hn ↦ hn, fun _ _ ↦ trivial, nofun⟩
  have hapart (ts : List Thread) (hnodup : (offsetsOf ts).Nodup) (hts : ∀ t ∈ ts, t.On text ∧ t.passed = []) :=
    (additive_run text r none).apart ts hnodup fun t ht ↦ ⟨(hts t ht).1, by simp [Thread.Fresh, (hts t ht).2]⟩
  induction ts using List.reverseRecOn with
  | nil =>
    rw [run_nil] at hu
    cases hu
  | append_singleton ts t ih =>
    obtain ⟨more, hmore, hfollows⟩ := appends_run _ r none hcovers ts [t] hnodup
    have hreached := ((run_forward _ r none hcovers).nodup _ hnodup)
    have hnodup' : (offsetsOf ts).Nodup := by
      rw [offsetsOf_append] at hnodup
      exact (List.nodup_append.mp hnodup).1
    have hts' : ∀ s ∈ ts, s.On text ∧ s.passed = [] := fun s hs ↦ hts s (List.mem_append_left _ hs)
    rw [hmore] at hu hreached
    rcases List.mem_append.mp hu with hbefore | hbehind
    · obtain ⟨s, hs, hsource⟩ := ih hnodup' hts' hbefore
      exact ⟨s, List.mem_append_left _ hs, hsource⟩
    · obtain ⟨s, hs, hlead⟩ := hfollows.source hbehind
      obtain rfl := List.mem_singleton.mp hs
      refine ⟨s, List.mem_append_right _ hs, hlead, ?_⟩
      -- The offset is new, so no earlier thread reaches it.
      have hnew : u.offset ∉ offsetsOf (run none r ts) := by
        rw [offsetsOf_append] at hreached
        exact fun hold ↦ (List.nodup_append.mp hreached).2.2 _ hold _ (mem_offsetsOf_of_mem hbehind) rfl
      have hmem : u.offset ∈ offsetsOf (run none r (ts ++ [s])) := by
        rw [hmore]
        exact mem_offsetsOf_of_mem hu
      obtain ⟨v, hv, hv'⟩ := (hapart _ hnodup hts _).mp hmem
      rcases List.mem_append.mp hv with hv | hv
      · exact absurd ((hapart ts hnodup' hts' _).mpr ⟨v, hv, hv'⟩) hnew
      · rwa [List.mem_singleton.mp hv] at hv'

end PathBinding.Regex
