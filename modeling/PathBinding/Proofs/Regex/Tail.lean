import PathBinding.Proofs.Regex.Names
import PathBinding.Proofs.Regex.Pairs

/-!
Paths with a query behind them. Pairs reach the end of each text that ends in an ampersand, so the first way through the
path that stands in front of a question mark is the one that the match takes (`threadAt_sequence_query`). What the pairs
are does not matter to what the path captures, and neither does the text behind the question mark.
-/

set_option autoImplicit false
set_option relaxedAutoImplicit false

namespace PathBinding.Regex

variable {text : List Char} {t u : Thread}

/-! ### Names of groups -/

theorem groupNames_pair (branches : List (List Regex)) :
    (pair branches).groupNames = branches.flatMap (·.flatMap groupNames) := by
  have hlast : unseparated.groupNames = [] := rfl
  have hset : (Regex.set (.single '&')).groupNames = [] := rfl
  rw [pair, groupNames, groupNames_altAll, hset, List.append_nil, List.flatMap_append, List.flatMap_singleton, hlast,
    List.append_nil, List.flatMap_map]
  simp only [groupNames_sequence]

theorem groupNames_characters (text : List Char) : (characters text).flatMap groupNames = [] := by
  rw [characters, List.flatMap_map, List.flatMap_eq_nil_iff]
  exact fun _ _ ↦ rfl

/-- The groups of a path with a query behind it. -/
theorem groupNames_query (fragment : String) (rs : List Regex) (branches : List (List Regex)) :
    (Regex.group (some fragment) (sequence (rs ++ query branches))).groupNames =
      fragment :: (rs.flatMap groupNames ++ (pair branches).groupNames) := by
  have hset : (Regex.set (.single '?')).groupNames = [] := rfl
  have hrepeat (body : Regex) : (Regex.repeat 0 none true body).groupNames = body.groupNames := rfl
  rw [groupNames, groupNames_sequence, List.flatMap_append, query, List.flatMap_cons, List.flatMap_singleton, hset,
    List.nil_append, hrepeat]

/-! ### What a run leaves captured -/

/-- What is captured under other names is kept. -/
theorem captured?_of_lead {scope : Scope} {least : Nat} {name : String} (h : Leads scope least t u) (hname : ¬scope.names name) :
    u.captured? name = t.captured? name := by
  obtain ⟨s, hs, -⟩ := h
  obtain ⟨gained, hgained, hnames⟩ := hs.captures
  have hnone : gained.find? (·.name == name) = none := by
    refine List.find?_eq_none.mpr fun k hk hsame ↦ hname ?_
    rw [← beq_iff_eq.mp hsame]
    exact (hnames k hk).1
  rw [Thread.captured?, hgained, List.find?_append, hnone]
  rfl

/-- What has been captured on a way lies in the text of it. -/
theorem infix_of_captured {scope : Scope} {s : List Char} (h : t.From scope u s) (ht : t.captures = []) {name : String}
    {word : List Char} (hname : u.captured? name = some word) : word <:+: s := by
  obtain ⟨gained, hgained, hin⟩ := h.captures
  rw [ht, List.append_nil] at hgained
  rw [Thread.captured?, hgained] at hname
  obtain ⟨k, hk, rfl⟩ := Option.map_eq_some_iff.mp hname
  exact (hin k (List.mem_of_find?_eq_some hk)).2

/-- The names of the groups of an expression, and anything else. -/
def Scope.ofNames (r : Regex) : Scope :=
  ⟨(· ∈ r.groupNames), fun _ ↦ True, fun _ ↦ True⟩

theorem forward_run_names {r s : Regex} (h : ∀ n ∈ s.groupNames, n ∈ r.groupNames) :
    Forward (.ofNames r) 0 (run none s) := by
  have hcovers : (Scope.ofNames r).Covers none s :=
    ⟨h, fun _ _ ↦ trivial, fun _ _ _ _ ↦ trivial⟩
  exact (run_forward _ s none hcovers).weaken (Nat.zero_le _)

/-! ### The first thread in front of a question mark -/

/-- A repetition without an end finds first what it finds from the first thread. -/
theorem threadAt_repeat_cons {body : Regex} (hleast : body.leastLength ≠ 0) (greedy : Bool) {ts : List Thread} {o : Nat}
    (ho : o ∈ offsetsOf (run none (.repeat 0 none greedy body) [t])) :
    threadAt o (run none (.repeat 0 none greedy body) (t :: ts)) =
      threadAt o (run none (.repeat 0 none greedy body) [t]) := by
  have hstep (t : Thread) : ∀ u ∈ run none body [t], Leads .all 0 t u :=
    fun u hu ↦ (forward_run none body).lead hu
  have hplaces : ∀ path, (none : Place) = some path → Scope.all.places path := nofun
  have hrun (us : List Thread) : run none (.repeat 0 none greedy body) us =
      (behind none (iterateAny (fun t ↦ run none body [t]) greedy none none) us).map (Thread.forgetIn none) := by
    rw [run_repeat_none, if_neg fun h ↦ hleast h.2, takeAny, if_neg hleast]
    rfl
  obtain ⟨⟨added, hadded, -⟩, -⟩ := Turning.Adds.foldl
    (fun turning u (_ : u ∈ ts) ↦ adds_iterateAny hstep hplaces hplaces greedy turning u)
    (iterateAny (fun t ↦ run none body [t]) greedy none none .start t)
  have hcons : run none (.repeat 0 none greedy body) (t :: ts) =
      run none (.repeat 0 none greedy body) [t] ++ added.map (Thread.forgetIn none) := by
    rw [hrun, hrun, ← List.map_append]
    exact congrArg _ hadded
  rw [hcons, threadAt_append, Option.or_of_isSome (threadAt_isSome.mpr ho)]

/-- A position in front of a question mark. -/
def Thread.atMark (t : Thread) : Bool :=
  t.rest.head? == some '?'

theorem advance?_mark (t : Thread) : t.advance? (.single '?') =
    if t.atMark then some { t with offset := t.offset + 1, before := some '?', rest := t.rest.tail, passed := [] }
    else none := by
  unfold Thread.advance? Thread.atMark
  cases t.rest with
  | nil => rfl
  | cons c rest =>
    by_cases hc : c = '?'
    · subst hc
      rfl
    · have hcontains : (CharSet.single '?').contains c ≠ true := mt (single_contains '?' c).mp hc
      simp [hcontains, hc]

/-- A thread behind a query that begins at another thread and ends where the text does. -/
def Thread.Closes (branches : List (List Regex)) (text : List Char) (t u : Thread) : Prop :=
  u ∈ run none (sequence (query branches)) [t] ∧ u.offset = text.length

/-- A query captures under the names of its groups only. -/
theorem Thread.Closes.leads {branches : List (List Regex)} (h : t.Closes branches text u) :
    Leads (.ofNames (pair branches)) 0 t u := by
  have hnames : (sequence (query branches)).groupNames = (pair branches).groupNames := rfl
  exact (forward_run_names fun n hn ↦ hnames ▸ hn).lead h.1

/-- Assumes: the text ends in an ampersand. Of threads on it the first in front of a question mark is the one from which
the query is taken in. -/
theorem threadAt_query (branches : List (List Regex)) {ts : List Thread} (hts : ∀ t ∈ ts, t.On text ∧ t.passed = [])
    (hend : text.getLast? = some '&') :
    Option.Rel (Thread.Closes branches text) (ts.find? Thread.atMark)
      (threadAt text.length (run none (sequence (query branches)) ts)) := by
  rw [run_query]
  have hrun (us : List Thread) : run none (.set (.single '?')) us = us.filterMap (·.advance? (.single '?')) := rfl
  induction ts with
  | nil => exact .none
  | cons t ts ih =>
    rw [hrun, List.filterMap_cons, advance?_mark, List.find?_cons]
    cases hmark : t.atMark with
    | false => exact ih fun u hu ↦ hts u (List.mem_cons_of_mem t hu)
    | true =>
      obtain ⟨ht, hpassed⟩ := hts t List.mem_cons_self
      dsimp only
      rw [if_pos rfl]
      dsimp only
      generalize hu : ({ t with offset := t.offset + 1, before := some '?', rest := t.rest.tail, passed := [] } : Thread) = u
      have honly : run none (.set (.single '?')) [t] = [u] := by
        rw [hrun, List.filterMap_cons, advance?_mark, hmark, ← hu]
        rfl
      have hmem : u ∈ run none (.set (.single '?')) [t] := honly ▸ List.mem_cons_self
      have hreach := end_mem_pairs branches (ht.lead ((forward_run none _).lead hmem)) (passed_run hpassed hmem) hend
      have hleast : (pair branches).leastLength ≠ 0 := Nat.succ_ne_zero _
      rw [threadAt_repeat_cons hleast true hreach]
      obtain ⟨v, hv⟩ := Option.isSome_iff_exists.mp (threadAt_isSome.mpr hreach)
      rw [hv]
      refine .some ⟨?_, offset_of_threadAt hv⟩
      rw [run_query, honly]
      exact mem_of_threadAt hv

/-- A path with a query behind it gets to the end of a text from the first of its threads in front of a question mark. -/
theorem threadAt_sequence_query (rs : List Regex) (branches : List (List Regex)) (ht : t.On text)
    (hpassed : t.passed = []) (hend : text.getLast? = some '&') :
    Option.Rel (Thread.Closes branches text) ((run none (sequence rs) [t]).find? Thread.atMark)
      (threadAt text.length (run none (sequence (rs ++ query branches)) [t])) := by
  rw [run_sequence_append]
  refine threadAt_query branches (fun u hu ↦ ?_) hend
  exact ⟨ht.lead ((forward_run none _).lead hu), passed_run hpassed hu⟩

/-! ### The first question mark -/

section Front

variable {front rest rest' : List Char} {r : Regex}

/-- Nothing behind the first question mark is read as another one in front of the query. -/
def OneMark (r : Regex) (rest : List Char) : Prop :=
  '?' ∉ rest ∨ r.mentions '?' = false

theorem mentions_sequence {c : Char} {rs : List Regex} (h : ∀ r ∈ rs, r.mentions c = false) :
    (sequence rs).mentions c = false :=
  sequence_of_forall (P := fun r ↦ r.mentions c = false) rfl (fun _ _ ha hb ↦ Bool.or_eq_false_iff.mpr ⟨ha, hb⟩) h

/-- Characters that an expression does not mention are not read. -/
theorem mentions_of_read {t u : Thread} (hu : u ∈ run none r [t]) :
    ∃ s, t.rest = s ++ u.rest ∧ u.offset = t.offset + s.length ∧ ∀ c ∈ s, r.mentions c = true := by
  have hcovers : Scope.Covers ⟨fun _ ↦ True, fun c ↦ r.mentions c = true, fun _ ↦ True⟩ none r :=
    ⟨fun _ _ ↦ trivial, fun _ hc ↦ hc, fun _ _ _ _ ↦ trivial⟩
  obtain ⟨s, hs, -⟩ := (run_forward _ r none hcovers).lead hu
  exact ⟨s, hs.rest, hs.offset, hs.chars⟩

theorem notMem_of_accepts {c : Char} {s : List Char} (h : r.mentions c = false) (hs : r.Accepts s) : c ∉ s := by
  obtain ⟨u, hu, hoffset⟩ := mem_offsetsOf.mp hs
  obtain ⟨w, hrest, hread, hmentions⟩ := mentions_of_read hu
  have hlength : s.length = w.length := (hoffset.symm.trans hread).trans (Nat.zero_add _)
  have hall : s = w := (List.append_inj ((List.append_nil s).trans hrest) hlength).1
  intro hin
  rw [hmentions c (hall ▸ hin)] at h
  cases h

/-- The path ends at the first question mark. -/
theorem offset_of_atMark (hfront : '?' ∉ front) (hone : OneMark r rest)
    (ht : t ∈ run none r [(Thread.start 0 none (front ++ '?' :: rest)).mark]) (hmark : t.atMark = true) :
    t.offset = front.length := by
  obtain ⟨s, hsplit, hoffset, hmentioned⟩ := mentions_of_read ht
  obtain ⟨behind, hbehind⟩ : ∃ behind, t.rest = '?' :: behind := by
    unfold Thread.atMark at hmark
    cases hrest : t.rest with
    | nil =>
      rw [hrest] at hmark
      cases hmark
    | cons c behind =>
      rw [hrest] at hmark
      exact ⟨behind, by rw [Option.some_inj.mp (beq_iff_eq.mp hmark)]⟩
  replace hsplit : front ++ '?' :: rest = s ++ '?' :: behind := hbehind ▸ hsplit
  have hsame : front = s := by
    rcases hone with hrest | hmentions
    · exact ((List.append_cons_inj_of_notMem hfront hrest).mp hsplit).1
    · have htake (w : List Char) (hw : '?' ∉ w) (behind : List Char) :
          (w ++ '?' :: behind).takeWhile (· != '?') = w := by
        have hall : ∀ c ∈ w, (c != '?') = true := by
          rintro c hc
          refine bne_iff_ne.mpr ?_
          rintro rfl
          exact hw hc
        rw [List.takeWhile_append_of_pos hall, List.takeWhile_cons]
        simp
      have hs' : '?' ∉ s := by
        intro hin
        have hread := hmentioned '?' hin
        rw [hmentions] at hread
        cases hread
      rw [← htake front hfront rest, hsplit, htake s hs']
  rw [hoffset, hsame]
  exact Nat.zero_add _

theorem rest_of_atMark (hfront : '?' ∉ front) (hone : OneMark r rest)
    (ht : t ∈ run none r [(Thread.start 0 none (front ++ '?' :: rest)).mark]) (hmark : t.atMark = true) :
    t.rest = '?' :: rest := by
  obtain ⟨s, hs, -⟩ := (forward_run none r).lead ht
  have hoffset : 0 + s.length = front.length := hs.offset.symm.trans (offset_of_atMark hfront hone ht hmark)
  have hread : front ++ '?' :: rest = s ++ t.rest := hs.rest
  exact (List.append_inj hread (by omega)).2.symm

/-- The first thread in front of a question mark is the one that has read all before the first question mark. -/
theorem find?_atMark (hfront : '?' ∉ front) (hone : OneMark r rest) :
    (run none r [(Thread.start 0 none (front ++ '?' :: rest)).mark]).find? Thread.atMark =
      threadAt front.length (run none r [(Thread.start 0 none (front ++ '?' :: rest)).mark]) := by
  refine List.find?_congr fun t ht ↦ ?_
  rw [Bool.eq_iff_iff, beq_iff_eq]
  refine ⟨offset_of_atMark hfront hone ht, fun hoffset ↦ ?_⟩
  obtain ⟨s, hs, -⟩ := (forward_run none r).lead ht
  have hlength : front.length = s.length := hoffset.symm.trans (hs.offset.trans (Nat.zero_add s.length))
  have hrest : '?' :: rest = t.rest := (List.append_inj (hs.rest : front ++ '?' :: rest = s ++ t.rest) hlength).2
  rw [Thread.atMark, ← hrest]
  rfl

/-- What has been captured in front of the first question mark does not depend on what stands behind it. -/
theorem captured?_front (r : Regex) (front rest rest' : List Char) :
    (threadAt front.length (run none r [(Thread.start 0 none (front ++ '?' :: rest)).mark])).map Thread.captured? =
      (threadAt front.length (run none r [(Thread.start 0 none (front ++ '?' :: rest')).mark])).map
        Thread.captured? := by
  -- Conditions on positions see the same question mark.
  let F : Frame := ⟨'?' :: rest, '?' :: rest', front.length, 0, True, True, fun _ ↦ True, fun _ ↦ rfl⟩
  have halike : F.Alike 0 (Thread.start 0 none (front ++ '?' :: rest)).mark
      (Thread.start 0 none (front ++ '?' :: rest')).mark :=
    ⟨⟨front, rfl, rfl, Nat.zero_add _, rfl⟩, fun _ ↦ rfl, fun _ ↦ .nil, ⟨[], [], _, _, rfl, rfl, .nil, rfl⟩,
      fun _ _ ↦ Iff.rfl⟩
  have hrun : F.Respects (run none r) := F.respects_run r (fun _ _ ↦ trivial) (Or.inl trivial)
  exact F.captured?_of_rel trivial ((hrun.single halike).threadAt (Nat.le_refl _))

end Front

end PathBinding.Regex
