import Mathlib.Data.List.Find
import PathBinding.Proofs.Regex.Additivity

/-!
The texts that an expression accepts, which are those that it can read from one end to the other. Without conditions on
positions an expression reads in the middle of a text what it accepts alone (`mem_run_append_iff`), and so what a composed
expression accepts follows from what its parts accept: `accepts_seq`, `accepts_alt`, `accepts_optional` and
`accepts_star`. A search with both anchors is a run on the whole text (`search_anchored`).
-/

set_option autoImplicit false
set_option relaxedAutoImplicit false

namespace PathBinding.Regex

open Relation

/-- An expression, run on a text of its own, reaches the end of it. -/
def Accepts (r : Regex) (s : List Char) : Prop :=
  s.length ∈ offsetsOf (run none r [.start 0 none s])

/-! ### Runs inside a text -/

/-- What an expression accepts does not depend on what surrounds it. -/
theorem mem_run_append_iff {r : Regex} (hr : r.lookFree = true) {t : Thread} (hpassed : t.passed = [])
    {s rest : List Char} (hrest : t.rest = s ++ rest) :
    t.offset + s.length ∈ offsetsOf (run none r [t]) ↔ r.Accepts s := by
  let F : Frame := ⟨[], rest, s.length, t.offset, False, False, fun _ ↦ True, False.elim⟩
  have halike : F.Alike 0 (.start 0 none s) t := by
    refine ⟨⟨s, ?_, hrest, Nat.zero_add _, (Nat.zero_add _).symm⟩, False.elim, False.elim,
      ⟨[], [], [], t.begun, rfl, rfl, .nil, rfl⟩, fun p _ ↦ ?_⟩
    · simp [F, Thread.start]
    · simp [Thread.start, hpassed]
  have haligned := (F.respects_run r (fun _ _ ↦ trivial) (Or.inr hr) : F.Respects (run none r)).single
    halike
  rw [Nat.add_comm]
  exact (haligned.mem_offsetsOf_iff (Nat.le_refl _)).symm

theorem run_nil (place : Place) (r : Regex) : run place r [] = [] := by
  have hfollows := (forward_run place r).follows [] List.nodup_nil
  generalize run place r [] = us at hfollows
  cases hfollows
  rfl

/-! ### Composed expressions -/

theorem accepts_empty (s : List Char) : Accepts .empty s ↔ s = [] := by
  simp [Accepts, run, Thread.start]

theorem accepts_set (chars : CharSet) (s : List Char) :
    Accepts (.set chars) s ↔ ∃ c, s = [c] ∧ chars.contains c = true := by
  cases s with
  | nil => simp [Accepts, run, Thread.start, Thread.advance?]
  | cons c s =>
    have hrun : run none (.set chars) [.start 0 none (c :: s)] =
        if chars.contains c then [⟨1, some c, s, [], [], []⟩] else [] := by
      simp only [run, Thread.start, List.filterMap_cons, List.filterMap_nil, Thread.advance?]
      split <;> simp_all
    rw [Accepts, hrun]
    by_cases hc : chars.contains c = true
    · simp only [hc, if_true, offsetsOf_cons, offsetsOf_nil, List.mem_singleton, List.length_cons]
      constructor
      · intro hlength
        exact ⟨c, by rw [List.length_eq_zero_iff.mp (Nat.succ.inj hlength)], hc⟩
      · rintro ⟨d, hd, -⟩
        rw [(List.cons.inj hd).2]
        rfl
    · rw [if_neg hc]
      refine iff_of_false (by simp) ?_
      rintro ⟨d, hd, hcontains⟩
      exact hc ((List.cons.inj hd).1 ▸ hcontains)

/-- One expression behind another. -/
theorem accepts_then {a b c : Regex} (ha : a.lookFree = true) (hb : b.lookFree = true)
    (hrun : ∀ ts, run none c ts = run none b (run none a ts)) (s : List Char) :
    c.Accepts s ↔ ∃ u v, s = u ++ v ∧ a.Accepts u ∧ b.Accepts v := by
  have hstart := Thread.On.start s
  have hmiddle : ∀ t ∈ run none a [.start 0 none s], t.On s ∧ t.passed = [] := fun t ht ↦
    ⟨hstart.lead ((forward_run none a).lead ht), passed_run rfl ht⟩
  have hnodup := (forward_run none a).nodup [.start 0 none s] (List.nodup_singleton _)
  rw [Accepts, hrun, (additive_run s b none).apart _ hnodup fun t ht ↦
    ⟨(hmiddle t ht).1, by simp [Thread.Fresh, (hmiddle t ht).2]⟩]
  constructor
  · rintro ⟨t, ht, hend⟩
    obtain ⟨u, hu, -⟩ := (forward_run none a).lead ht
    have hrest : s = u ++ t.rest := hu.rest
    have hoffset : t.offset = u.length := hu.offset.trans (Nat.zero_add _)
    refine ⟨u, t.rest, hrest, ?_, ?_⟩
    · rw [← mem_run_append_iff ha (t := .start 0 none s) rfl hrest]
      exact mem_offsetsOf.mpr ⟨t, ht, hu.offset⟩
    · rw [← mem_run_append_iff hb (hmiddle t ht).2 (List.append_nil _).symm, (hmiddle t ht).1.offset_add]
      exact hend
  · rintro ⟨u, v, rfl, hu, hv⟩
    have hreach := (mem_run_append_iff ha (t := .start 0 none (u ++ v)) rfl rfl).mpr hu
    obtain ⟨t, ht, hoffset⟩ := mem_offsetsOf.mp hreach
    refine ⟨t, ht, ?_⟩
    obtain ⟨w, hw, -⟩ := (forward_run none a).lead ht
    have hlength : u.length = w.length := by
      have := hw.offset.symm.trans hoffset
      simp only [Thread.start] at this
      omega
    obtain ⟨-, hrest⟩ := List.append_inj (hw.rest : u ++ v = w ++ t.rest) hlength
    have hend := (mem_run_append_iff hb (hmiddle t ht).2 (List.append_nil _).symm).mpr (hrest ▸ hv)
    rwa [(hmiddle t ht).1.offset_add] at hend

theorem accepts_seq {a b : Regex} (ha : a.lookFree = true) (hb : b.lookFree = true)
    (s : List Char) :
    (Regex.seq a b).Accepts s ↔ ∃ u v, s = u ++ v ∧ a.Accepts u ∧ b.Accepts v :=
  accepts_then ha hb (fun _ ↦ rfl) s

theorem accepts_mark {r : Regex} (hr : r.lookFree = true) (s : List Char) :
    s.length ∈ offsetsOf (run none r [(Thread.start 0 none s).mark]) ↔ r.Accepts s := by
  rw [← mem_run_append_iff hr (t := (Thread.start 0 none s).mark) rfl (List.append_nil s).symm]
  exact iff_of_eq (congrArg (· ∈ _) (Nat.zero_add _).symm)

theorem accepts_alt {a b : Regex} (ha : a.lookFree = true) (hb : b.lookFree = true)
    (s : List Char) : (Regex.alt a b).Accepts s ↔ a.Accepts s ∨ b.Accepts s := by
  have hnodup : (offsetsOf [Thread.start 0 none s]).Nodup := List.nodup_singleton _
  have hprefer := mem_offsetsOf_prefer (forward_run none a) (forward_run none b) hnodup s.length
  rw [← accepts_mark ha, ← accepts_mark hb]
  exact hprefer

theorem accepts_group {r : Regex} (hr : r.lookFree = true) (name : Option String) (s : List Char) :
    (Regex.group name r).Accepts s ↔ r.Accepts s := by
  cases name with
  | none => exact Iff.rfl
  | some name =>
    have hoffset (t : Thread) : ((t.capture name).unmark).offset = t.offset := by
      rw [Thread.From.unmark_capture]
      rfl
    rw [← accepts_mark hr, Accepts, run, offsetsOf_map_of_eq hoffset]
    rfl

theorem accepts_optional {r : Regex} (hr : r.lookFree = true) (s : List Char) :
    (Regex.repeat 0 (some 1) true r).Accepts s ↔ r.Accepts s ∨ s = [] := by
  have hid : Forward .all 0 fun ts ↦ ts := .id .all
  have hnodup : (offsetsOf [Thread.start 0 none s]).Nodup := List.nodup_singleton _
  have hprefer := mem_offsetsOf_prefer (forward_run none r) hid hnodup s.length
  refine hprefer.trans (or_congr (accepts_mark hr s) ?_)
  simp [Thread.mark, Thread.start]

/-- A repetition without an end whose body consumes text. -/
theorem accepts_star {r : Regex} (hr : r.lookFree = true) (hleast : r.leastLength ≠ 0)
    (greedy : Bool) (s : List Char) :
    (Regex.repeat 0 none greedy r).Accepts s ↔
      ∃ pieces : List (List Char), s = pieces.flatten ∧ ∀ piece ∈ pieces, r.Accepts piece := by
  have hreach : (Regex.repeat 0 none greedy r).Accepts s ↔
      ReflTransGen (Reaches s r) 0 s.length := by
    have hgood : ∀ t ∈ [Thread.start 0 none s], t.On s ∧ t.passed = [] := fun t ht ↦ by
      rw [List.mem_singleton.mp ht]
      exact ⟨.start s, rfl⟩
    have hbehind := mem_behind_takeAny (additive_run s r none) hleast 0 greedy hgood s.length
    rw [Accepts, run_repeat_none, offsetsOf_map_of_eq (f := Thread.forgetIn none) fun _ ↦ rfl,
      if_neg (fun h ↦ hleast h.2)]
    simpa [inTurn, Thread.start] using hbehind
  rw [hreach]
  constructor
  · intro h
    suffices hall : ∀ o, ReflTransGen (Reaches s r) o s.length → ∀ t : Thread, t.On s →
        t.passed = [] → t.offset = o → ∃ pieces : List (List Char),
          t.rest = pieces.flatten ∧ ∀ piece ∈ pieces, r.Accepts piece from
      hall 0 h (.start 0 none s) (.start s) rfl rfl
    intro o h
    induction h using ReflTransGen.head_induction_on with
    | refl =>
      intro t ht _ hoffset
      refine ⟨[], ?_, by simp⟩
      have := ht.offset_add
      exact List.length_eq_zero_iff.mp (by omega)
    | head hstep _ ih =>
      rintro t ht hpassed rfl
      obtain ⟨u, hu, rfl⟩ := mem_offsetsOf.mp ((reaches_iff (additive_run s r none) ht hpassed _).mp hstep)
      have hlead := (forward_run none r).lead hu
      obtain ⟨piece, hpiece, -⟩ := id hlead
      obtain ⟨pieces, hpieces, haccepts⟩ := ih u (ht.lead hlead) (passed_run hpassed hu) rfl
      refine ⟨piece :: pieces, by rw [hpiece.rest, hpieces]; rfl, ?_⟩
      refine List.forall_mem_cons.mpr ⟨?_, haccepts⟩
      rw [← mem_run_append_iff hr hpassed hpiece.rest, ← hpiece.offset]
      exact mem_offsetsOf_of_mem hu
  · rintro ⟨pieces, hpieces, haccepts⟩
    suffices hall : ∀ pieces : List (List Char), (∀ piece ∈ pieces, r.Accepts piece) →
        ∀ t : Thread, t.On s → t.passed = [] → t.rest = pieces.flatten →
          ReflTransGen (Reaches s r) t.offset s.length from
      hall pieces haccepts (.start 0 none s) (.start s) rfl hpieces
    intro pieces
    induction pieces with
    | nil =>
      intro _ t ht _ hrest
      have hend : t.offset = s.length := by
        have := ht.offset_add
        simp only [hrest, List.flatten_nil, List.length_nil] at this
        omega
      rw [hend]
    | cons piece pieces ih =>
      intro haccepts t ht hpassed hrest
      have hmem := (mem_run_append_iff hr hpassed hrest).mpr (haccepts piece List.mem_cons_self)
      obtain ⟨u, hu, hoffset⟩ := mem_offsetsOf.mp hmem
      have hlead := (forward_run none r).lead hu
      obtain ⟨v, hv, -⟩ := id hlead
      have hlength : piece.length = v.length := by
        have := hv.offset
        omega
      obtain ⟨-, hrest'⟩ := List.append_inj (hrest.symm.trans hv.rest) hlength
      refine .head ?_ (ih (fun p hp ↦ haccepts p (List.mem_cons_of_mem piece hp)) u (ht.lead hlead)
        (passed_run hpassed hu) hrest'.symm)
      exact (reaches_iff (additive_run s r none) ht hpassed _).mpr (mem_offsetsOf_of_mem hu)

/-! ### Sequences -/

theorem run_foldl_seq (rest : List Regex) (first : Regex) (ts : List Thread) :
    run none (rest.foldl (fun whole part ↦ if part = .empty then whole else .seq whole part) first) ts =
      rest.foldl (fun ts r ↦ run none r ts) (run none first ts) := by
  induction rest generalizing first with
  | nil => rfl
  | cons part rest ih =>
    rw [List.foldl_cons, List.foldl_cons, ih]
    by_cases hpart : part = .empty
    · rw [if_pos hpart, hpart]
      rfl
    · rw [if_neg hpart]
      rfl

theorem run_sequence (rs : List Regex) (ts : List Thread) :
    run none (sequence rs) ts = rs.foldl (fun ts r ↦ run none r ts) ts := by
  induction rs with
  | nil => rfl
  | cons r rs ih =>
    cases r with
    | empty => exact ih
    | _ => exact run_foldl_seq rs _ ts

theorem run_sequence_append (rs ss : List Regex) (ts : List Thread) :
    run none (sequence (rs ++ ss)) ts = run none (sequence ss) (run none (sequence rs) ts) := by
  rw [run_sequence, run_sequence, run_sequence, List.foldl_append]

/-- What holds of nothing and goes over from two expressions to the one behind the other holds of a sequence. -/
theorem sequence_of_forall {P : Regex → Prop} (hempty : P .empty) (hseq : ∀ a b, P a → P b → P (.seq a b))
    {rs : List Regex} (h : ∀ r ∈ rs, P r) : P (sequence rs) := by
  have hfoldl (rest : List Regex) (first : Regex) (hfirst : P first) (hrest : ∀ r ∈ rest, P r) :
      P (rest.foldl (fun whole part ↦ if part = .empty then whole else .seq whole part) first) := by
    induction rest generalizing first with
    | nil => exact hfirst
    | cons part rest ih =>
      refine ih _ ?_ fun r hr ↦ hrest r (List.mem_cons_of_mem part hr)
      by_cases hpart : part = .empty
      · simpa only [if_pos hpart] using hfirst
      · simpa only [if_neg hpart] using hseq first part hfirst (hrest part List.mem_cons_self)
  induction rs with
  | nil => exact hempty
  | cons r rs ih =>
    have hrest : ∀ r ∈ rs, P r := fun r' hr' ↦ h r' (List.mem_cons_of_mem r hr')
    cases r with
    | empty => exact ih hrest
    | _ => exact hfoldl rs _ (h _ List.mem_cons_self) hrest

theorem lookFree_sequence {rs : List Regex} (h : ∀ r ∈ rs, r.lookFree = true) :
    (sequence rs).lookFree = true :=
  sequence_of_forall (P := fun r ↦ r.lookFree = true) rfl (fun _ _ ha hb ↦ Bool.and_eq_true_iff.mpr ⟨ha, hb⟩) h

theorem accepts_sequence_cons {r : Regex} {rs : List Regex} (hr : r.lookFree = true)
    (hrs : ∀ r ∈ rs, r.lookFree = true) (s : List Char) :
    (sequence (r :: rs)).Accepts s ↔ ∃ u v, s = u ++ v ∧ r.Accepts u ∧ (sequence rs).Accepts v :=
  accepts_then hr (lookFree_sequence hrs)
    (fun ts ↦ by rw [run_sequence, run_sequence, List.foldl_cons]) s

theorem accepts_sequence_append {rs ss : List Regex} (hrs : ∀ r ∈ rs, r.lookFree = true)
    (hss : ∀ r ∈ ss, r.lookFree = true) (s : List Char) :
    (sequence (rs ++ ss)).Accepts s ↔ ∃ u v, s = u ++ v ∧ (sequence rs).Accepts u ∧ (sequence ss).Accepts v :=
  accepts_then (lookFree_sequence hrs) (lookFree_sequence hss)
    (run_sequence_append rs ss) s

/-! ### Anchored searches -/

/-- The preferred thread at the end of the text, among threads on it. -/
theorem head?_filter_textEnd {text : List Char} {ts : List Thread} (hts : ∀ t ∈ ts, t.On text) :
    (ts.filter Look.textEnd.holds).head? = threadAt text.length ts := by
  rw [List.head?_filter, threadAt]
  refine List.find?_congr fun t ht ↦ ?_
  have hadd := (hts t ht).offset_add
  rw [Look.holds, Bool.eq_iff_iff, beq_iff_eq, List.isEmpty_iff_length_eq_zero]
  omega

theorem run_textStart_seq (rs : List Regex) {t : Thread} (ht : t.before ≠ none) :
    run none (sequence (.look .textStart :: rs)) [t] = [] := by
  have hnil (rs : List Regex) : rs.foldl (fun ts r ↦ run none r ts) [] = [] := by
    induction rs with
    | nil => rfl
    | cons r rs ih => rw [List.foldl_cons, run_nil, ih]
  have hlook : run none (.look .textStart) [t] = [] := by
    simp [run, Look.holds, ht]
  rw [run_sequence, List.foldl_cons, hlook, hnil]

/-- Behind the first position an expression that starts the text matches nowhere. -/
theorem searchFrom_textStart (rs : List Regex) (offset : Nat) (c : Char) (rest : List Char) :
    searchFrom (sequence (.look .textStart :: rs)) offset (some c) rest = none := by
  induction rest generalizing offset c with
  | nil => rw [searchFrom, run_textStart_seq rs (by simp [Thread.start])]; rfl
  | cons d rest ih =>
    rw [searchFrom, run_textStart_seq rs (by simp [Thread.start]), ih]
    rfl

/-- A search with both anchors is a run on the whole text. -/
theorem search_anchored (r : Regex) (text : List Char) :
    (sequence [.look .textStart, r, .look .textEnd]).search text =
      threadAt text.length (run none r [.start 0 none text]) := by
  have hrun : run none (sequence [.look .textStart, r, .look .textEnd]) [.start 0 none text] =
      (run none r [.start 0 none text]).filter Look.textEnd.holds := by
    rw [run_sequence]
    rfl
  have hon : ∀ t ∈ run none r [.start 0 none text], t.On text := fun t ht ↦
    (Thread.On.start text).lead ((forward_run none r).lead ht)
  have hhead := head?_filter_textEnd hon
  rw [← hrun] at hhead
  cases text with
  | nil => exact hhead
  | cons c text =>
    rw [search, searchFrom, hhead, searchFrom_textStart]
    simp

/-- An anchored expression without other conditions matches the texts that it accepts. -/
theorem search_anchored_isSome (r : Regex) (text : List Char) :
    ((sequence [.look .textStart, r, .look .textEnd]).search text).isSome ↔ r.Accepts text := by
  rw [search_anchored, threadAt_isSome, Accepts]

end PathBinding.Regex
