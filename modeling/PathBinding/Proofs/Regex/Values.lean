import PathBinding.Proofs.Regex.Tail

/-!
What pairs capture. A branch of a pair is a key with a group behind it that captures the value (`Branch`). If values
contain no ampersands, one turn takes in the text up to the next ampersand, and the first branch whose key and value
these are captures it (`captured?_pair`). A turn adds to what earlier turns have captured, so each group keeps the value
of the last pair that it is the branch of (`captured?_closes`). Whatever values contain, a group is left with text that its
body accepts (`acceptedBy_closes`).
-/

set_option autoImplicit false
set_option relaxedAutoImplicit false

namespace PathBinding.Regex

open Relation

variable {text : List Char} {t u : Thread} {name : String}

/-- A branch of a pair: its key, and the name and the body of the group that captures its value. -/
structure Branch where
  key : List Char
  name : String
  body : Regex

instance (r : Regex) (s : List Char) : Decidable (r.Accepts s) :=
  inferInstanceAs (Decidable (_ ∈ _))

namespace Branch

def regexes (b : Branch) : List Regex :=
  characters b.key ++ [.set (.single '='), .group (some b.name) b.body]

/-- The value that a pair has for the branch, if it has the key and the body accepts the value. -/
def value? (b : Branch) (w : List Char) : Option (List Char) :=
  let value := w.drop (b.key.length + 1)
  if w = b.key ++ '=' :: value ∧ b.body.Accepts value then some value else none

theorem value?_eq_some {b : Branch} {w v : List Char} :
    b.value? w = some v ↔ w = b.key ++ '=' :: v ∧ b.body.Accepts v := by
  have hdrop (v : List Char) : (b.key ++ '=' :: v).drop (b.key.length + 1) = v := by
    rw [List.drop_append, List.drop_of_length_le (Nat.le_succ _)]
    simp
  unfold value?
  dsimp only
  split
  · next h =>
    rw [Option.some_inj]
    constructor
    · rintro rfl
      exact h
    · rintro ⟨hw, -⟩
      rw [hw, hdrop]
  · next h =>
    refine iff_of_false nofun ?_
    rintro ⟨rfl, haccepts⟩
    rw [hdrop] at h
    exact h ⟨rfl, haccepts⟩

/-- The value of a pair can be told from what follows: no condition on a position looks further, and neither the key nor
a value contains an ampersand. -/
structure IsSeparate (b : Branch) : Prop where
  lookFree : b.body.lookFree = true
  key : '&' ∉ b.key
  value : ∀ v, b.body.Accepts v → '&' ∉ v

variable {b : Branch}

/-- The key with the sign behind it. -/
def opening (b : Branch) : List Regex :=
  characters (b.key ++ ['='])

theorem regexes_eq (b : Branch) : b.regexes = b.opening ++ [.group (some b.name) b.body] := by
  simp [regexes, opening, characters]

theorem lookFree_regexes (h : b.IsSeparate) : ∀ r ∈ b.regexes, r.lookFree = true := by
  rw [regexes_eq]
  exact List.forall_mem_append.mpr ⟨lookFree_characters _, List.forall_mem_singleton.mpr h.lookFree⟩

theorem accepts_regexes (h : b.IsSeparate) (w : List Char) :
    (sequence b.regexes).Accepts w ↔ ∃ v, b.value? w = some v := by
  have hgroup : ∀ r ∈ [Regex.group (some b.name) b.body], r.lookFree = true := List.forall_mem_singleton.mpr h.lookFree
  have hone (v : List Char) : (sequence [.group (some b.name) b.body]).Accepts v ↔ b.body.Accepts v :=
    accepts_group h.lookFree (some b.name) v
  rw [regexes_eq, opening, accepts_sequence_append (lookFree_characters _) hgroup]
  simp only [accepts_characters, hone, value?_eq_some]
  constructor
  · rintro ⟨_, v, rfl, rfl, hv⟩
    exact ⟨v, by simp, hv⟩
  · rintro ⟨v, rfl, hv⟩
    exact ⟨_, v, by simp, rfl, hv⟩

theorem groupNames_regexes (b : Branch) : (sequence b.regexes).groupNames = b.name :: b.body.groupNames := by
  have hkey : b.opening.flatMap groupNames = [] := groupNames_characters _
  rw [groupNames_sequence, regexes_eq, List.flatMap_append, hkey, List.flatMap_singleton]
  rfl

end Branch

/-! ### One branch -/

/-- Results of a run that all stand at one offset are one at most. -/
theorem run_of_offset {r : Regex} {o : Nat} (h : ∀ u ∈ run none r [t], u.offset = o) (hu : u ∈ run none r [t]) :
    run none r [t] = [u] := by
  have hnodup := (forward_run none r).nodup [t] (List.nodup_singleton _)
  generalize run none r [t] = us at h hu hnodup
  cases us with
  | nil => cases hu
  | cons v us =>
    cases us with
    | nil => rw [List.mem_singleton.mp hu]
    | cons w us =>
      have hsame : v.offset = w.offset :=
        (h v List.mem_cons_self).trans (h w (List.mem_cons_of_mem _ List.mem_cons_self)).symm
      rw [offsetsOf_cons, offsetsOf_cons, hsame] at hnodup
      exact absurd List.mem_cons_self (List.nodup_cons.mp hnodup).1

/-- A branch captures its value, and else what its body captures. -/
theorem captured?_branch {b : Branch} (hfree : b.body.lookFree = true) (hpassed : t.passed = []) {w : List Char}
    (hu : u ∈ run none (sequence b.regexes) [t]) (hrest : t.rest = w ++ u.rest) :
    ∃ v, b.value? w = some v ∧ u.captured? b.name = some v ∧
      ∀ name, name ≠ b.name → name ∉ b.body.groupNames → u.captured? name = t.captured? name := by
  have hlead : Leads (.ofNames (sequence b.regexes)) 0 t u := (forward_run_names fun _ hn ↦ hn).lead hu
  have hother (name : String) (hname : name ≠ b.name) (hbody : name ∉ b.body.groupNames) :
      u.captured? name = t.captured? name := by
    refine captured?_of_lead hlead ?_
    intro hin
    have hmem : name ∈ (sequence b.regexes).groupNames := hin
    rw [Branch.groupNames_regexes] at hmem
    exact (List.mem_cons.mp hmem).elim hname hbody
  rw [Branch.regexes_eq, run_sequence_append] at hu
  -- The key is read in one way only.
  have hkey : ∀ s ∈ run none (sequence b.opening) [t],
      t.rest = b.key ++ '=' :: s.rest ∧ s.offset = t.offset + (b.key.length + 1) := by
    intro s hs
    obtain ⟨x, hx, -⟩ := (forward_run none _).lead hs
    have haccepts : (sequence b.opening).Accepts x := by
      have hopening := lookFree_sequence (lookFree_characters (b.key ++ ['=']))
      exact (mem_run_append_iff hopening hpassed hx.rest).mp (hx.offset ▸ mem_offsetsOf_of_mem hs)
    rw [Branch.opening, accepts_characters] at haccepts
    subst haccepts
    refine ⟨?_, ?_⟩
    · rw [hx.rest, List.append_assoc]
      rfl
    · rw [hx.offset, List.length_append]
      rfl
  obtain ⟨s, hs⟩ : ∃ s, s ∈ run none (sequence b.opening) [t] := by
    refine List.exists_mem_of_ne_nil _ fun hnil ↦ ?_
    rw [hnil, run_nil] at hu
    cases hu
  rw [run_of_offset (fun s hs ↦ (hkey s hs).2) hs] at hu
  obtain ⟨v, hv, rfl⟩ := List.mem_map.mp hu
  obtain ⟨x, hx, -⟩ := (forward_run none b.body).lead hv
  have hsplit : w = b.key ++ '=' :: x := by
    have htext : w ++ v.rest = b.key ++ '=' :: x ++ v.rest := by
      have hbehind : s.rest = x ++ v.rest := hx.rest
      have hrest' : t.rest = w ++ v.rest := by
        rw [hrest, Thread.From.unmark_capture]
        rfl
      rw [← hrest', (hkey s hs).1, hbehind]
      simp
    exact List.append_cancel_right htext
  have haccepts : b.body.Accepts x := by
    have hmarked : s.mark.passed = [] := (passed_run hpassed hs : s.passed = [])
    rw [← mem_run_append_iff hfree hmarked hx.rest, ← hx.offset]
    exact mem_offsetsOf_of_mem hv
  refine ⟨x, Branch.value?_eq_some.mpr ⟨hsplit, haccepts⟩, ?_, hother⟩
  have hcaptures : ((v.capture b.name).unmark).captures = ⟨b.name, s.rest, x.length⟩ :: v.captures :=
    hx.captures_capture b.name
  have htake : s.rest.take x.length = x := by
    rw [show s.rest = x ++ v.rest from hx.rest, List.take_left]
  rw [Thread.captured?, hcaptures, List.find?_cons]
  simp [Capture.text, htake]

/-! ### One pair -/

/-- The branch that takes in a pair, which is the first that has a value in it, by its name and the value. -/
def bound? (bs : List Branch) (w : List Char) : Option (String × List Char) :=
  bs.findSome? fun b ↦ (b.value? w).map (b.name, ·)

/-- No other branch captures under the name. -/
def IsOwn (bs : List Branch) (name : String) : Prop :=
  ∀ b ∈ bs, name ≠ b.name → name ∉ b.body.groupNames

/-- The expressions of branches, and text without ampersands for all other pairs. -/
def branchesOf (bs : List Branch) : List Regex :=
  bs.map (fun b ↦ sequence b.regexes) ++ [unseparated]

theorem captured?_branches {bs : List Branch} (hbs : ∀ b ∈ bs, b.IsSeparate) (hpassed : t.passed = [])
    {w rest : List Char} (hrest : t.rest = w ++ rest) {f : String → Option (List Char)}
    (hf : (branchesOf bs).findSome? (fun r ↦ (threadAt (t.offset + w.length) (run none r [t])).map Thread.captured?) =
      some f) (hname : IsOwn bs name) :
    f name = ((bound? bs w).toList.lookup name).or (t.captured? name) := by
  have hread {r : Regex} {s : Thread} (hs : threadAt (t.offset + w.length) (run none r [t]) = some s) :
      s ∈ run none r [t] ∧ t.rest = w ++ s.rest := by
    have hmem := mem_of_threadAt hs
    obtain ⟨x, hx, -⟩ := (forward_run none r).lead hmem
    have hlength : x.length = w.length := by
      have hoffset := hx.offset.symm.trans (offset_of_threadAt hs)
      omega
    obtain ⟨rfl, -⟩ := List.append_inj (hx.rest.symm.trans hrest) hlength
    exact ⟨hmem, hx.rest⟩
  induction bs with
  | nil =>
    rw [branchesOf, List.map_nil, List.nil_append, List.findSome?_cons] at hf
    cases hs : threadAt (t.offset + w.length) (run none unseparated [t]) with
    | none =>
      rw [hs] at hf
      cases hf
    | some s =>
      rw [hs] at hf
      cases hf
      have hnone : name ∉ unseparated.groupNames := List.not_mem_nil
      exact captured?_of_lead ((forward_run_names fun _ hn ↦ hn).lead (hread hs).1) hnone
  | cons b bs ih =>
    obtain ⟨hb, hbs⟩ := List.forall_mem_cons.mp hbs
    obtain ⟨hown, hname⟩ := List.forall_mem_cons.mp hname
    rw [branchesOf, List.map_cons, List.cons_append, List.findSome?_cons] at hf
    cases hs : threadAt (t.offset + w.length) (run none (sequence b.regexes) [t]) with
    | none =>
      rw [hs] at hf
      have hvalue : b.value? w = none := by
        by_contra hsome
        obtain ⟨v, hv⟩ := Option.ne_none_iff_exists'.mp hsome
        have haccepts := (b.accepts_regexes hb w).mpr ⟨v, hv⟩
        rw [← mem_run_append_iff (lookFree_sequence (b.lookFree_regexes hb)) hpassed hrest, ← threadAt_isSome, hs]
          at haccepts
        cases haccepts
      have hbound : bound? (b :: bs) w = bound? bs w := by
        rw [bound?, List.findSome?_cons, hvalue]
        rfl
      rw [hbound]
      exact ih hbs hf hname
    | some s =>
      rw [hs] at hf
      cases hf
      obtain ⟨hmem, hbehind⟩ := hread hs
      obtain ⟨v, hv, hcaptured, hother⟩ := captured?_branch hb.lookFree hpassed hmem hbehind
      have hbound : bound? (b :: bs) w = some (b.name, v) := by
        rw [bound?, List.findSome?_cons, hv]
        rfl
      rw [hbound, Option.toList_some, List.lookup_cons]
      by_cases heq : name = b.name
      · subst heq
        simpa using hcaptured
      · have hne : (name == b.name) = false := by simpa using heq
        rw [hne]
        simpa using hother name heq (hown heq)

theorem branchesOf_ne_nil (bs : List Branch) : branchesOf bs ≠ [] :=
  List.append_ne_nil_of_right_ne_nil _ (List.cons_ne_nil _ _)

/-- A turn goes through one of the branches up to an ampersand. -/
theorem mem_run_pair {bs : List Branch} (hu : u ∈ run none (pair (bs.map Branch.regexes)) [t]) :
    ∃ s ∈ run none (altAll (branchesOf bs)) [t], s.rest = '&' :: u.rest ∧ u.captured? = s.captured? := by
  have hbranches : (bs.map Branch.regexes).map sequence ++ [unseparated] = branchesOf bs := by
    rw [branchesOf, List.map_map]
    rfl
  rw [pair, hbranches, run, run, List.mem_filterMap] at hu
  obtain ⟨s, hs, hadvance⟩ := hu
  refine ⟨s, hs, ?_⟩
  unfold Thread.advance? at hadvance
  split at hadvance
  · cases hadvance
  · next c rest hrest =>
    split at hadvance
    · next hc =>
      cases hadvance
      rw [(single_contains '&' c).mp hc] at hrest
      exact ⟨hrest, rfl⟩
    · cases hadvance

/-- What alternatives capture up to some offset is what the first of them captures that gets there. -/
theorem findSome?_of_mem_altAll {rs : List Regex} (hne : rs ≠ []) {s : Thread} (hs : s ∈ run none (altAll rs) [t]) :
    rs.findSome? (fun r ↦ (threadAt s.offset (run none r [t])).map Thread.captured?) = some s.captured? := by
  have hnodup := (forward_run none (altAll rs)).nodup [t] (List.nodup_singleton _)
  obtain ⟨w, hw, -⟩ := (forward_run none _).lead hs
  have hle : s.offset ≤ t.offset + t.rest.length := by
    rw [hw.offset, hw.rest, List.length_append]
    omega
  have hfirst := captures_altAll hne hle
  rw [threadAt_eq_some_of_mem hnodup hs, Option.map_some] at hfirst
  exact hfirst.symm

/-- A turn takes in the text up to the next ampersand, and the first branch that has a value there captures it. -/
theorem captured?_pair {bs : List Branch} (hbs : ∀ b ∈ bs, b.IsSeparate) (ht : t.On text) (hpassed : t.passed = [])
    (hu : u ∈ run none (pair (bs.map Branch.regexes)) [t]) :
    ∃ w, '&' ∉ w ∧ t.rest = w ++ '&' :: u.rest ∧ ∀ name, IsOwn bs name →
      u.captured? name = ((bound? bs w).toList.lookup name).or (t.captured? name) := by
  obtain ⟨s, hs, hrest, hsame⟩ := mem_run_pair hu
  obtain ⟨w, hw, -⟩ := (forward_run none _).lead hs
  refine ⟨w, ?_, hrest ▸ hw.rest, fun name hname ↦ ?_⟩
  · -- Whatever branch it is, what it accepts has no ampersands.
    have hoffset : s.offset ∈ offsetsOf (run none (altAll (branchesOf bs)) [t]) := mem_offsetsOf_of_mem hs
    rw [hw.offset, mem_offsetsOf_altAll (branchesOf_ne_nil bs) ht hpassed] at hoffset
    obtain ⟨r, hr, ho⟩ := hoffset
    rcases List.mem_append.mp hr with hr | hr
    · obtain ⟨b, hb, rfl⟩ := List.mem_map.mp hr
      rw [mem_run_append_iff (lookFree_sequence (b.lookFree_regexes (hbs b hb))) hpassed hw.rest,
        b.accepts_regexes (hbs b hb)] at ho
      obtain ⟨v, hv⟩ := ho
      obtain ⟨hpair, haccepts⟩ := Branch.value?_eq_some.mp hv
      rw [hpair]
      simp [(hbs b hb).key, (hbs b hb).value v haccepts]
    · rw [List.mem_singleton.mp hr, mem_run_append_iff rfl hpassed hw.rest] at ho
      exact (accepts_unseparated w).mp ho
  · have hfirst := findSome?_of_mem_altAll (branchesOf_ne_nil bs) hs
    rw [hw.offset] at hfirst
    rw [hsame]
    exact captured?_branches hbs hpassed hw.rest hfirst hname

/-- What a thread has captured under a name is accepted by a branch of that name. -/
def AcceptedBy (bs : List Branch) (name : String) (t : Thread) : Prop :=
  ∀ v, t.captured? name = some v → ∃ b ∈ bs, b.name = name ∧ b.body.Accepts v

/-- Values may contain ampersands, so that it is not clear where a turn ends. Still it goes through one branch, whose group
takes in what its body accepts. -/
theorem acceptedBy_pair {bs : List Branch} (hfree : ∀ b ∈ bs, b.body.lookFree = true) (hpassed : t.passed = [])
    (hname : IsOwn bs name) (hu : u ∈ run none (pair (bs.map Branch.regexes)) [t]) (h : AcceptedBy bs name t) :
    AcceptedBy bs name u := by
  obtain ⟨s, hs, -, hsame⟩ := mem_run_pair hu
  obtain ⟨r, hr, hcaptured⟩ := List.exists_of_findSome?_eq_some (findSome?_of_mem_altAll (branchesOf_ne_nil bs) hs)
  obtain ⟨v, hv, hv'⟩ := Option.map_eq_some_iff.mp hcaptured
  rw [AcceptedBy, hsame, ← hv']
  have hmem : v ∈ run none r [t] := mem_of_threadAt hv
  rcases List.mem_append.mp hr with hr | hr
  · obtain ⟨b, hb, rfl⟩ := List.mem_map.mp hr
    obtain ⟨x, hx, -⟩ := (forward_run none _).lead hmem
    obtain ⟨value, hvalue, hown, hother⟩ := captured?_branch (hfree b hb) hpassed hmem hx.rest
    by_cases heq : name = b.name
    · subst heq
      intro word hword
      cases hown.symm.trans hword
      exact ⟨b, hb, rfl, (Branch.value?_eq_some.mp hvalue).2⟩
    · rw [hother name heq (hname b hb heq)]
      exact h
  · rw [List.mem_singleton.mp hr] at hmem
    have hnone : name ∉ unseparated.groupNames := List.not_mem_nil
    rw [captured?_of_lead ((forward_run_names fun _ hn ↦ hn).lead hmem) hnone]
    exact h

/-! ### All pairs -/

/-- Turns of a body, one behind the other. -/
def Turns (body : Regex) : Thread → Thread → Prop :=
  ReflTransGen fun t u ↦ u ∈ run none body [t]

theorem carries_turns (body : Regex) : Carries (fun t ↦ run none body [t]) none (Turns body) where
  refl _ := .refl
  pass _ _ _ hs hv := by
    cases hs
    exact hv
  step _ _ hu _ hv := .head hu hv

/-- What a repetition reaches is reached in some number of turns. -/
theorem turns_of_mem_repeat {body : Regex} (hleast : body.leastLength ≠ 0) {greedy : Bool}
    (hu : u ∈ run none (.repeat 0 none greedy body) [t]) : ∃ v, Turns body t v ∧ u = v.forgetIn none := by
  obtain ⟨⟨added, hadded, hturns⟩, -⟩ :=
    (carries_turns body).adds_iterateAny (carries_turns body) greedy .start t
  rw [run_repeat_none, if_neg fun h ↦ hleast h.2, takeAny, if_neg hleast] at hu
  obtain ⟨v, hv, rfl⟩ := List.mem_map.mp hu
  have hbehind : v ∈ (iterateAny (fun t ↦ run none body [t]) greedy none none .start t).front.threads := hv
  rw [hadded] at hbehind
  exact ⟨v, hturns v hbehind, rfl⟩

theorem bound?_nil (bs : List Branch) : bound? bs [] = none := by
  refine List.findSome?_eq_none_iff.mpr fun b _ ↦ ?_
  rw [Option.map_eq_none_iff, Option.eq_none_iff_forall_ne_some]
  intro v hv
  have hpair := (Branch.value?_eq_some.mp hv).1
  simp at hpair

/-- After turns to the end of a text each group has the value of the last pair that it is the branch of, and if there is
none, what it had before. -/
theorem captured?_turns {bs : List Branch} (hbs : ∀ b ∈ bs, b.IsSeparate)
    (h : Turns (pair (bs.map Branch.regexes)) t u) (ht : t.On text) (hpassed : t.passed = []) (hend : u.rest = [])
    (hname : IsOwn bs name) : u.captured? name =
      (((t.rest.splitOn '&').filterMap (bound? bs)).reverse.lookup name).or (t.captured? name) := by
  induction h using ReflTransGen.head_induction_on with
  | refl =>
    rw [hend, List.splitOn_nil, List.filterMap_cons, bound?_nil]
    rfl
  | @head t s hs _ ih =>
    have hs' : s ∈ run none (pair (bs.map Branch.regexes)) [t] := hs
    obtain ⟨w, hw, hrest, hcaptured⟩ := captured?_pair hbs ht hpassed hs'
    have hsplit : t.rest.splitOn '&' = w :: s.rest.splitOn '&' := by
      rw [hrest]
      refine List.splitOnP_append_cons_of_forall_mem (p := (· == '&')) (fun c hc ↦ ?_) '&' rfl s.rest
      exact beq_eq_false_iff_ne.mpr fun heq ↦ hw (heq ▸ hc)
    have hfilter : (w :: s.rest.splitOn '&').filterMap (bound? bs) =
        (bound? bs w).toList ++ (s.rest.splitOn '&').filterMap (bound? bs) := by
      rw [List.filterMap_cons]
      cases bound? bs w <;> rfl
    have hone : (bound? bs w).toList.reverse = (bound? bs w).toList := by
      cases bound? bs w <;> rfl
    rw [ih (ht.lead ((forward_run none _).lead hs')) (passed_run hpassed hs'), hcaptured name hname, hsplit, hfilter,
      List.reverse_append, hone, List.lookup_append, Option.or_assoc]

/-- Turns leave groups with what their bodies accept. -/
theorem acceptedBy_turns {bs : List Branch} (hfree : ∀ b ∈ bs, b.body.lookFree = true) (hname : IsOwn bs name)
    (h : Turns (pair (bs.map Branch.regexes)) t u) (hpassed : t.passed = []) (ht : AcceptedBy bs name t) :
    AcceptedBy bs name u := by
  induction h using ReflTransGen.head_induction_on with
  | refl => exact ht
  | @head t s hs _ ih =>
    have hs' : s ∈ run none (pair (bs.map Branch.regexes)) [t] := hs
    exact ih (passed_run hpassed hs') (acceptedBy_pair hfree hpassed hname hs' ht)

/-- A query reads its question mark and goes on by turns. -/
theorem turns_of_closes {branches : List (List Regex)} (h : t.Closes branches text u) {rest : List Char}
    (hrest : t.rest = '?' :: rest) : ∃ m ∈ run none (.set (.single '?')) [t], ∃ v,
      (m.rest = rest ∧ m.passed = [] ∧ m.captured? = t.captured?) ∧ Turns (pair branches) m v ∧
        u.rest = v.rest ∧ u.captured? = v.captured? := by
  have hmark := run_mark t
  rw [hrest] at hmark
  have hu := h.1
  rw [run_query, hmark] at hu
  have hleast : (pair branches).leastLength ≠ 0 := Nat.succ_ne_zero _
  obtain ⟨v, hturns, rfl⟩ := turns_of_mem_repeat hleast hu
  exact ⟨_, List.mem_of_mem_head? (congrArg List.head? hmark), v, ⟨rfl, rfl, rfl⟩, hturns, rfl, rfl⟩

/-- A query behind a question mark leaves each group with the value of the last pair that it is the branch of. -/
theorem captured?_closes {bs : List Branch} (hbs : ∀ b ∈ bs, b.IsSeparate) (ht : t.On text)
    (h : t.Closes (bs.map Branch.regexes) text u) {rest : List Char} (hrest : t.rest = '?' :: rest)
    (hname : IsOwn bs name) : u.captured? name =
      (((rest.splitOn '&').filterMap (bound? bs)).reverse.lookup name).or (t.captured? name) := by
  have hlast := (ht.lead h.leads).offset_add
  rw [h.2] at hlast
  obtain ⟨m, hm, v, ⟨rfl, hpassed, hbefore⟩, hturns, hrest', hafter⟩ := turns_of_closes h hrest
  have hnil : v.rest = [] := List.length_eq_zero_iff.mp (by
    rw [hrest'] at hlast
    omega)
  rw [← hbefore, hafter]
  exact captured?_turns hbs hturns (ht.lead ((forward_run none _).lead hm)) hpassed hnil hname

/-- A query leaves groups with what their bodies accept. -/
theorem acceptedBy_closes {bs : List Branch} (hfree : ∀ b ∈ bs, b.body.lookFree = true)
    (h : t.Closes (bs.map Branch.regexes) text u) {rest : List Char} (hrest : t.rest = '?' :: rest)
    (hname : IsOwn bs name) (ht : AcceptedBy bs name t) : AcceptedBy bs name u := by
  obtain ⟨m, -, v, ⟨-, hpassed, hbefore⟩, hturns, -, hafter⟩ := turns_of_closes h hrest
  rw [AcceptedBy, ← hbefore] at ht
  rw [AcceptedBy, hafter]
  exact acceptedBy_turns hfree hname hturns hpassed ht

end PathBinding.Regex
