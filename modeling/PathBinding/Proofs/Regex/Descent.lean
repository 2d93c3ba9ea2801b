import Mathlib.Data.List.TakeDrop
import PathBinding.Proofs.Regex.Front

/-!
Where threads come from. An expression moves each thread forward on its text, keeps what the thread had begun and only
adds captures; what it reaches from a list of threads is grouped by them, in their order, at offsets of its own.

`Thread.From` says what one thread owes to another, `Follows` that a list is grouped by its sources, and `Forward` that
a step on lists has both properties. `run_forward` states it for every expression.
-/

set_option autoImplicit false
set_option relaxedAutoImplicit false

namespace PathBinding.Regex

/-! ### Parts of expressions -/

/-- The names of the groups of an expression, from left to right. -/
def groupNames : Regex → List String
  | .empty | .set _ | .look _ => []
  | .seq a b | .alt a b => a.groupNames ++ b.groupNames
  | .repeat _ _ _ body => body.groupNames
  | .group none body => body.groupNames
  | .group (some name) body => name :: body.groupNames

/-- Whether some set of an expression contains a character. -/
def mentions (c : Char) : Regex → Bool
  | .empty | .look _ => false
  | .set chars => chars.contains c
  | .seq a b | .alt a b => a.mentions c || b.mentions c
  | .repeat _ _ _ body | .group _ body => body.mentions c

/-! ### One thread from another -/

/-- `u` lies behind the characters `s` that follow `t`. -/
structure Thread.Ahead (t u : Thread) (s : List Char) : Prop where
  rest : t.rest = s ++ u.rest
  offset : u.offset = t.offset + s.length
  before : u.before = s.getLast?.or t.before

theorem Thread.Ahead.refl (t : Thread) : t.Ahead t [] :=
  ⟨rfl, rfl, rfl⟩

theorem Thread.Ahead.trans {t u v : Thread} {s r : List Char} (h : t.Ahead u s) (h' : u.Ahead v r) :
    t.Ahead v (s ++ r) where
  rest := by rw [h.rest, h'.rest, List.append_assoc]
  offset := by rw [h'.offset, h.offset, List.length_append, Nat.add_assoc]
  before := by rw [h'.before, h.before, List.getLast?_append, Option.or_assoc]

/-- What threads may gain: the names of groups they capture, the characters they pass over and the places they go
through. -/
structure Scope where
  names : String → Prop
  chars : Char → Prop
  places : List Nat → Prop

/-- The same scope without a bound on places. -/
def Scope.anywhere (scope : Scope) : Scope :=
  { scope with places := fun _ ↦ True }

/-- `u` comes from `t` over the characters `s`, within a scope. What has been captured on the way lies in `s`. -/
structure Thread.From (scope : Scope) (t u : Thread) (s : List Char) : Prop extends t.Ahead u s where
  begun : u.begun = t.begun
  captures : ∃ gained, u.captures = gained ++ t.captures ∧ ∀ k ∈ gained, scope.names k.name ∧ k.text <:+: s
  chars : ∀ c ∈ s, scope.chars c
  passed : ∀ p ∈ u.passed, p ∈ t.passed ∨ scope.places p

namespace Thread.From

variable {scope : Scope} {t u v : Thread} {s r : List Char}

theorem refl (scope : Scope) (t : Thread) : t.From scope t [] where
  toAhead := Ahead.refl t
  begun := rfl
  captures := ⟨[], rfl, by simp⟩
  chars := by simp
  passed := fun _ ↦ Or.inl

theorem trans (h : t.From scope u s) (h' : u.From scope v r) : t.From scope v (s ++ r) where
  toAhead := h.toAhead.trans h'.toAhead
  begun := h'.begun.trans h.begun
  captures := by
    obtain ⟨first, hfirst, hnames⟩ := h.captures
    obtain ⟨second, hsecond, hnames'⟩ := h'.captures
    refine ⟨second ++ first, by rw [hsecond, hfirst, List.append_assoc], fun k hk ↦ ?_⟩
    rcases List.mem_append.mp hk with hk | hk
    · exact (hnames' k hk).imp_right fun htext ↦ htext.trans (List.suffix_append s r).isInfix
    · exact (hnames k hk).imp_right fun htext ↦ htext.trans (List.prefix_append s r).isInfix
  chars := fun c hc ↦ (List.mem_append.mp hc).elim (h.chars c) (h'.chars c)
  passed := fun p hp ↦ (h'.passed p hp).elim (h.passed p) Or.inr

theorem advance {chars : CharSet} (hchars : ∀ c, chars.contains c = true → scope.chars c)
    (h : t.advance? chars = some u) : ∃ c, t.From scope u [c] := by
  cases hrest : t.rest with
  | nil => simp [Thread.advance?, hrest] at h
  | cons c rest =>
    simp only [Thread.advance?, hrest] at h
    by_cases hc : chars.contains c
    · rw [if_pos hc, Option.some_inj] at h
      subst h
      exact ⟨c, ⟨hrest, rfl, rfl⟩, rfl, ⟨[], rfl, by simp⟩, by simpa using hchars c hc, by simp⟩
    · simp [hc] at h

theorem pass {path : List Nat} (hplaces : scope.places path) (h : t.pass? (some path) = some u) :
    t.From scope u [] := by
  rw [Thread.pass?] at h
  split at h
  · cases h
  · cases h
    refine ⟨⟨rfl, rfl, rfl⟩, rfl, ⟨[], rfl, by simp⟩, by simp, fun p hp ↦ ?_⟩
    exact (List.mem_cons.mp hp).elim (fun heq ↦ Or.inr (heq ▸ hplaces)) Or.inl

theorem unmark (h : t.mark.From scope u s) : t.From scope u.unmark s where
  rest := h.rest
  offset := h.offset
  before := h.before
  begun := by simp [Thread.unmark, h.begun, Thread.mark]
  captures := h.captures
  chars := h.chars
  passed := h.passed

theorem begun_mark (h : t.mark.From scope u s) : u.begun = (t.offset, t.rest) :: t.begun :=
  h.begun

/-- A group adds the text since its beginning. -/
theorem captures_capture (h : t.mark.From scope u s) (name : String) :
    (u.capture name).captures = ⟨name, t.rest, s.length⟩ :: u.captures := by
  have hoffset : u.offset - t.offset = s.length := by
    rw [h.offset]
    exact Nat.add_sub_cancel_left t.offset s.length
  rw [Thread.capture, h.begun_mark]
  simp [hoffset]

theorem unmark_capture (u : Thread) (name : String) :
    (u.capture name).unmark = { u.unmark with captures := (u.capture name).captures } := by
  unfold Thread.capture
  split <;> rfl

theorem capture {name : String} (hname : scope.names name) (h : t.mark.From scope u s) :
    t.From scope (u.capture name).unmark s := by
  obtain ⟨gained, hgained, hnames⟩ := h.captures
  rw [unmark_capture, h.captures_capture]
  refine { h.unmark with captures := ⟨⟨name, t.rest, s.length⟩ :: gained, ?_, fun k hk ↦ ?_⟩ }
  · simp [hgained, Thread.mark]
  · rcases List.mem_cons.mp hk with rfl | hk
    · have htext : t.rest.take s.length = s := by
        rw [show t.rest = s ++ u.rest from h.rest, List.take_left]
      refine ⟨hname, [], [], ?_⟩
      rw [Capture.text, htext, List.nil_append, List.append_nil]
    · exact hnames k hk

/-- Behind the outermost repetition no place is remembered. -/
theorem forget (h : t.From scope.anywhere u s) : t.From scope (u.forgetIn none) s :=
  ⟨⟨h.rest, h.offset, h.before⟩, h.begun, h.captures, h.chars, fun _ hp ↦ by
    simp [Thread.forgetIn] at hp⟩

theorem offset_le (h : t.From scope u s) : t.offset ≤ u.offset :=
  h.offset ▸ Nat.le_add_right _ _

end Thread.From

/-- `u` comes from `t` over at least `least` characters. -/
def Leads (scope : Scope) (least : Nat) (t u : Thread) : Prop :=
  ∃ s, t.From scope u s ∧ least ≤ s.length

namespace Leads

variable {scope : Scope} {least more : Nat} {t u v : Thread}

theorem refl (scope : Scope) (t : Thread) : Leads scope 0 t t :=
  ⟨[], .refl scope t, Nat.le_refl 0⟩

theorem trans (h : Leads scope least t u) (h' : Leads scope more u v) :
    Leads scope (least + more) t v := by
  obtain ⟨s, hs, hlength⟩ := h
  obtain ⟨r, hr, hlength'⟩ := h'
  exact ⟨s ++ r, hs.trans hr, List.length_append ▸ Nat.add_le_add hlength hlength'⟩

theorem append (h : Leads scope least t u) (h' : Leads scope 0 u v) : Leads scope least t v :=
  h.trans h'

theorem weaken (h : Leads scope least t u) (hle : more ≤ least) : Leads scope more t u :=
  h.imp fun _ hs ↦ ⟨hs.1, Nat.le_trans hle hs.2⟩

theorem offset_le (h : Leads scope least t u) : t.offset + least ≤ u.offset := by
  obtain ⟨s, hs, hlength⟩ := h
  have := hs.offset
  omega

theorem begun (h : Leads scope least t u) : u.begun = t.begun :=
  h.elim fun _ hs ↦ hs.1.begun

end Leads

/-! ### Lists grouped by their sources -/

/-- The second list consists of groups, one for each member of the first. -/
inductive Follows (R : Thread → Thread → Prop) : List Thread → List Thread → Prop
  | nil : Follows R [] []
  | cons {t : Thread} {ts group us : List Thread} (head : ∀ u ∈ group, R t u)
      (tail : Follows R ts us) : Follows R (t :: ts) (group ++ us)

namespace Follows

variable {R S T : Thread → Thread → Prop} {ts us vs : List Thread}

theorem refl (hR : ∀ t, R t t) : ∀ ts, Follows R ts ts
  | [] => .nil
  | t :: ts => .cons (List.forall_mem_singleton.mpr (hR t)) (refl hR ts)

theorem mono (hRS : ∀ t u, R t u → S t u) (h : Follows R ts us) : Follows S ts us := by
  induction h with
  | nil => exact .nil
  | cons head _ ih => exact .cons (fun u hu ↦ hRS _ u (head u hu)) ih

theorem source (h : Follows R ts us) {u : Thread} (hu : u ∈ us) : ∃ t ∈ ts, R t u := by
  induction h with
  | nil => cases hu
  | cons head _ ih =>
    rcases List.mem_append.mp hu with hu | hu
    · exact ⟨_, List.mem_cons_self, head u hu⟩
    · exact (ih hu).imp fun t ht ↦ ⟨List.mem_cons_of_mem _ ht.1, ht.2⟩

theorem sublist (h : Follows R ts us) : ∀ {vs}, vs.Sublist us → Follows R ts vs := by
  induction h with
  | nil => intro vs hvs; rw [List.sublist_nil.mp hvs]; exact .nil
  | cons head _ ih =>
    intro vs hvs
    obtain ⟨first, second, rfl, hfirst, hsecond⟩ := List.sublist_append_iff.mp hvs
    exact .cons (fun u hu ↦ head u (hfirst.subset hu)) (ih hsecond)

/-- What follows a concatenation splits along it. -/
theorem split (h : Follows R (ts ++ us) vs) :
    ∃ first second, vs = first ++ second ∧ Follows R ts first ∧ Follows R us second := by
  induction ts generalizing vs with
  | nil => exact ⟨[], vs, rfl, .nil, h⟩
  | cons t ts ih =>
    cases h with
    | cons head tail =>
      obtain ⟨first, second, rfl, hfirst, hsecond⟩ := ih tail
      exact ⟨_ ++ first, second, (List.append_assoc _ _ _).symm, .cons head hfirst, hsecond⟩

theorem trans (hT : ∀ t u v, R t u → S u v → T t v) (h : Follows R ts us) :
    ∀ {vs}, Follows S us vs → Follows T ts vs := by
  induction h with
  | nil => intro vs hvs; cases hvs; exact .nil
  | cons head _ ih =>
    intro vs hvs
    obtain ⟨first, second, rfl, hfirst, hsecond⟩ := hvs.split
    refine .cons (fun v hv ↦ ?_) (ih hsecond)
    obtain ⟨u, hu, hS⟩ := hfirst.source hv
    exact hT _ u v (head u hu) hS

theorem filterMap {f : Thread → Option Thread} (hf : ∀ t u, f t = some u → R t u) :
    ∀ ts, Follows R ts (ts.filterMap f)
  | [] => .nil
  | t :: ts => by
    have htail := filterMap hf ts
    rw [List.filterMap_cons]
    split
    · exact .cons (List.forall_mem_nil _) htail
    · next u hu => exact .cons (List.forall_mem_singleton.mpr (hf t u hu)) htail

theorem flatMap {f : Thread → List Thread} :
    ∀ {ts}, (∀ t ∈ ts, ∀ u ∈ f t, R t u) → Follows R ts (ts.flatMap f)
  | [], _ => .nil
  | t :: ts, hf => by
    rw [List.flatMap_cons]
    exact .cons (hf t List.mem_cons_self) (flatMap fun s hs ↦ hf s (List.mem_cons_of_mem t hs))

/-- Moves both lists of a grouping. -/
theorem map {f g : Thread → Thread} (hS : ∀ t u, R (f t) u → S t (g u)) :
    ∀ {ts us}, Follows R (ts.map f) us → Follows S ts (us.map g)
  | [], _, h => by cases h; exact .nil
  | t :: ts, _, h => by
    cases h with
    | cons head tail =>
      rw [List.map_append]
      refine .cons (fun v hv ↦ ?_) (map hS tail)
      obtain ⟨u, hu, rfl⟩ := List.mem_map.mp hv
      exact hS t u (head u hu)

end Follows

/-! ### Ways side by side -/

@[simp] theorem offsetsOf_mark (ts : List Thread) : offsetsOf (ts.map Thread.mark) = offsetsOf ts :=
  offsetsOf_map_of_eq (f := Thread.mark) (fun _ ↦ rfl) ts

/-- Marked threads tell by the offset they begin at what comes from them. -/
theorem isFrom_mark {scope : Scope} {least : Nat} {s t u : Thread} (h : Leads scope least t.mark u) :
    s.isFrom u = true ↔ t.offset = s.offset := by
  rw [Thread.isFrom, h.begun]
  simp [Thread.mark]

/-- The results of a source are the ones that begin where it stands. -/
theorem span_isFrom {scope : Scope} {least : Nat} {t : Thread} {ts us : List Thread}
    (hnodup : (offsetsOf (t :: ts)).Nodup)
    (h : Follows (Leads scope least) ((t :: ts).map Thread.mark) us) :
    ∃ group others, us = group ++ others ∧ (∀ u ∈ group, Leads scope least t.mark u) ∧
      Follows (Leads scope least) (ts.map Thread.mark) others ∧
      (∀ s : Thread, s.offset = t.offset → us.span s.isFrom = (group, others) ∧ us.filter s.isFrom = group) ∧
      ∀ s ∈ ts, us.filter s.mark.isFrom = others.filter s.mark.isFrom := by
  cases h with
  | @cons _ _ group others head tail =>
    have hgroup : ∀ s : Thread, s.offset = t.offset → ∀ u ∈ group, s.isFrom u = true :=
      fun s hs u hu ↦ (isFrom_mark (head u hu)).mpr hs.symm
    have hothers : ∀ s : Thread, s.offset = t.offset → ∀ u ∈ others, s.isFrom u = false := by
      intro s hs u hu
      obtain ⟨m, hm, hlead⟩ := tail.source hu
      obtain ⟨t', ht', rfl⟩ := List.mem_map.mp hm
      rw [← Bool.not_eq_true, isFrom_mark hlead, hs]
      intro heq
      exact (List.nodup_cons.mp hnodup).1 (mem_offsetsOf.mpr ⟨t', ht', heq⟩)
    refine ⟨group, others, rfl, head, tail, fun s hs ↦ ⟨?_, ?_⟩, fun s hs ↦ ?_⟩
    · rw [List.span_eq_takeWhile_dropWhile]
      have hhead : others.takeWhile s.isFrom = [] ∧ others.dropWhile s.isFrom = others := by
        cases others with
        | nil => simp
        | cons u us => simp [hothers s hs u List.mem_cons_self]
      rw [List.takeWhile_append_of_pos (hgroup s hs), List.dropWhile_append_of_pos (hgroup s hs),
        hhead.1, hhead.2, List.append_nil]
    · rw [List.filter_append, List.filter_eq_self.mpr (hgroup s hs),
        List.filter_eq_nil_iff.mpr fun u hu ↦ by simp [hothers s hs u hu], List.append_nil]
    · rw [List.filter_append, List.filter_eq_nil_iff.mpr, List.nil_append]
      intro u hu
      rw [isFrom_mark (head u hu)]
      intro heq
      exact (List.nodup_cons.mp hnodup).1 (mem_offsetsOf.mpr ⟨s, hs, heq.symm⟩)

/-- Thread by thread, what comes from it in one way and then what comes in the other. -/
theorem sideBySide_eq {scope : Scope} {least more : Nat} {ts first second : List Thread}
    (hnodup : (offsetsOf ts).Nodup)
    (hfirst : Follows (Leads scope least) (ts.map Thread.mark) first)
    (hsecond : Follows (Leads scope more) (ts.map Thread.mark) second) :
    sideBySide (ts.map Thread.mark) first second =
      ts.flatMap fun t ↦ first.filter t.mark.isFrom ++ second.filter t.mark.isFrom := by
  induction ts generalizing first second with
  | nil => rfl
  | cons t ts ih =>
    obtain ⟨a, first', rfl, -, htail, hspan, hfilter⟩ := span_isFrom hnodup hfirst
    obtain ⟨b, second', rfl, -, htail', hspan', hfilter'⟩ := span_isFrom hnodup hsecond
    have hmark : t.mark.offset = t.offset := rfl
    rw [List.map_cons, sideBySide, (hspan t.mark hmark).1, (hspan' t.mark hmark).1,
      List.flatMap_cons, (hspan t.mark hmark).2, (hspan' t.mark hmark).2]
    refine congrArg (a ++ b ++ ·) ((ih (List.nodup_cons.mp hnodup).2 htail htail').trans ?_)
    exact List.flatMap_congr fun s hs ↦
      congrArg₂ (· ++ ·) (hfilter s hs).symm (hfilter' s hs).symm

/-! ### Steps on lists of threads -/

/-- A step whose results are grouped by their sources and at offsets of their own. -/
structure Forward (scope : Scope) (least : Nat) (f : List Thread → List Thread) : Prop where
  follows : ∀ ts, (offsetsOf ts).Nodup → Follows (Leads scope least) ts (f ts)
  nodup : ∀ ts, (offsetsOf ts).Nodup → (offsetsOf (f ts)).Nodup

namespace Forward

variable {scope : Scope} {least more : Nat} {f g : List Thread → List Thread}

theorem id (scope : Scope) : Forward scope 0 id :=
  ⟨fun ts _ ↦ .refl (Leads.refl scope) ts, fun _ h ↦ h⟩

theorem comp (hf : Forward scope least f) (hg : Forward scope more g) :
    Forward scope (least + more) fun ts ↦ g (f ts) where
  follows ts h :=
    (hf.follows ts h).trans (fun _ _ _ hfirst hsecond ↦ hfirst.trans hsecond) (hg.follows _ (hf.nodup ts h))
  nodup ts h := hg.nodup _ (hf.nodup ts h)

theorem weaken (hf : Forward scope least f) (hle : more ≤ least) : Forward scope more f where
  follows ts h := (hf.follows ts h).mono fun _ _ hlead ↦ hlead.weaken hle
  nodup := hf.nodup

theorem lead (hf : Forward scope least f) {t u : Thread} (hu : u ∈ f [t]) :
    Leads scope least t u := by
  obtain ⟨s, hs, hlead⟩ := (hf.follows [t] (List.nodup_singleton _)).source hu
  exact List.mem_singleton.mp hs ▸ hlead

end Forward

/-- What comes from a marked thread among the results of a step. -/
theorem Forward.lead_of_isFrom {scope : Scope} {least : Nat} {f : List Thread → List Thread}
    (hf : Forward scope least f) {ts : List Thread} (hnodup : (offsetsOf ts).Nodup) {t u : Thread}
    (ht : t ∈ ts) (hu : u ∈ (f (ts.map Thread.mark)).filter t.mark.isFrom) :
    Leads scope least t.mark u := by
  obtain ⟨hu, hfrom⟩ := List.mem_filter.mp hu
  have hmarked : (offsetsOf (ts.map Thread.mark)).Nodup := by
    rwa [offsetsOf_mark]
  obtain ⟨m, hm, hlead⟩ := (hf.follows _ hmarked).source hu
  obtain ⟨t', ht', rfl⟩ := List.mem_map.mp hm
  rwa [eq_of_offset_eq hnodup ht ht' ((isFrom_mark hlead).mp hfrom).symm]

theorem Leads.unmark {scope : Scope} {least : Nat} {t u : Thread}
    (h : Leads scope least t.mark u) : Leads scope least t u.unmark :=
  h.imp fun _ hs ↦ ⟨hs.1.unmark, hs.2⟩

theorem Leads.pass {scope : Scope} {place : Place} {t u : Thread}
    (hplaces : ∀ path, place = some path → scope.places path) (h : t.pass? place = some u) :
    Leads scope 0 t u := by
  cases place with
  | none => cases h; exact .refl scope t
  | some path => exact ⟨[], .pass (hplaces path rfl) h, Nat.le_refl 0⟩

theorem offset_of_pass {place : Place} {t u : Thread} (h : t.pass? place = some u) :
    u.offset = t.offset := by
  cases place with
  | none => cases h; rfl
  | some path =>
    rw [Thread.pass?] at h
    split at h <;> cases h
    rfl

theorem rest_of_pass {place : Place} {t u : Thread} (h : t.pass? place = some u) :
    u.rest = t.rest := by
  cases place with
  | none => cases h; rfl
  | some path =>
    rw [Thread.pass?] at h
    split at h <;> cases h
    rfl

theorem forward_pass {scope : Scope} {place : Place}
    (hplaces : ∀ path, place = some path → scope.places path) :
    Forward scope 0 fun ts ↦ ts.filterMap (·.pass? place) where
  follows ts _ := .filterMap (fun _ _ h ↦ .pass hplaces h) ts
  nodup ts h := by
    have hsub : (offsetsOf (ts.filterMap (·.pass? place))).Sublist (offsetsOf ts) := by
      induction ts with
      | nil => exact List.Sublist.refl _
      | cons t ts ih =>
        rw [List.filterMap_cons]
        split
        · exact (ih (List.nodup_cons.mp h).2).cons _
        · next u hu =>
          rw [offsetsOf_cons, offset_of_pass hu]
          exact (ih (List.nodup_cons.mp h).2).cons_cons _
    exact h.sublist hsub

theorem prefer_eq {scope : Scope} {least more : Nat} {first second : List Thread → List Thread}
    (hfirst : Forward scope least first) (hsecond : Forward scope more second) {ts : List Thread}
    (hnodup : (offsetsOf ts).Nodup) :
    prefer ts first second = distinct (ts.flatMap fun t ↦
      ((first (ts.map Thread.mark)).filter t.mark.isFrom ++
        (second (ts.map Thread.mark)).filter t.mark.isFrom).map Thread.unmark) := by
  have hmarked : (offsetsOf (ts.map Thread.mark)).Nodup := by
    rwa [offsetsOf_mark]
  rw [prefer, sideBySide_eq hnodup (hfirst.follows _ hmarked) (hsecond.follows _ hmarked),
    List.map_flatMap]

theorem forward_prefer {scope : Scope} {least : Nat} {first second : List Thread → List Thread}
    (hfirst : Forward scope least first) (hsecond : Forward scope least second) :
    Forward scope least fun ts ↦ prefer ts first second where
  follows ts h := by
    rw [prefer_eq hfirst hsecond h]
    refine (Follows.flatMap fun t ht u hu ↦ ?_).sublist (distinct_sublist _)
    obtain ⟨v, hv, rfl⟩ := List.mem_map.mp hu
    refine Leads.unmark ?_
    exact (List.mem_append.mp hv).elim (hfirst.lead_of_isFrom h ht) (hsecond.lead_of_isFrom h ht)
  nodup _ _ := nodup_distinct _

/-! ### Repetitions -/

/-- From one state of a repetition to the next, threads are only appended, each in the relation to a given thread. -/
def Turning.Adds (R : Thread → Thread → Prop) (t : Thread) (before after : Turning) : Prop :=
  (∃ added, after.front.threads = before.front.threads ++ added ∧ ∀ u ∈ added, R t u) ∧
    ((offsetsOf before.front.threads).Nodup → (offsetsOf after.front.threads).Nodup)

namespace Turning.Adds

variable {R S : Thread → Thread → Prop} {t u : Thread} {first second third : Turning}

theorem refl (R : Thread → Thread → Prop) (t : Thread) (turning : Turning) :
    Adds R t turning turning :=
  ⟨⟨[], by simp, by simp⟩, fun h ↦ h⟩

theorem trans (h : Adds R t first second) (h' : Adds R t second third) :
    Adds R t first third := by
  obtain ⟨⟨a, ha, hR⟩, hnodup⟩ := h
  obtain ⟨⟨b, hb, hR'⟩, hnodup'⟩ := h'
  exact ⟨⟨a ++ b, by rw [hb, ha, List.append_assoc],
    fun v hv ↦ (List.mem_append.mp hv).elim (hR v) (hR' v)⟩, hnodup' ∘ hnodup⟩

theorem mono (hRS : ∀ v, R u v → S t v) (h : Adds R u first second) : Adds S t first second := by
  obtain ⟨⟨a, ha, hR⟩, hnodup⟩ := h
  exact ⟨⟨a, ha, fun v hv ↦ hRS v (hR v hv)⟩, hnodup⟩

theorem leave (hR : R t u) (turning : Turning) : Adds R t turning (turning.leave u) := by
  refine ⟨?_, Front.nodup_add⟩
  by_cases h : u.offset ∈ offsetsOf turning.front.threads
  · exact ⟨[], by simp [Turning.leave, Front.threads_add_of_mem h], by simp⟩
  · exact ⟨[u], Front.threads_add_of_notMem h, by simpa using hR⟩

/-- Threads that are taken one after the other add groups in their order. -/
theorem foldl {take : Turning → Thread → Turning} {ts : List Thread}
    (htake : ∀ turning, ∀ t ∈ ts, Adds R t turning (take turning t)) (turning : Turning) :
    (∃ added, (ts.foldl take turning).front.threads = turning.front.threads ++ added ∧
        Follows R ts added) ∧
      ((offsetsOf turning.front.threads).Nodup →
        (offsetsOf (ts.foldl take turning).front.threads).Nodup) := by
  induction ts generalizing turning with
  | nil => exact ⟨⟨[], by simp, .nil⟩, fun h ↦ h⟩
  | cons t ts ih =>
    obtain ⟨⟨a, ha, hR⟩, hnodup⟩ := htake turning t List.mem_cons_self
    obtain ⟨⟨b, hb, hfollows⟩, hnodup'⟩ :=
      ih (fun turning s hs ↦ htake turning s (List.mem_cons_of_mem t hs)) (take turning t)
    exact ⟨⟨a ++ b, by rw [List.foldl_cons, hb, ha, List.append_assoc], .cons hR hfollows⟩,
      hnodup' ∘ hnodup⟩

/-- Threads that all stand in the relation to one thread add to it together. -/
theorem foldl_of_forall {take : Turning → Thread → Turning} {ts : List Thread}
    (htake : ∀ turning, ∀ s ∈ ts, Adds R t turning (take turning s)) (turning : Turning) :
    Adds R t turning (ts.foldl take turning) := by
  induction ts generalizing turning with
  | nil => exact refl R t turning
  | cons s ts ih =>
    exact (htake turning s List.mem_cons_self).trans
      (ih (fun turning s' hs' ↦ htake turning s' (List.mem_cons_of_mem s hs')) _)

end Turning.Adds

section Repetition

variable {scope : Scope} {least : Nat} {step : Thread → List Thread} {place first : Place}

/-- A relation that holds of a thread and itself, and that goes on over a place and over an iteration in front. -/
structure Carries (step : Thread → List Thread) (place : Place) (R : Thread → Thread → Prop) : Prop where
  refl : ∀ t, R t t
  pass : ∀ t s v, t.pass? place = some s → R s v → R t v
  step : ∀ t, ∀ u ∈ step t, ∀ v, R u v → R t v

theorem carries_leads (hstep : ∀ t, ∀ u ∈ step t, Leads scope 0 t u)
    (hplaces : ∀ path, place = some path → scope.places path) : Carries step place (Leads scope 0) where
  refl := .refl scope
  pass _ _ _ hs hv := (Leads.pass hplaces hs).append hv
  step t u hu _ hv := (hstep t u hu).append hv

section Carries

variable {R S : Thread → Thread → Prop}

theorem Carries.adds_turn (h : Carries step place R) (greedy : Bool) (bound : Nat) (turning : Turning) (t : Thread) :
    turning.Adds R t (turn step greedy place bound turning t) := by
  induction bound generalizing turning t with
  | zero => exact .leave (h.refl t) turning
  | succ bound ih =>
    rw [turn]
    split
    · exact .refl _ t turning
    next s hs =>
    -- Iterations that begin here add only what comes from here.
    have hagain : ∀ turning : Turning, turning.Adds R s
        (if turning.begun.contains s.offset then turning
          else (step s).foldl (turn step greedy place bound) (turning.begin s)) := by
      intro turning
      split
      · exact .refl _ s turning
      · exact .foldl_of_forall (fun turning u hu ↦ (ih turning u).mono (h.step s u hu)) (turning.begin s)
    refine Turning.Adds.mono (u := s) (fun v hv ↦ h.pass t s v hs hv) ?_
    cases greedy with
    | true => exact (hagain turning).trans (.leave (h.refl s) _)
    | false => exact Turning.Adds.trans (.leave (h.refl s) turning) (hagain _)

theorem Carries.adds_iterate (h : Carries step place R) (hstep : ∀ t, ∀ u ∈ step t, ∀ v, R u v → S t v)
    (greedy : Bool) (turning : Turning) (t : Thread) : turning.Adds S t (iterate step greedy place turning t) := by
  rw [iterate]
  split
  · exact .refl _ t turning
  · exact .foldl_of_forall (fun turning u hu ↦ (h.adds_turn greedy _ turning u).mono (hstep t u hu)) (turning.begin t)

theorem Carries.adds_iterateAny (h : Carries step place R) (hfirst : Carries step first R) (greedy : Bool)
    (turning : Turning) (t : Thread) : turning.Adds R t (iterateAny step greedy first place turning t) := by
  rw [iterateAny]
  split
  · exact .refl _ t turning
  next s hs =>
  refine Turning.Adds.mono (u := s) (fun v hv ↦ hfirst.pass t s v hs hv) ?_
  cases greedy with
  | true => exact (h.adds_iterate h.step true turning s).trans (.leave (h.refl s) _)
  | false => exact Turning.Adds.trans (.leave (h.refl s) turning) (h.adds_iterate h.step false _ s)

end Carries

theorem adds_turn (hstep : ∀ t, ∀ u ∈ step t, Leads scope 0 t u)
    (hplaces : ∀ path, place = some path → scope.places path) (greedy : Bool) (bound : Nat)
    (turning : Turning) (t : Thread) :
    turning.Adds (Leads scope 0) t (turn step greedy place bound turning t) :=
  (carries_leads hstep hplaces).adds_turn greedy bound turning t

theorem adds_iterate (hstep : ∀ t, ∀ u ∈ step t, Leads scope least t u)
    (hplaces : ∀ path, place = some path → scope.places path) (greedy : Bool) (turning : Turning)
    (t : Thread) : turning.Adds (Leads scope least) t (iterate step greedy place turning t) :=
  (carries_leads (fun t u hu ↦ (hstep t u hu).weaken (Nat.zero_le _)) hplaces).adds_iterate
    (fun t u hu _ hv ↦ (hstep t u hu).append hv) greedy turning t

theorem adds_iterateAny (hstep : ∀ t, ∀ u ∈ step t, Leads scope least t u)
    (hfirst : ∀ path, first = some path → scope.places path)
    (hplaces : ∀ path, place = some path → scope.places path) (greedy : Bool) (turning : Turning)
    (t : Thread) :
    turning.Adds (Leads scope 0) t (iterateAny step greedy first place turning t) :=
  have hleads (t u : Thread) (hu : u ∈ step t) : Leads scope 0 t u := (hstep t u hu).weaken (Nat.zero_le _)
  (carries_leads hleads hplaces).adds_iterateAny (carries_leads hleads hfirst) greedy turning t

theorem forward_behind {take : Turning → Thread → Turning}
    (htake : ∀ (turning : Turning) (t : Thread),
      turning.Adds (Leads scope least) t (take turning t)) :
    Forward scope least (behind place take) where
  follows ts h := by
    cases place with
    | none =>
      obtain ⟨⟨added, hadded, hfollows⟩, -⟩ :=
        Turning.Adds.foldl (fun turning t (_ : t ∈ ts) ↦ htake turning t) .start
      rwa [behind, hadded]
    | some path =>
      refine (Follows.flatMap fun t _ u hu ↦ ?_).sublist (distinct_sublist _)
      obtain ⟨⟨added, hadded, hlead⟩, -⟩ := htake .start t
      exact hlead u (by rw [hadded] at hu; exact hu)
  nodup ts h := by
    cases place with
    | none =>
      exact (Turning.Adds.foldl (fun turning t (_ : t ∈ ts) ↦ htake turning t) .start).2
        List.nodup_nil
    | some path => exact nodup_distinct _

theorem forward_inTurn {steps : List (List Thread → List Thread)}
    (hsteps : ∀ f ∈ steps, Forward scope least f) :
    Forward scope (least * steps.length) (inTurn steps) := by
  induction steps with
  | nil => exact .id scope
  | cons f steps ih =>
    have hrest := ih fun g hg ↦ hsteps g (List.mem_cons_of_mem f hg)
    have hcomp := (hsteps f List.mem_cons_self).comp hrest
    rw [List.length_cons, Nat.mul_succ, Nat.add_comm]
    exact hcomp

theorem upTo_succ (step : Nat → List Thread → List Thread) (greedy : Bool) (place : Nat → Place)
    (count : Nat) (threads : List Thread) :
    upTo step greedy place (count + 1) threads =
      let passing := threads.filterMap (·.pass? (place count))
      let again (threads : List Thread) := upTo step greedy place count (step count threads)
      if greedy then prefer passing again id else prefer passing id again := by
  cases threads with
  | nil => cases greedy <;> rfl
  | cons t ts => rfl

theorem forward_upTo {step : Nat → List Thread → List Thread}
    (hstep : ∀ i, Forward scope 0 (step i)) {places : Nat → Place}
    (hplaces : ∀ i path, places i = some path → scope.places path) (greedy : Bool) (count : Nat) :
    Forward scope 0 (upTo step greedy places count) := by
  induction count with
  | zero => exact ⟨(Forward.id scope).follows, (Forward.id scope).nodup⟩
  | succ count ih =>
    have hpass := forward_pass (hplaces count)
    have hagain := (hstep count).comp ih
    have hgreedy := hpass.comp (forward_prefer hagain (.id scope))
    have hlazy := hpass.comp (forward_prefer (.id scope) hagain)
    have hfunext : upTo step greedy places (count + 1) = fun threads ↦
        if greedy then prefer (threads.filterMap (·.pass? (places count)))
          (fun threads ↦ upTo step greedy places count (step count threads)) id
        else prefer (threads.filterMap (·.pass? (places count))) id
          (fun threads ↦ upTo step greedy places count (step count threads)) :=
      funext fun threads ↦ upTo_succ step greedy places count threads
    rw [hfunext]
    cases greedy with
    | true => exact hgreedy
    | false => exact hlazy

end Repetition

/-! ### Every expression -/

/-- A scope that allows what an expression at a place gains. -/
structure Scope.Covers (scope : Scope) (place : Place) (r : Regex) : Prop where
  names : ∀ n ∈ r.groupNames, scope.names n
  chars : ∀ c, r.mentions c = true → scope.chars c
  places : ∀ path p, place = some path → path <:+ p → scope.places p

namespace Scope.Covers

variable {scope : Scope} {place : Place} {r a : Regex}

theorem sub (h : scope.Covers place r) (hnames : ∀ n ∈ a.groupNames, n ∈ r.groupNames)
    (hchars : ∀ c, a.mentions c = true → r.mentions c = true) : scope.Covers place a :=
  ⟨fun n hn ↦ h.names n (hnames n hn), fun c hc ↦ h.chars c (hchars c hc), h.places⟩

theorem part (h : scope.Covers place r) (kind number : Nat) :
    scope.Covers (place.part kind number) r where
  names := h.names
  chars := h.chars
  places path p hpath hp := by
    obtain ⟨outer, houter, rfl⟩ := Option.map_eq_some_iff.mp hpath
    exact h.places outer p houter (List.IsSuffix.trans ⟨[number, kind], rfl⟩ hp)

theorem anywhere (h : scope.Covers place r) (elsewhere : Place) : scope.anywhere.Covers elsewhere r :=
  ⟨h.names, h.chars, fun _ _ _ _ ↦ trivial⟩

theorem here (h : scope.Covers place r) (path : List Nat) (hpath : place = some path) :
    scope.places path :=
  h.places path path hpath List.suffix_rfl

end Scope.Covers

theorem inTurn_map_range_length {α : Type} (f : Nat → α) (n : Nat) :
    ((List.range n).map f).length = n := by
  simp

theorem forward_advance {scope : Scope} {chars : CharSet}
    (hchars : ∀ c, chars.contains c = true → scope.chars c) :
    Forward scope 1 fun ts ↦ ts.filterMap (·.advance? chars) where
  follows ts _ := .filterMap (fun _ _ h ↦
    (Thread.From.advance hchars h).elim fun c hc ↦ ⟨[c], hc, Nat.le_refl 1⟩) ts
  nodup ts h := by
    have hsub : (offsetsOf (ts.filterMap (·.advance? chars))).Sublist
        ((offsetsOf ts).map (· + 1)) := by
      induction ts with
      | nil => exact List.Sublist.refl _
      | cons t ts ih =>
        have ih := ih (List.nodup_cons.mp h).2
        rw [List.filterMap_cons]
        split
        · exact ih.cons _
        · next u hu =>
          obtain ⟨c, hc⟩ := Thread.From.advance hchars hu
          rw [offsetsOf_cons, offsetsOf_cons, List.map_cons, hc.offset]
          exact ih.cons_cons _
    exact (h.map fun _ _ heq ↦ Nat.succ.inj heq).sublist hsub

theorem forward_group {scope : Scope} {least : Nat} {f : List Thread → List Thread} {name : String}
    (hname : scope.names name) (hf : Forward scope least f) :
    Forward scope least fun ts ↦
      (f (ts.map Thread.mark)).map fun t ↦ (t.capture name).unmark where
  follows ts h := by
    refine Follows.map (fun t u hlead ↦ ?_) (hf.follows (ts.map Thread.mark) (by simpa using h))
    exact hlead.imp fun s hs ↦ ⟨hs.1.capture hname, hs.2⟩
  nodup ts h := by
    have hoffset (t : Thread) : ((t.capture name).unmark).offset = t.offset := by
      rw [Thread.From.unmark_capture]
      rfl
    rw [offsetsOf_map_of_eq hoffset]
    exact hf.nodup _ (by simpa using h)

theorem forward_filter {scope : Scope} (p : Thread → Bool) : Forward scope 0 (List.filter p) where
  follows ts _ := (Follows.refl (Leads.refl scope) ts).sublist List.filter_sublist
  nodup _ h := h.sublist (List.filter_sublist.map _)

/-- Forgetting the places of an outermost repetition bounds them again. -/
theorem forward_forget {scope : Scope} {least : Nat} {f : List Thread → List Thread}
    (hf : Forward scope.anywhere least f) :
    Forward scope least fun ts ↦ (f ts).map (Thread.forgetIn none) where
  follows ts h := by
    have hsame : Follows (Leads scope.anywhere least) (ts.map fun t ↦ t) (f ts) := by
      simpa using hf.follows ts h
    exact hsame.map fun _ _ hlead ↦ hlead.imp fun s hs ↦ ⟨hs.1.forget, hs.2⟩
  nodup ts h := by
    rw [offsetsOf_map_of_eq (f := Thread.forgetIn none) fun _ ↦ rfl]
    exact hf.nodup ts h

@[simp] theorem map_forgetIn_some (path : List Nat) (ts : List Thread) :
    ts.map (Thread.forgetIn (some path)) = ts := by
  have hid : Thread.forgetIn (some path) = id := rfl
  rw [hid, List.map_id]

/-- A repetition without an end, where the names of places are in scope. -/
theorem forward_repeat {scope : Scope} {body : Regex} {within : Place}
    (ih : ∀ kind number, Forward scope body.leastLength (run (within.part kind number) body))
    {first next : Place} (hfirst : ∀ path, first = some path → scope.places path)
    (hnext : ∀ path, next = some path → scope.places path) (min : Nat) (greedy : Bool) :
    let required := (List.range (min - 1)).map fun i ↦ run (within.part 0 i) body
    let step (t : Thread) : List Thread := run (within.part 1 0) body [t]
    let take := if min = 0 then iterateAny step greedy first next else iterate step greedy next
    Forward scope (body.leastLength * min) fun ts ↦ behind within take (inTurn required ts) := by
  intro required step take
  have hstep (t : Thread) : ∀ u ∈ step t, Leads scope body.leastLength t u :=
    fun u hu ↦ (ih 1 0).lead hu
  have hrequired : Forward scope (body.leastLength * required.length) (inTurn required) :=
    forward_inTurn fun f hf ↦ by
      obtain ⟨i, -, rfl⟩ := List.mem_map.mp hf
      exact ih 0 i
  rw [inTurn_map_range_length] at hrequired
  by_cases hmin : min = 0
  · have htake : take = iterateAny step greedy first next := if_pos hmin
    rw [htake]
    exact (hrequired.comp (forward_behind fun turning t ↦
      adds_iterateAny hstep hfirst hnext greedy turning t)).weaken (by simp [hmin])
  · have htake : take = iterate step greedy next := if_neg hmin
    rw [htake]
    refine (hrequired.comp (forward_behind fun turning t ↦
      adds_iterate hstep hnext greedy turning t)).weaken ?_
    obtain ⟨n, rfl⟩ := Nat.exists_eq_succ_of_ne_zero hmin
    exact Nat.le_refl _

/-- What an expression reaches is grouped by the threads in front of it, at offsets of its own. -/
theorem run_forward (scope : Scope) (r : Regex) (place : Place) (h : scope.Covers place r) :
    Forward scope r.leastLength (run place r) := by
  induction r generalizing place scope with
  | empty => exact .id scope
  | set chars => exact forward_advance h.chars
  | look condition => exact forward_filter condition.holds
  | seq a b iha ihb =>
    have ha := iha scope _ ((h.part 0 0).sub (by simp +contextual [groupNames])
      (by simp +contextual [mentions]))
    have hb := ihb scope _ ((h.part 0 1).sub (by simp +contextual [groupNames])
      (by simp +contextual [mentions]))
    exact ha.comp hb
  | alt a b iha ihb =>
    have ha := iha scope _ ((h.part 0 0).sub (by simp +contextual [groupNames])
      (by simp +contextual [mentions]))
    have hb := ihb scope _ ((h.part 0 1).sub (by simp +contextual [groupNames])
      (by simp +contextual [mentions]))
    have hprefer := (forward_pass h.here).comp (forward_prefer
      (ha.weaken (Nat.min_le_left _ _)) (hb.weaken (Nat.min_le_right _ _)))
    rwa [Nat.zero_add] at hprefer
  | «repeat» min max greedy body ih =>
    have hbody {scope : Scope} (place : Place)
        (hcovers : scope.Covers place (.repeat min max greedy body)) : scope.Covers place body :=
      hcovers.sub (fun _ hn ↦ hn) (fun _ hc ↦ hc)
    cases max with
    | some max =>
      have hrequired : Forward scope (body.leastLength * _)
          (inTurn ((List.range min).map fun i ↦ run (place.part 0 i) body)) :=
        forward_inTurn fun f hf ↦ by
          obtain ⟨i, -, rfl⟩ := List.mem_map.mp hf
          exact ih scope _ (hbody _ (h.part 0 i))
      rw [inTurn_map_range_length] at hrequired
      exact hrequired.comp (forward_upTo
        (fun i ↦ (ih scope _ (hbody _ (h.part 1 i))).weaken (Nat.zero_le _))
        (fun i ↦ (h.part 2 i).here) greedy (max - min))
    | none =>
      cases place with
      | none =>
        exact forward_forget (forward_repeat
          (fun kind number ↦ ih scope.anywhere _ (hbody _ (h.anywhere _)))
          (fun _ _ ↦ trivial) (fun _ _ ↦ trivial) min greedy)
      | some path =>
        have hfirst : ∀ p, (if body.leastLength = 0 then Place.part (some path) 2 1
            else Place.part (some path) 2 0) = some p → scope.places p := by
          intro p hp
          split at hp
          · exact (h.part 2 1).here p hp
          · exact (h.part 2 0).here p hp
        have hloop := forward_repeat
          (fun kind number ↦ ih scope _ (hbody _ (h.part kind number))) hfirst (h.part 2 0).here
          min greedy
        have hsame (ts : List Thread) := map_forgetIn_some path ts
        refine ⟨fun ts hts ↦ ?_, fun ts hts ↦ ?_⟩
        · simpa [run, hsame, Regex.leastLength] using hloop.follows ts hts
        · simpa [run, hsame] using hloop.nodup ts hts
  | group name body ih =>
    cases name with
    | none => exact ih scope place (h.sub (fun _ hn ↦ hn) (fun _ hc ↦ hc))
    | some name =>
      have hbody := ih scope place (h.sub (fun _ hn ↦ List.mem_cons_of_mem _ hn) (fun _ hc ↦ hc))
      exact forward_group (h.names name List.mem_cons_self) hbody

end PathBinding.Regex
