import PathBinding.Proofs.Regex.Descent

/-!
Two runs of one expression on texts that share a stretch.

A `Frame` says what the texts have in common: a stretch up to an offset, behind which each goes on in its own way. Two
threads are alike if they stand at the same place of the stretch and agree on what the frame asks for, and two lists are
aligned if they hold like threads in the same order once those beyond the stretch are left out. The parts that
expressions are run with keep lists aligned (`Frame.Respects`). Conditions on positions look one character ahead, so they
are excluded where the texts go on with different characters behind the stretch.
-/

set_option autoImplicit false
set_option relaxedAutoImplicit false

namespace PathBinding.Regex

/-- Whether an expression has no conditions on positions. -/
def lookFree : Regex → Bool
  | .empty | .set _ => true
  | .look _ => false
  | .seq a b | .alt a b => a.lookFree && b.lookFree
  | .repeat _ _ _ body | .group _ body => body.lookFree

/-- No bound on what threads gain. -/
def Scope.all : Scope :=
  ⟨fun _ ↦ True, fun _ ↦ True, fun _ ↦ True⟩

theorem Scope.all_covers (place : Place) (r : Regex) : Scope.all.Covers place r :=
  ⟨fun _ _ ↦ trivial, fun _ _ ↦ trivial, fun _ _ _ _ ↦ trivial⟩

theorem forward_run (place : Place) (r : Regex) : Forward .all 0 (run place r) :=
  (run_forward .all r place (Scope.all_covers place r)).weaken (Nat.zero_le _)

/-! ### Like threads -/

/-- What two texts share: a stretch that ends at offset `last` of the first text and at `last + shift` of the second.
`looks` asks that conditions on positions hold alike, for which the texts go on with the same character, `named` that the captured texts agree, and `places` says which
places must have been passed alike. -/
structure Frame where
  tail : List Char
  tail' : List Char
  last : Nat
  shift : Nat
  looks : Prop
  named : Prop
  places : List Nat → Prop
  head_eq : looks → tail.head? = tail'.head?

/-- Captures of one name and one text. -/
def Capture.Same (k k' : Capture) : Prop :=
  k.name = k'.name ∧ k.text = k'.text

namespace Frame

/-- Positions, each an offset with the text behind it, that are the same place of the stretch. -/
def Same (F : Frame) (p p' : Nat × List Char) : Prop :=
  ∃ s, p.2 = s ++ F.tail ∧ p'.2 = s ++ F.tail' ∧ p.1 + s.length = F.last ∧ p'.1 = p.1 + F.shift

/-- Threads at the same place of the stretch, whose `n` innermost parts begin at the same places. -/
structure Alike (F : Frame) (n : Nat) (t t' : Thread) : Prop where
  position : F.Same (t.offset, t.rest) (t'.offset, t'.rest)
  before : F.looks → t.before = t'.before
  captures : F.named → List.Forall₂ Capture.Same t.captures t'.captures
  begun : ∃ b b' outer outer', t.begun = b ++ outer ∧ t'.begun = b' ++ outer' ∧
    List.Forall₂ F.Same b b' ∧ b.length = n
  passed : ∀ p, F.places p → (p ∈ t.passed ↔ p ∈ t'.passed)

namespace Alike

variable {F : Frame} {n : Nat} {t t' u u' : Thread}

theorem offset (h : F.Alike n t t') : t'.offset = t.offset + F.shift :=
  h.position.elim fun _ hs ↦ hs.2.2.2

theorem offset_le (h : F.Alike n t t') : t.offset ≤ F.last := by
  obtain ⟨s, -, -, hlast, -⟩ := h.position
  exact hlast ▸ Nat.le_add_right _ _

theorem mark (h : F.Alike n t t') : F.Alike (n + 1) t.mark t'.mark := by
  obtain ⟨b, b', outer, outer', hb, hb', hsame, hlength⟩ := h.begun
  refine { h with begun := ⟨(t.offset, t.rest) :: b, (t'.offset, t'.rest) :: b', outer, outer', ?_, ?_,
    .cons h.position hsame, by simp [hlength]⟩ }
  · simp [Thread.mark, hb]
  · simp [Thread.mark, hb']

theorem unmark (h : F.Alike (n + 1) t t') : F.Alike n t.unmark t'.unmark := by
  obtain ⟨b, b', outer, outer', hb, hb', hsame, hlength⟩ := h.begun
  cases hsame with
  | nil => cases hlength
  | @cons p p' b b' _ hrest =>
    refine { h with begun := ⟨b, b', outer, outer', ?_, ?_, hrest, Nat.succ.inj hlength⟩ }
    · simp [Thread.unmark, hb]
    · simp [Thread.unmark, hb']

/-- Parts that begin alike are told apart alike from others. -/
theorem isFrom (h : F.Alike n t t') (hu : F.Alike (n + 1) u u') :
    t.mark.isFrom u = t'.mark.isFrom u' := by
  obtain ⟨b, b', outer, outer', hb, hb', hsame, hlength⟩ := hu.begun
  cases hsame with
  | nil => cases hlength
  | @cons p p' b b' hhead _ =>
    obtain ⟨-, -, -, -, hoffset⟩ := hhead
    have hp : t.mark.isFrom u = (p.1 == t.offset) := by
      rw [Thread.isFrom, hb]
      rfl
    have hp' : t'.mark.isFrom u' = (p'.1 == t'.offset) := by
      rw [Thread.isFrom, hb']
      rfl
    rw [hp, hp', hoffset, h.offset, Bool.eq_iff_iff, beq_iff_eq, beq_iff_eq, Nat.add_right_cancel_iff]

theorem capture (name : String) (h : F.Alike (n + 1) t t') :
    F.Alike (n + 1) (t.capture name) (t'.capture name) := by
  obtain ⟨b, b', outer, outer', hb, hb', hsame, hlength⟩ := h.begun
  cases hsame with
  | nil => cases hlength
  | @cons p p' b b' hhead hrest =>
    obtain ⟨s, hs, hs', hlast, hshift⟩ := hhead
    have hcapture : t.capture name =
        { t with captures := ⟨name, p.2, t.offset - p.1⟩ :: t.captures } := by
      simp [Thread.capture, hb]
    have hcapture' : t'.capture name =
        { t' with captures := ⟨name, p'.2, t'.offset - p'.1⟩ :: t'.captures } := by
      simp [Thread.capture, hb']
    rw [hcapture, hcapture']
    refine { h with
      captures := fun hnamed ↦ .cons ⟨rfl, ?_⟩ (h.captures hnamed)
      begun := h.begun }
    -- The captured text lies in the stretch.
    have hle : t.offset - p.1 ≤ s.length := by
      have := h.offset_le
      omega
    have hsub : t'.offset - p'.1 = t.offset - p.1 := by
      rw [hshift, h.offset, Nat.add_sub_add_right]
    rw [Capture.text, Capture.text, hs, hs', hsub, List.take_append_of_le_length hle,
      List.take_append_of_le_length hle]

theorem holds (h : F.Alike n t t') (hlooks : F.looks) (condition : Look) :
    condition.holds t = condition.holds t' := by
  obtain ⟨s, hs, hs', -, -⟩ := h.position
  have hhead : t.rest.head? = t'.rest.head? := by
    rw [show t.rest = s ++ F.tail from hs, show t'.rest = s ++ F.tail' from hs', List.head?_append, List.head?_append,
      F.head_eq hlooks]
  have hempty : t.rest.isEmpty = t'.rest.isEmpty := by
    rw [Bool.eq_iff_iff, List.isEmpty_iff, List.isEmpty_iff, ← List.head?_eq_none_iff, hhead, List.head?_eq_none_iff]
  unfold Look.holds
  rw [hhead, hempty, h.before hlooks]

theorem forgetIn (h : F.Alike n t t') (place : Place) :
    F.Alike n (t.forgetIn place) (t'.forgetIn place) := by
  cases place with
  | none => exact { h with passed := fun _ _ ↦ Iff.rfl }
  | some path => exact h

/-- Like threads pass a place alike. -/
theorem pass {place : Place} (h : F.Alike n t t')
    (hplaces : ∀ path, place = some path → F.places path) :
    Option.Rel (F.Alike n) (t.pass? place) (t'.pass? place) := by
  cases place with
  | none => exact .some h
  | some path =>
    have hpath := h.passed path (hplaces path rfl)
    rw [Thread.pass?, Thread.pass?]
    by_cases hin : path ∈ t.passed
    · rw [if_pos (by simpa using hin), if_pos (by simpa using hpath.mp hin)]
      exact .none
    · rw [if_neg (by simpa using hin), if_neg (by simpa using mt hpath.mpr hin)]
      exact .some { h with passed := fun p hp ↦ by simp [h.passed p hp] }

end Alike

/-! ### Aligned lists -/

/-- Lists of like threads in the same order, apart from threads beyond the stretch. -/
inductive Aligned (F : Frame) (n : Nat) : List Thread → List Thread → Prop
  | nil : Aligned F n [] []
  | beyond {t : Thread} {ts ts' : List Thread} (head : F.last < t.offset) (tail : Aligned F n ts ts') :
    Aligned F n (t :: ts) ts'
  | beyond' {t' : Thread} {ts ts' : List Thread} (head : F.last + F.shift < t'.offset)
    (tail : Aligned F n ts ts') : Aligned F n ts (t' :: ts')
  | cons {t t' : Thread} {ts ts' : List Thread} (head : F.Alike n t t') (tail : Aligned F n ts ts') :
    Aligned F n (t :: ts) (t' :: ts')

namespace Aligned

variable {F : Frame} {n m : Nat} {ts ts' us us' : List Thread}

theorem singleton {t t' : Thread} (h : F.Alike n t t') : F.Aligned n [t] [t'] :=
  .cons h .nil

theorem of_beyond (ts : List Thread) (h : ∀ t ∈ ts, F.last < t.offset) : F.Aligned n ts [] := by
  induction ts with
  | nil => exact .nil
  | cons t ts ih =>
    exact .beyond (h t List.mem_cons_self) (ih fun u hu ↦ h u (List.mem_cons_of_mem t hu))

theorem of_beyond' (ts' : List Thread) (h : ∀ t ∈ ts', F.last + F.shift < t.offset) : F.Aligned n [] ts' := by
  induction ts' with
  | nil => exact .nil
  | cons t ts ih =>
    exact .beyond' (h t List.mem_cons_self) (ih fun u hu ↦ h u (List.mem_cons_of_mem t hu))

theorem of_rel {o o' : Option Thread} (h : Option.Rel (F.Alike n) o o') :
    F.Aligned n o.toList o'.toList := by
  cases h with
  | some h => exact .singleton h
  | none => exact .nil

theorem append (h : F.Aligned n ts ts') (h' : F.Aligned n us us') :
    F.Aligned n (ts ++ us) (ts' ++ us') := by
  induction h with
  | nil => exact h'
  | beyond head _ ih => exact .beyond head ih
  | beyond' head _ ih => exact .beyond' head ih
  | cons head _ ih => exact .cons head ih

/-- What like threads lead to is aligned if nothing leads back from beyond the stretch. -/
theorem flatMap {f f' : Thread → List Thread} (h : F.Aligned n ts ts')
    (hf : ∀ t ∈ ts, ∀ t' ∈ ts', F.Alike n t t' → F.Aligned m (f t) (f' t'))
    (hbeyond : ∀ t ∈ ts, ∀ u ∈ f t, t.offset ≤ u.offset)
    (hbeyond' : ∀ t ∈ ts', ∀ u ∈ f' t, t.offset ≤ u.offset) :
    F.Aligned m (ts.flatMap f) (ts'.flatMap f') := by
  induction h with
  | nil => exact .nil
  | @beyond t ts ts' head _ ih =>
    rw [List.flatMap_cons]
    exact append (of_beyond (f t) fun u hu ↦ Nat.lt_of_lt_of_le head (hbeyond t List.mem_cons_self u hu))
      (ih (fun s hs ↦ hf s (List.mem_cons_of_mem t hs))
        (fun s hs ↦ hbeyond s (List.mem_cons_of_mem t hs)) hbeyond')
  | @beyond' t' ts ts' head _ ih =>
    rw [List.flatMap_cons]
    exact append (of_beyond' (f' t') fun u hu ↦ Nat.lt_of_lt_of_le head (hbeyond' t' List.mem_cons_self u hu))
      (ih (fun s hs s' hs' ↦ hf s hs s' (List.mem_cons_of_mem t' hs')) hbeyond
        (fun s hs ↦ hbeyond' s (List.mem_cons_of_mem t' hs)))
  | @cons t t' ts ts' head _ ih =>
    rw [List.flatMap_cons, List.flatMap_cons]
    exact append (hf t List.mem_cons_self t' List.mem_cons_self head)
      (ih (fun s hs s' hs' ↦ hf s (List.mem_cons_of_mem t hs) s' (List.mem_cons_of_mem t' hs'))
        (fun s hs ↦ hbeyond s (List.mem_cons_of_mem t hs))
        (fun s hs ↦ hbeyond' s (List.mem_cons_of_mem t' hs)))

theorem filter {p p' : Thread → Bool} (h : F.Aligned n ts ts')
    (hp : ∀ t t', F.Alike n t t' → p t = p' t') :
    F.Aligned n (ts.filter p) (ts'.filter p') := by
  induction h with
  | nil => exact .nil
  | @beyond t ts ts' head _ ih =>
    rw [List.filter_cons]
    split
    · exact .beyond head ih
    · exact ih
  | @beyond' t' ts ts' head _ ih =>
    rw [List.filter_cons]
    split
    · exact .beyond' head ih
    · exact ih
  | @cons t t' ts ts' head _ ih =>
    rw [List.filter_cons, List.filter_cons, hp t t' head]
    split
    · exact .cons head ih
    · exact ih

theorem map {f f' : Thread → Thread} (h : F.Aligned n ts ts')
    (hf : ∀ t t', F.Alike n t t' → F.Alike m (f t) (f' t'))
    (hoffset : ∀ t, (f t).offset = t.offset) (hoffset' : ∀ t, (f' t).offset = t.offset) :
    F.Aligned m (ts.map f) (ts'.map f') := by
  induction h with
  | nil => exact .nil
  | beyond head _ ih => exact .beyond (by rwa [hoffset]) ih
  | beyond' head _ ih => exact .beyond' (by rwa [hoffset']) ih
  | cons head _ ih => exact .cons (hf _ _ head) ih

theorem filterMap {f f' : Thread → Option Thread} (h : F.Aligned n ts ts')
    (hf : ∀ t t', F.Alike n t t' → F.Aligned n (f t).toList (f' t').toList)
    (hbeyond : ∀ t u, f t = some u → t.offset ≤ u.offset)
    (hbeyond' : ∀ t u, f' t = some u → t.offset ≤ u.offset) :
    F.Aligned n (ts.filterMap f) (ts'.filterMap f') := by
  have hflat (g : Thread → Option Thread) (us : List Thread) :
      us.filterMap g = us.flatMap fun t ↦ (g t).toList := by
    induction us with
    | nil => rfl
    | cons t us ih =>
      rw [List.flatMap_cons, ← ih, List.filterMap_cons]
      cases g t <;> rfl
  rw [hflat, hflat]
  exact h.flatMap (fun t _ t' _ ↦ hf t t') (fun t _ u hu ↦ hbeyond t u (by simpa using hu))
    (fun t _ u hu ↦ hbeyond' t u (by simpa using hu))

theorem mem_offsetsOf_iff (h : F.Aligned n ts ts') {o : Nat} (ho : o ≤ F.last) :
    o ∈ offsetsOf ts ↔ o + F.shift ∈ offsetsOf ts' := by
  induction h with
  | nil => simp
  | @beyond t ts ts' head _ ih =>
    rw [offsetsOf_cons, List.mem_cons, ih]
    exact or_iff_right (Nat.ne_of_lt (Nat.lt_of_le_of_lt ho head))
  | @beyond' t' ts ts' head _ ih =>
    rw [offsetsOf_cons, List.mem_cons, ih]
    exact (or_iff_right (by omega)).symm
  | @cons t t' ts ts' head _ ih =>
    rw [offsetsOf_cons, offsetsOf_cons, List.mem_cons, List.mem_cons, ih, head.offset,
      Nat.add_right_cancel_iff]

/-- At each offset of the stretch the threads that count are alike. -/
theorem threadAt (h : F.Aligned n ts ts') {o : Nat} (ho : o ≤ F.last) :
    Option.Rel (F.Alike n) (threadAt o ts) (threadAt (o + F.shift) ts') := by
  induction h with
  | nil => exact .none
  | @beyond t ts ts' head _ ih =>
    have hne : (t.offset == o) = false := by simp; omega
    rwa [Regex.threadAt, List.find?_cons, hne]
  | @beyond' t' ts ts' head _ ih =>
    have hne : (t'.offset == o + F.shift) = false := by simp; omega
    rw [Regex.threadAt, Regex.threadAt, List.find?_cons (a := t'), hne]
    exact ih
  | @cons t t' ts ts' head _ ih =>
    rw [Regex.threadAt, Regex.threadAt, List.find?_cons, List.find?_cons]
    have hsame : (t'.offset == o + F.shift) = (t.offset == o) := by
      rw [head.offset, Bool.eq_iff_iff, beq_iff_eq, beq_iff_eq, Nat.add_right_cancel_iff]
    rw [hsame]
    split
    · exact .some head
    · exact ih

end Aligned

/-! ### Fronts -/

section Fronts

variable {F : Frame} {n : Nat} {front front' : Front} {t t' : Thread}

theorem aligned_add (h : F.Aligned n front.threads front'.threads) (ht : F.Alike n t t') :
    F.Aligned n (front.add t).threads (front'.add t').threads := by
  have hmem : t.offset ∈ offsetsOf front.threads ↔ t'.offset ∈ offsetsOf front'.threads := by
    rw [h.mem_offsetsOf_iff ht.offset_le, ht.offset]
  by_cases hin : t.offset ∈ offsetsOf front.threads
  · rwa [Front.threads_add_of_mem hin, Front.threads_add_of_mem (hmem.mp hin)]
  · rw [Front.threads_add_of_notMem hin, Front.threads_add_of_notMem (mt hmem.mpr hin)]
    exact h.append (.singleton ht)

theorem aligned_add_beyond (h : F.Aligned n front.threads front'.threads) (ht : F.last < t.offset) :
    F.Aligned n (front.add t).threads front'.threads := by
  by_cases hin : t.offset ∈ offsetsOf front.threads
  · rwa [Front.threads_add_of_mem hin]
  · rw [Front.threads_add_of_notMem hin]
    simpa using h.append (.of_beyond [t] (by simpa using ht))

theorem aligned_add_beyond' (h : F.Aligned n front.threads front'.threads)
    (ht : F.last + F.shift < t'.offset) : F.Aligned n front.threads (front'.add t').threads := by
  by_cases hin : t'.offset ∈ offsetsOf front'.threads
  · rwa [Front.threads_add_of_mem hin]
  · rw [Front.threads_add_of_notMem hin]
    simpa using h.append (.of_beyond' [t'] (by simpa using ht))

theorem aligned_addAll {ts ts' : List Thread} (hts : F.Aligned n ts ts')
    (h : F.Aligned n front.threads front'.threads) :
    F.Aligned n (front.addAll ts).threads (front'.addAll ts').threads := by
  induction hts generalizing front front' with
  | nil => exact h
  | beyond head _ ih => exact ih (aligned_add_beyond h head)
  | beyond' head _ ih => exact ih (aligned_add_beyond' h head)
  | cons head _ ih => exact ih (aligned_add h head)

theorem Aligned.distinct {ts ts' : List Thread} (h : F.Aligned n ts ts') :
    F.Aligned n (distinct ts) (Regex.distinct ts') :=
  aligned_addAll h .nil

end Fronts

/-! ### Steps on lists -/

/-- A step that keeps lists aligned. -/
structure Respects (F : Frame) (f : List Thread → List Thread) : Prop where
  forward : Forward .all 0 f
  aligned : ∀ {n : Nat} {ts ts' : List Thread}, (offsetsOf ts).Nodup → (offsetsOf ts').Nodup →
    F.Aligned n ts ts' → F.Aligned n (f ts) (f ts')

namespace Respects

variable {F : Frame} {f g : List Thread → List Thread}

theorem id (F : Frame) : F.Respects id :=
  ⟨.id .all, fun _ _ h ↦ h⟩

theorem comp (hf : F.Respects f) (hg : F.Respects g) : F.Respects fun ts ↦ g (f ts) where
  forward := hf.forward.comp hg.forward
  aligned hts hts' h :=
    hg.aligned (hf.forward.nodup _ hts) (hf.forward.nodup _ hts') (hf.aligned hts hts' h)

theorem single (hf : F.Respects f) {n : Nat} {t t' : Thread} (h : F.Alike n t t') :
    F.Aligned n (f [t]) (f [t']) :=
  hf.aligned (List.nodup_singleton _) (List.nodup_singleton _) (.singleton h)

end Respects

section Steps

variable {F : Frame} {f g : List Thread → List Thread} {place : Place}

theorem respects_advance (F : Frame) (chars : CharSet) :
    F.Respects fun ts ↦ ts.filterMap (·.advance? chars) where
  forward := (forward_advance fun _ _ ↦ trivial).weaken (Nat.zero_le 1)
  aligned {n ts ts'} _ _ h := by
    have hadvance {t u : Thread} (hu : t.advance? chars = some u) : ∃ c, t.From .all u [c] :=
      Thread.From.advance (fun _ _ ↦ trivial) hu
    have hbeyond (t u : Thread) (hu : t.advance? chars = some u) : t.offset ≤ u.offset :=
      (hadvance hu).elim fun _ hc ↦ hc.offset_le
    refine h.filterMap (fun t t' ht ↦ ?_) hbeyond hbeyond
    obtain ⟨s, hs, hs', hlast, hshift⟩ := ht.position
    cases s with
    | nil =>
      -- The stretch ends here, so both sides leave it.
      have hend : t.offset = F.last := hlast
      have hleave : ∀ u ∈ (t.advance? chars).toList, F.last < u.offset := fun u hu ↦ by
        obtain ⟨c, hc⟩ := hadvance (Option.mem_toList.mp hu)
        simp [hc.offset, hend]
      have hleave' : ∀ u ∈ (t'.advance? chars).toList, F.last + F.shift < u.offset := fun u hu ↦ by
        obtain ⟨c, hc⟩ := hadvance (Option.mem_toList.mp hu)
        simp [hc.offset, ht.offset, hend]
      have happend := Aligned.append (F := F) (n := n) (.of_beyond _ hleave) (.of_beyond' _ hleave')
      rwa [List.append_nil, List.nil_append] at happend
    | cons c s =>
      have hrest : t.rest = c :: (s ++ F.tail) := hs
      have hrest' : t'.rest = c :: (s ++ F.tail') := hs'
      simp only [Thread.advance?, hrest, hrest']
      by_cases hc : chars.contains c
      · rw [if_pos hc, if_pos hc]
        refine .singleton { ht with
          position := ⟨s, rfl, rfl, ?_, ?_⟩
          before := fun _ ↦ rfl
          passed := fun _ _ ↦ Iff.rfl }
        · rw [← hlast, List.length_cons]
          exact Nat.add_right_comm _ _ _
        · simp only [ht.offset]
          exact Nat.add_right_comm _ _ _
      · rw [if_neg hc, if_neg hc]
        exact .nil

theorem respects_filter (hlooks : F.looks) (condition : Look) :
    F.Respects (List.filter condition.holds) where
  forward := forward_filter condition.holds
  aligned _ _ h := h.filter fun _ _ ht ↦ ht.holds hlooks condition

theorem respects_pass (hplaces : ∀ path, place = some path → F.places path) :
    F.Respects fun ts ↦ ts.filterMap (·.pass? place) where
  forward := forward_pass fun _ _ ↦ trivial
  aligned _ _ h := by
    have hbeyond (t u : Thread) (hu : t.pass? place = some u) : t.offset ≤ u.offset :=
      Nat.le_of_eq (offset_of_pass hu).symm
    exact h.filterMap (fun _ _ ht ↦ .of_rel (ht.pass hplaces)) hbeyond hbeyond

theorem respects_prefer (hf : F.Respects f) (hg : F.Respects g) :
    F.Respects fun ts ↦ prefer ts f g where
  forward := forward_prefer hf.forward hg.forward
  aligned {n ts ts'} hts hts' h := by
    have hmarked : F.Aligned (n + 1) (ts.map Thread.mark) (ts'.map Thread.mark) :=
      h.map (fun _ _ ht ↦ ht.mark) (fun _ ↦ rfl) fun _ ↦ rfl
    have hnodup {us : List Thread} (hus : (offsetsOf us).Nodup) :
        (offsetsOf (us.map Thread.mark)).Nodup := by
      rwa [offsetsOf_mark]
    have hway {way : List Thread → List Thread} (hway : F.Respects way) {t t' : Thread}
        (ht : F.Alike n t t') : F.Aligned (n + 1) ((way (ts.map Thread.mark)).filter t.mark.isFrom)
          ((way (ts'.map Thread.mark)).filter t'.mark.isFrom) :=
      (hway.aligned (hnodup hts) (hnodup hts') hmarked).filter fun _ _ hu ↦ ht.isFrom hu
    have hlead {us : List Thread} (hus : (offsetsOf us).Nodup) (t : Thread) (ht : t ∈ us) :
        ∀ u ∈ ((f (us.map Thread.mark)).filter t.mark.isFrom ++
          (g (us.map Thread.mark)).filter t.mark.isFrom).map Thread.unmark,
          t.offset ≤ u.offset := by
      intro u hu
      obtain ⟨v, hv, rfl⟩ := List.mem_map.mp hu
      have hv : Leads .all 0 t.mark v := (List.mem_append.mp hv).elim
        (hf.forward.lead_of_isFrom hus ht) (hg.forward.lead_of_isFrom hus ht)
      exact hv.unmark.offset_le
    rw [prefer_eq hf.forward hg.forward hts, prefer_eq hf.forward hg.forward hts']
    refine (h.flatMap (fun t _ t' _ ht ↦ ?_) (hlead hts) (hlead hts')).distinct
    exact ((hway hf ht).append (hway hg ht)).map (fun _ _ hu ↦ hu.unmark) (fun _ ↦ rfl)
      fun _ ↦ rfl

theorem respects_inTurn {steps : List (List Thread → List Thread)}
    (hsteps : ∀ f ∈ steps, F.Respects f) : F.Respects (inTurn steps) := by
  induction steps with
  | nil => exact .id F
  | cons f steps ih =>
    exact (hsteps f List.mem_cons_self).comp (ih fun g hg ↦ hsteps g (List.mem_cons_of_mem f hg))

theorem respects_upTo {step : Nat → List Thread → List Thread} (hstep : ∀ i, F.Respects (step i))
    {places : Nat → Place} (hplaces : ∀ i path, places i = some path → F.places path)
    (greedy : Bool) (count : Nat) : F.Respects (upTo step greedy places count) := by
  induction count with
  | zero =>
    exact ⟨.id .all, fun _ _ h ↦ h⟩
  | succ count ih =>
    have hpass := respects_pass (hplaces count)
    have hagain := (hstep count).comp ih
    have hfunext : upTo step greedy places (count + 1) = fun threads ↦
        if greedy then prefer (threads.filterMap (·.pass? (places count)))
          (fun threads ↦ upTo step greedy places count (step count threads)) (fun ts ↦ ts)
        else prefer (threads.filterMap (·.pass? (places count))) (fun ts ↦ ts)
          (fun threads ↦ upTo step greedy places count (step count threads)) :=
      funext fun threads ↦ upTo_succ step greedy places count threads
    rw [hfunext]
    cases greedy with
    | true => exact hpass.comp (respects_prefer hagain (.id F))
    | false => exact hpass.comp (respects_prefer (.id F) hagain)

theorem respects_group (name : String) (hf : F.Respects f) :
    F.Respects fun ts ↦ (f (ts.map Thread.mark)).map fun t ↦ (t.capture name).unmark where
  forward := forward_group trivial hf.forward
  aligned hts hts' h := by
    have hoffset (t : Thread) : ((t.capture name).unmark).offset = t.offset := by
      rw [Thread.From.unmark_capture]
      rfl
    have hmarked := h.map (fun _ _ ht ↦ ht.mark) (fun _ ↦ rfl) fun _ ↦ rfl
    refine (hf.aligned ?_ ?_ hmarked).map (fun _ _ hu ↦ (hu.capture name).unmark) hoffset hoffset
    · rwa [offsetsOf_mark]
    · rwa [offsetsOf_mark]

end Steps

end Frame

end PathBinding.Regex
