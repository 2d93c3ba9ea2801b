import PathBinding.Proofs.Regex.Writing

/-!
Pairs that each end in an ampersand. What a run reaches from a thread on a text depends on where the thread stands only
(`mem_offsetsOf_mark`, `mem_offsetsOf_comp`), so alternatives reach what any of them reaches (`mem_offsetsOf_altAll`).
Whatever the pairs ask for, text without ampersands is one of them, and so the pairs reach the end of each text that
ends in an ampersand (`end_mem_pairs`).
-/

set_option autoImplicit false
set_option relaxedAutoImplicit false

namespace PathBinding.Regex

open Relation

variable {text : List Char} {t : Thread} {a b r : Regex}

/-! ### What is reached from a position -/

theorem mem_offsetsOf_mark (r : Regex) (ht : t.On text) (hpassed : t.passed = []) (o : Nat) :
    o ∈ offsetsOf (run none r [t.mark]) ↔ o ∈ offsetsOf (run none r [t]) := by
  have hahead : t.Ahead t.mark [] := ⟨rfl, rfl, rfl⟩
  have hfresh : t.Fresh (Place.Inside none) := by
    simp [Thread.Fresh, hpassed]
  have hfresh' : t.mark.Fresh (Place.Inside none) := by
    simp [Thread.Fresh, Thread.mark, hpassed]
  exact (additive_run text r none).same ⟨ht.ahead hahead, hfresh'⟩ ⟨ht, hfresh⟩ rfl o

/-- What comes behind a run is reached from some thread of it. -/
theorem mem_offsetsOf_comp (a b : Regex) (ht : t.On text) (hpassed : t.passed = []) (o : Nat) :
    o ∈ offsetsOf (run none b (run none a [t])) ↔ ∃ u ∈ run none a [t], o ∈ offsetsOf (run none b [u]) := by
  refine (additive_run text b none).apart _ ((forward_run none a).nodup [t] (List.nodup_singleton _)) (fun u hu ↦ ?_) o
  have hfresh : u.Fresh (Place.Inside none) := by
    simp [Thread.Fresh, passed_run hpassed hu]
  exact ⟨ht.lead ((forward_run none a).lead hu), hfresh⟩

theorem mem_offsetsOf_alt (ht : t.On text) (hpassed : t.passed = []) (o : Nat) :
    o ∈ offsetsOf (run none (.alt a b) [t]) ↔ o ∈ offsetsOf (run none a [t]) ∨ o ∈ offsetsOf (run none b [t]) := by
  have hnodup : (offsetsOf [t]).Nodup := List.nodup_singleton _
  have hprefer := mem_offsetsOf_prefer (forward_run none a) (forward_run none b) hnodup o
  rw [← mem_offsetsOf_mark a ht hpassed, ← mem_offsetsOf_mark b ht hpassed]
  exact hprefer

theorem mem_offsetsOf_altAll {rs : List Regex} (hne : rs ≠ []) (ht : t.On text) (hpassed : t.passed = []) (o : Nat) :
    o ∈ offsetsOf (run none (altAll rs) [t]) ↔ ∃ r ∈ rs, o ∈ offsetsOf (run none r [t]) := by
  induction rs with
  | nil => exact absurd rfl hne
  | cons r rs ih =>
    cases rs with
    | nil => simp [altAll]
    | cons s rs =>
      rw [altAll, mem_offsetsOf_alt ht hpassed, ih (List.cons_ne_nil s rs)]
      · simp
      · exact List.cons_ne_nil s rs

theorem mem_offsetsOf_group (name : Option String) (ht : t.On text) (hpassed : t.passed = []) (o : Nat) :
    o ∈ offsetsOf (run none (.group name r) [t]) ↔ o ∈ offsetsOf (run none r [t]) := by
  cases name with
  | none => exact Iff.rfl
  | some name =>
    have hoffset (t : Thread) : ((t.capture name).unmark).offset = t.offset := by
      rw [Thread.From.unmark_capture]
      rfl
    rw [← mem_offsetsOf_mark r ht hpassed, run, offsetsOf_map_of_eq hoffset]
    rfl

/-! ### Texts that stand for themselves -/

theorem single_contains (c d : Char) : (CharSet.single c).contains d = true ↔ d = c := by
  rw [CharSet.single, CharSet.contains, Bool.and_eq_true, decide_eq_true_iff, decide_eq_true_iff]
  constructor
  · rintro ⟨hle, hge⟩
    exact Char.le_antisymm hge hle
  · rintro rfl
    exact ⟨Char.le_refl d, Char.le_refl d⟩

theorem lookFree_characters (text : List Char) : ∀ r ∈ characters text, r.lookFree = true := by
  intro r hr
  obtain ⟨c, -, rfl⟩ := List.mem_map.mp hr
  rfl

theorem accepts_characters (text s : List Char) : (sequence (characters text)).Accepts s ↔ s = text := by
  induction text generalizing s with
  | nil => exact accepts_empty s
  | cons c text ih =>
    have hcons : characters (c :: text) = .set (.single c) :: characters text := rfl
    rw [hcons, accepts_sequence_cons rfl (lookFree_characters text)]
    constructor
    · rintro ⟨u, v, rfl, hu, hv⟩
      obtain ⟨d, rfl, hd⟩ := (accepts_set _ u).mp hu
      rw [(ih v).mp hv, (single_contains c d).mp hd]
      rfl
    · rintro rfl
      exact ⟨[c], text, rfl, (accepts_set _ _).mpr ⟨c, rfl, (single_contains c c).mpr rfl⟩, (ih text).mpr rfl⟩

/-! ### Pairs up to the end -/

/-- Any number of characters but one, be it as many or as few as possible. -/
theorem accepts_allBut (c : Char) (greedy : Bool) (w : List Char) :
    (Regex.repeat 0 none greedy (.set (.compl (.single c)))).Accepts w ↔ c ∉ w := by
  have hleast : (Regex.set (.compl (.single c))).leastLength ≠ 0 := Nat.one_ne_zero
  have hset (piece : List Char) : (Regex.set (.compl (.single c))).Accepts piece ↔ ∃ d, piece = [d] ∧ d ≠ c := by
    rw [accepts_set]
    refine exists_congr fun d ↦ and_congr_right fun _ ↦ ?_
    rw [CharSet.contains, Bool.not_eq_true', ← Bool.not_eq_true, single_contains]
  rw [accepts_star rfl hleast]
  simp only [hset]
  constructor
  · rintro ⟨pieces, rfl, hpieces⟩ hin
    obtain ⟨piece, hpiece, hin⟩ := List.mem_flatten.mp hin
    obtain ⟨d, rfl, hd⟩ := hpieces piece hpiece
    exact hd (List.mem_singleton.mp hin).symm
  · intro hw
    refine ⟨w.map fun d ↦ [d], (List.flatMap_singleton' w).symm, fun piece hpiece ↦ ?_⟩
    obtain ⟨d, hd, rfl⟩ := List.mem_map.mp hpiece
    exact ⟨d, rfl, fun heq ↦ hw (heq ▸ hd)⟩

theorem accepts_unseparated (w : List Char) : unseparated.Accepts w ↔ '&' ∉ w :=
  accepts_allBut '&' true w

/-- One pair leads behind the next ampersand. -/
theorem reaches_pair (branches : List (List Regex)) (ht : t.On text) (hpassed : t.passed = []) {w rest : List Char}
    (hrest : t.rest = w ++ '&' :: rest) (hw : '&' ∉ w) :
    ∃ u ∈ run none (pair branches) [t], u.rest = rest := by
  have hfirst : t.offset + w.length ∈ offsetsOf (run none (altAll (branches.map sequence ++ [unseparated])) [t]) := by
    rw [mem_offsetsOf_altAll (by simp) ht hpassed]
    refine ⟨unseparated, by simp, ?_⟩
    rw [mem_run_append_iff rfl hpassed hrest]
    exact (accepts_unseparated w).mpr hw
  obtain ⟨u, hu, hoffset⟩ := mem_offsetsOf.mp hfirst
  obtain ⟨s, hs, -⟩ := (forward_run none _).lead hu
  have hlength : w.length = s.length := by
    have := hs.offset
    omega
  obtain ⟨rfl, hbehind⟩ := List.append_inj (hrest.symm.trans hs.rest) hlength
  refine ⟨⟨u.offset + 1, some '&', rest, u.captures, u.begun, []⟩, ?_, rfl⟩
  rw [pair, run, run, List.mem_filterMap]
  refine ⟨u, hu, ?_⟩
  rw [Thread.advance?, ← hbehind]
  exact if_pos ((single_contains '&' '&').mpr rfl)

/-- Assumes: nothing or an ampersand ends the text behind the thread. -/
theorem reaches_end (branches : List (List Regex)) (ht : t.On text) (hpassed : t.passed = [])
    (hend : t.rest = [] ∨ t.rest.getLast? = some '&') :
    ReflTransGen (Reaches text (pair branches)) t.offset text.length := by
  induction hlength : t.rest.length using Nat.strongRecOn generalizing t with
  | ind n ih =>
    by_cases hrest : t.rest = []
    · have hoffset := ht.offset_add
      rw [hrest, List.length_nil, Nat.add_zero] at hoffset
      rw [hoffset]
    · have hlast := hend.resolve_left hrest
      obtain ⟨w, rest, hsplit, hw⟩ := List.eq_append_cons_of_mem (List.mem_of_getLast? hlast)
      obtain ⟨u, hu, hbehind⟩ := reaches_pair branches ht hpassed hsplit hw
      have hon := ht.lead ((forward_run none _).lead hu)
      have hnext : u.rest = [] ∨ u.rest.getLast? = some '&' := by
        rw [hsplit, List.getLast?_append] at hlast
        rw [hbehind]
        cases rest with
        | nil => exact Or.inl rfl
        | cons c rest =>
          right
          simpa using hlast
      have hshorter : u.rest.length < n := by
        rw [← hlength, hsplit, hbehind, List.length_append, List.length_cons]
        omega
      have hstep : Reaches text (pair branches) t.offset u.offset :=
        ⟨t, ht, hpassed, rfl, mem_offsetsOf_of_mem hu⟩
      exact .head hstep (ih u.rest.length hshorter hon (passed_run hpassed hu) hnext rfl)

/-- Any number of pairs reach the end of a text that ends in an ampersand. -/
theorem end_mem_pairs (branches : List (List Regex)) (ht : t.On text) (hpassed : t.passed = [])
    (hend : text.getLast? = some '&') : text.length ∈ offsetsOf (run none (.repeat 0 none true (pair branches)) [t]) := by
  have hrest : t.rest = [] ∨ t.rest.getLast? = some '&' := by
    obtain ⟨s, hs⟩ := ht
    have htext : text = s ++ t.rest := hs.rest
    rw [htext, List.getLast?_append] at hend
    cases hlast : t.rest.getLast? with
    | none => exact Or.inl (List.getLast?_eq_none_iff.mp hlast)
    | some c =>
      rw [hlast] at hend
      exact Or.inr hend
  have hleast : (pair branches).leastLength ≠ 0 := Nat.succ_ne_zero _
  have hgood : ∀ u ∈ [t], u.On text ∧ u.passed = [] := List.forall_mem_singleton.mpr ⟨ht, hpassed⟩
  have hbehind := mem_behind_takeAny (additive_run text (pair branches) none) hleast 0 true hgood text.length
  rw [run_repeat_none, offsetsOf_map_of_eq (f := Thread.forgetIn none) fun _ ↦ rfl, if_neg fun h ↦ hleast h.2]
  refine hbehind.mpr ⟨t, List.mem_cons_self, ?_⟩
  exact reaches_end branches ht hpassed hrest

/-! ### A question mark in front of pairs -/

/-- A question mark and any number of pairs. -/
def query (branches : List (List Regex)) : List Regex :=
  [.set (.single '?'), .repeat 0 none true (pair branches)]

theorem unbranched_query (rs : List Regex) (branches : List (List Regex)) :
    Unbranched (sequence (rs ++ query branches)) := by
  have hfoldl (rest : List Regex) (first : Regex) : Unbranched ((rest ++ query branches).foldl
      (fun whole part ↦ if part = .empty then whole else .seq whole part) first) := by
    rw [List.foldl_append]
    rfl
  induction rs with
  | nil => rfl
  | cons r rs ih =>
    cases r with
    | empty => exact ih
    | _ => exact hfoldl rs _

theorem run_query (branches : List (List Regex)) (ts : List Thread) :
    run none (sequence (query branches)) ts =
      run none (.repeat 0 none true (pair branches)) (run none (.set (.single '?')) ts) := by
  rw [run_sequence]
  rfl

theorem run_mark (t : Thread) : run none (.set (.single '?')) [t] =
    match t.rest with
    | '?' :: rest => [{ t with offset := t.offset + 1, before := some '?', rest, passed := [] }]
    | _ => [] := by
  rw [run]
  split
  · next rest hrest =>
    have hadvance : t.advance? (.single '?') =
        some { t with offset := t.offset + 1, before := some '?', rest, passed := [] } := by
      rw [Thread.advance?, hrest]
      exact if_pos ((single_contains '?' '?').mpr rfl)
    rw [List.filterMap_cons, hadvance]
    rfl
  · next hne =>
    have hadvance : t.advance? (.single '?') = none := by
      rw [Thread.advance?]
      split
      · rfl
      · next c rest hrest =>
        refine if_neg fun hcontains ↦ hne rest ?_
        rw [hrest, (single_contains '?' c).mp hcontains]
    rw [List.filterMap_cons, hadvance]
    rfl

/-- The query is taken in from each question mark on. -/
theorem end_mem_query (branches : List (List Regex)) (ht : t.On text) (hpassed : t.passed = [])
    (hend : text.getLast? = some '&') :
    text.length ∈ offsetsOf (run none (sequence (query branches)) [t]) ↔ ∃ q, t.rest = '?' :: q := by
  rw [run_query, mem_offsetsOf_comp _ _ ht hpassed]
  constructor
  · rintro ⟨u, hu, -⟩
    rw [run_mark] at hu
    split at hu
    · next q hq => exact ⟨q, hq⟩
    · cases hu
  · rintro ⟨q, hq⟩
    have hmark := run_mark t
    rw [hq] at hmark
    have hu := List.mem_of_mem_head? (congrArg List.head? hmark)
    exact ⟨_, hu, end_mem_pairs branches (ht.lead ((forward_run none _).lead hu)) (passed_run hpassed hu) hend⟩

end PathBinding.Regex
