import PathBinding.Proofs.Regex.Language

/-!
What a repetition with bounds accepts. It unrolls into its iterations one by one, first those that must take part and then
those that may (`accepts_repeat_required`, `accepts_repeat_allowed`), so it accepts a text if the text is made of as many pieces as
the bounds allow (`accepts_repeat`), and for a single character, if the text is as long as the bounds allow
(`accepts_repeat_set`).
-/

set_option autoImplicit false
set_option relaxedAutoImplicit false

namespace PathBinding.Regex

variable {r : Regex}

theorem run_repeat_some (r : Regex) (min max : Nat) (greedy : Bool) (ts : List Thread) :
    run none (.repeat min (some max) greedy r) ts = upTo (fun _ ↦ run none r) greedy (fun _ ↦ none) (max - min)
      (inTurn ((List.range min).map fun _ ↦ run none r) ts) := by
  rw [run]
  rfl

/-- An iteration that must take part comes before all others. -/
theorem accepts_repeat_required (hr : r.lookFree = true) (min max : Nat) (s : List Char) :
    (Regex.repeat (min + 1) (some (max + 1)) true r).Accepts s ↔
      ∃ u v, s = u ++ v ∧ r.Accepts u ∧ (Regex.repeat min (some max) true r).Accepts v := by
  have hrequired : (List.range (min + 1)).map (fun _ ↦ run none r) =
      run none r :: (List.range min).map fun _ ↦ run none r := by
    rw [List.map_const', List.map_const', List.length_range, List.length_range, List.replicate_succ]
  have hrest : (Regex.repeat min (some max) true r).lookFree = true := hr
  refine accepts_then hr hrest (fun ts ↦ ?_) s
  rw [run_repeat_some, run_repeat_some, hrequired, Nat.add_sub_add_right]
  rfl

/-- An iteration that may take part takes part together with others behind it or not at all. -/
theorem accepts_repeat_allowed (hr : r.lookFree = true) (max : Nat) (s : List Char) :
    (Regex.repeat 0 (some (max + 1)) true r).Accepts s ↔
      (∃ u v, s = u ++ v ∧ r.Accepts u ∧ (Regex.repeat 0 (some max) true r).Accepts v) ∨ s = [] := by
  have hrest : (Regex.repeat 0 (some max) true r).lookFree = true := hr
  have hseq : (Regex.seq r (.repeat 0 (some max) true r)).lookFree = true := Bool.and_eq_true_iff.mpr ⟨hr, hr⟩
  have hagain (ts : List Thread) : run none (.seq r (.repeat 0 (some max) true r)) ts =
      upTo (fun _ ↦ run none r) true (fun _ ↦ none) max (run none r ts) :=
    run_repeat_some r 0 max true (run none r ts)
  have hrun (ts : List Thread) : run none (.repeat 0 (some (max + 1)) true r) ts =
      run none (.repeat 0 (some 1) true (.seq r (.repeat 0 (some max) true r))) ts := by
    rw [run_repeat_some, run_repeat_some, Nat.sub_zero, Nat.sub_zero, upTo_succ, upTo_succ]
    simp only [upTo, hagain, List.range_zero, List.map_nil]
  rw [Accepts, hrun, ← accepts_seq hr hrest]
  exact accepts_optional hseq s

/-- What a repetition accepts is made of pieces that its body accepts, as many as the bounds allow. -/
theorem accepts_repeat (hr : r.lookFree = true) {min max : Nat} (hle : min ≤ max) (s : List Char) :
    (Regex.repeat min (some max) true r).Accepts s ↔ ∃ pieces : List (List Char), s = pieces.flatten ∧
      min ≤ pieces.length ∧ pieces.length ≤ max ∧ ∀ piece ∈ pieces, r.Accepts piece := by
  induction max generalizing min s with
  | zero =>
    obtain rfl := Nat.le_zero.mp hle
    refine (accepts_empty s).trans ⟨?_, ?_⟩
    · rintro rfl
      exact ⟨[], rfl, Nat.le_refl 0, Nat.le_refl 0, List.forall_mem_nil _⟩
    · rintro ⟨pieces, rfl, -, hlength, -⟩
      rw [List.length_eq_zero_iff.mp (Nat.le_zero.mp hlength)]
      rfl
  | succ max ih =>
    cases min with
    | zero =>
      rw [accepts_repeat_allowed hr]
      constructor
      · rintro (⟨u, v, rfl, hu, hv⟩ | rfl)
        · obtain ⟨pieces, rfl, -, hmax, hpieces⟩ := (ih (Nat.zero_le max) v).mp hv
          exact ⟨u :: pieces, rfl, Nat.zero_le _, Nat.succ_le_succ hmax, List.forall_mem_cons.mpr ⟨hu, hpieces⟩⟩
        · exact ⟨[], rfl, Nat.le_refl 0, Nat.zero_le _, List.forall_mem_nil _⟩
      · rintro ⟨pieces, rfl, -, hmax, hpieces⟩
        cases pieces with
        | nil => exact .inr rfl
        | cons u pieces =>
          obtain ⟨hu, hpieces⟩ := List.forall_mem_cons.mp hpieces
          refine .inl ⟨u, pieces.flatten, rfl, hu, (ih (Nat.zero_le max) _).mpr ⟨pieces, rfl, Nat.zero_le _, ?_, hpieces⟩⟩
          exact Nat.le_of_succ_le_succ hmax
    | succ min =>
      have hle := Nat.le_of_succ_le_succ hle
      rw [accepts_repeat_required hr]
      constructor
      · rintro ⟨u, v, rfl, hu, hv⟩
        obtain ⟨pieces, rfl, hmin, hmax, hpieces⟩ := (ih hle v).mp hv
        exact ⟨u :: pieces, rfl, Nat.succ_le_succ hmin, Nat.succ_le_succ hmax, List.forall_mem_cons.mpr ⟨hu, hpieces⟩⟩
      · rintro ⟨pieces, rfl, hmin, hmax, hpieces⟩
        cases pieces with
        | nil => exact absurd hmin (Nat.not_succ_le_zero min)
        | cons u pieces =>
          obtain ⟨hu, hpieces⟩ := List.forall_mem_cons.mp hpieces
          refine ⟨u, pieces.flatten, rfl, hu, (ih hle _).mpr ⟨pieces, rfl, ?_, ?_, hpieces⟩⟩
          · exact Nat.le_of_succ_le_succ hmin
          · exact Nat.le_of_succ_le_succ hmax

/-- Repeated single characters accept a text of their set whose length is within the bounds. -/
theorem accepts_repeat_set (chars : CharSet) {min max : Nat} (hle : min ≤ max) (s : List Char) :
    (Regex.repeat min (some max) true (.set chars)).Accepts s ↔
      min ≤ s.length ∧ s.length ≤ max ∧ ∀ c ∈ s, chars.contains c = true := by
  rw [accepts_repeat rfl hle]
  constructor
  · rintro ⟨pieces, rfl, hmin, hmax, hpieces⟩
    have hsingles : ∀ piece ∈ pieces, piece.length = 1 ∧ ∀ c ∈ piece, chars.contains c = true := by
      intro piece hpiece
      obtain ⟨c, rfl, hc⟩ := (accepts_set chars piece).mp (hpieces piece hpiece)
      exact ⟨rfl, List.forall_mem_singleton.mpr hc⟩
    have hlength : pieces.flatten.length = pieces.length := by
      rw [List.length_flatten, List.map_congr_left fun piece hpiece ↦ (hsingles piece hpiece).1, List.map_const',
        List.sum_replicate_nat, Nat.mul_one]
    refine ⟨hlength ▸ hmin, hlength ▸ hmax, fun c hc ↦ ?_⟩
    obtain ⟨piece, hpiece, hc⟩ := List.mem_flatten.mp hc
    exact (hsingles piece hpiece).2 c hc
  · rintro ⟨hmin, hmax, hs⟩
    refine ⟨s.map fun c ↦ [c], (List.flatMap_singleton' s).symm, ?_, ?_, ?_⟩
    · rwa [List.length_map]
    · rwa [List.length_map]
    · refine List.forall_mem_map.mpr fun c hc ↦ ?_
      exact (accepts_set chars [c]).mpr ⟨c, rfl, hs c hc⟩

end PathBinding.Regex
