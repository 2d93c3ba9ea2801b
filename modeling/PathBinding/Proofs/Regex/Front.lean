import Mathlib.Data.List.Nodup
import Mathlib.Data.List.Forall2
import PathBinding.Regex.Matching

/-!
Fronts keep the first thread for each offset: what a front holds after more threads have been added, and that no offset
is lost and none occurs twice.
-/

set_option autoImplicit false
set_option relaxedAutoImplicit false

namespace PathBinding.Regex

/-- The offsets of threads, in their order. -/
def offsetsOf (threads : List Thread) : List Nat :=
  threads.map (·.offset)

@[simp] theorem offsetsOf_nil : offsetsOf [] = [] := rfl

@[simp] theorem offsetsOf_cons (t : Thread) (threads : List Thread) :
    offsetsOf (t :: threads) = t.offset :: offsetsOf threads := rfl

@[simp] theorem offsetsOf_append (first second : List Thread) :
    offsetsOf (first ++ second) = offsetsOf first ++ offsetsOf second :=
  List.map_append

theorem mem_offsetsOf {o : Nat} {threads : List Thread} :
    o ∈ offsetsOf threads ↔ ∃ t ∈ threads, t.offset = o := by
  simp [offsetsOf]

theorem mem_offsetsOf_of_mem {t : Thread} {threads : List Thread} (h : t ∈ threads) :
    t.offset ∈ offsetsOf threads :=
  mem_offsetsOf.mpr ⟨t, h, rfl⟩

theorem offsetsOf_map_of_eq {f : Thread → Thread} (hf : ∀ t, (f t).offset = t.offset)
    (threads : List Thread) : offsetsOf (threads.map f) = offsetsOf threads := by
  simp [offsetsOf, hf]

/-- The thread at an offset. -/
def threadAt (o : Nat) (threads : List Thread) : Option Thread :=
  threads.find? (·.offset == o)

theorem threadAt_append (o : Nat) (first second : List Thread) :
    threadAt o (first ++ second) = (threadAt o first).or (threadAt o second) :=
  List.find?_append

theorem threadAt_eq_none {o : Nat} {threads : List Thread} :
    threadAt o threads = none ↔ o ∉ offsetsOf threads := by
  simp [threadAt, mem_offsetsOf]

theorem threadAt_isSome {o : Nat} {threads : List Thread} :
    (threadAt o threads).isSome ↔ o ∈ offsetsOf threads := by
  rw [← not_iff_not, ← threadAt_eq_none, Option.not_isSome_iff_eq_none]

theorem offset_of_threadAt {o : Nat} {threads : List Thread} {t : Thread}
    (h : threadAt o threads = some t) : t.offset = o := by
  simpa using List.find?_some h

theorem mem_of_threadAt {o : Nat} {threads : List Thread} {t : Thread}
    (h : threadAt o threads = some t) : t ∈ threads :=
  List.mem_of_find?_eq_some h

theorem threadAt_map_of_eq {f : Thread → Thread} (hf : ∀ t, (f t).offset = t.offset) (o : Nat)
    (threads : List Thread) : threadAt o (threads.map f) = (threadAt o threads).map f := by
  simp only [threadAt, List.find?_map, Function.comp_def, hf]

/-- Threads at offsets of their own are told apart by them. -/
theorem eq_of_offset_eq {threads : List Thread} (hnodup : (offsetsOf threads).Nodup) {t u : Thread}
    (ht : t ∈ threads) (hu : u ∈ threads) (h : t.offset = u.offset) : t = u :=
  List.inj_on_of_nodup_map hnodup ht hu h

theorem threadAt_eq_some_of_mem {threads : List Thread} (hnodup : (offsetsOf threads).Nodup)
    {t : Thread} (ht : t ∈ threads) : threadAt t.offset threads = some t := by
  obtain ⟨u, hu⟩ := Option.isSome_iff_exists.mp (threadAt_isSome.mpr (mem_offsetsOf_of_mem ht))
  rw [hu, eq_of_offset_eq hnodup (mem_of_threadAt hu) ht (offset_of_threadAt hu)]

namespace Front

theorem contains_iff (front : Front) (o : Nat) :
    front.offsets.contains o = true ↔ o ∈ offsetsOf front.threads := by
  rw [front.offsets_contains, List.any_eq_true]
  simp [threads, offsetsOf]

@[simp] theorem threads_empty : empty.threads = [] := rfl

theorem threads_add_of_mem {front : Front} {t : Thread} (h : t.offset ∈ offsetsOf front.threads) :
    (front.add t).threads = front.threads := by
  rw [add, if_pos ((front.contains_iff _).mpr h)]

theorem threads_add_of_notMem {front : Front} {t : Thread}
    (h : t.offset ∉ offsetsOf front.threads) : (front.add t).threads = front.threads ++ [t] := by
  rw [add, if_neg (mt (front.contains_iff _).mp h)]
  simp [threads]

theorem mem_offsetsOf_add {front : Front} {t : Thread} {o : Nat} :
    o ∈ offsetsOf (front.add t).threads ↔ o ∈ offsetsOf front.threads ∨ o = t.offset := by
  by_cases h : t.offset ∈ offsetsOf front.threads
  · rw [threads_add_of_mem h]
    exact ⟨Or.inl, fun ho ↦ ho.elim id (· ▸ h)⟩
  · simp [threads_add_of_notMem h]

theorem nodup_add {front : Front} {t : Thread} (h : (offsetsOf front.threads).Nodup) :
    (offsetsOf (front.add t).threads).Nodup := by
  by_cases ht : t.offset ∈ offsetsOf front.threads
  · rwa [threads_add_of_mem ht]
  · rw [threads_add_of_notMem ht, offsetsOf_append]
    exact List.nodup_append.mpr ⟨h, List.nodup_singleton _, by
      rintro o ho p hp rfl
      exact ht ((List.mem_singleton.mp hp : o = t.offset) ▸ ho)⟩

/-- Adding only appends, and only what is given. -/
theorem threads_addAll (front : Front) (threads : List Thread) :
    ∃ added, (front.addAll threads).threads = front.threads ++ added ∧ added.Sublist threads := by
  induction threads generalizing front with
  | nil => exact ⟨[], by simp [addAll], List.nil_sublist _⟩
  | cons t rest ih =>
    obtain ⟨added, hadded, hsub⟩ := ih (front.add t)
    by_cases h : t.offset ∈ offsetsOf front.threads
    · rw [threads_add_of_mem h] at hadded
      exact ⟨added, hadded, hsub.cons t⟩
    · rw [threads_add_of_notMem h, List.append_assoc] at hadded
      exact ⟨t :: added, hadded, hsub.cons_cons t⟩

theorem mem_offsetsOf_addAll {front : Front} {threads : List Thread} {o : Nat} :
    o ∈ offsetsOf (front.addAll threads).threads ↔
      o ∈ offsetsOf front.threads ∨ o ∈ offsetsOf threads := by
  induction threads generalizing front with
  | nil => simp [addAll]
  | cons t rest ih =>
    have hstep : front.addAll (t :: rest) = (front.add t).addAll rest := rfl
    rw [hstep, ih, mem_offsetsOf_add, offsetsOf_cons, List.mem_cons, or_assoc]

theorem nodup_addAll {front : Front} {threads : List Thread}
    (h : (offsetsOf front.threads).Nodup) : (offsetsOf (front.addAll threads).threads).Nodup := by
  induction threads generalizing front with
  | nil => exact h
  | cons t rest ih => exact ih (nodup_add h)

theorem threadAt_add (front : Front) (t : Thread) (o : Nat) :
    threadAt o (front.add t).threads = threadAt o (front.threads ++ [t]) := by
  by_cases h : t.offset ∈ offsetsOf front.threads
  · rw [threads_add_of_mem h, threadAt_append]
    by_cases ho : t.offset = o
    · obtain ⟨u, hu⟩ := Option.isSome_iff_exists.mp (threadAt_isSome.mpr (ho ▸ h))
      rw [hu, Option.some_or]
    · simp [threadAt, ho]
  · rw [threads_add_of_notMem h]

/-- At each offset the first thread given is the one that is kept. -/
theorem threadAt_addAll (front : Front) (threads : List Thread) (o : Nat) :
    threadAt o (front.addAll threads).threads = threadAt o (front.threads ++ threads) := by
  induction threads generalizing front with
  | nil => simp [addAll]
  | cons t rest ih =>
    have hstep : front.addAll (t :: rest) = (front.add t).addAll rest := rfl
    rw [hstep, ih, threadAt_append, threadAt_add, ← threadAt_append, List.append_assoc,
      List.singleton_append]

end Front

theorem distinct_sublist (threads : List Thread) : (distinct threads).Sublist threads := by
  obtain ⟨added, hadded, hsub⟩ := Front.empty.threads_addAll threads
  rw [distinct, hadded]
  simpa using hsub

theorem mem_offsetsOf_distinct {threads : List Thread} {o : Nat} :
    o ∈ offsetsOf (distinct threads) ↔ o ∈ offsetsOf threads := by
  simp [distinct, Front.mem_offsetsOf_addAll]

theorem nodup_distinct (threads : List Thread) : (offsetsOf (distinct threads)).Nodup :=
  Front.nodup_addAll List.nodup_nil

theorem threadAt_distinct (o : Nat) (threads : List Thread) :
    threadAt o (distinct threads) = threadAt o threads := by
  simp [distinct, Front.threadAt_addAll]

end PathBinding.Regex
