import PathBinding.Proofs.Regex.Additivity

/-!
Other names for groups. Expressions are put together alike whatever names their groups have, unless two names become one
(`sequence_rename`, `alternation_rename`, `repetition_rename`). Names say where text is captured and nothing else: with
other names an expression reaches the same positions in the same order, and what it has captured stands under the other
names (`run_rename`, `search_rename`).
-/

set_option autoImplicit false
set_option relaxedAutoImplicit false

namespace PathBinding.Regex

variable (f : String → String)

/-- The expression with other names for its groups. -/
@[simp]
def rename : Regex → Regex
  | .empty => .empty
  | .set chars => .set chars
  | .look condition => .look condition
  | .seq a b => .seq a.rename b.rename
  | .alt a b => .alt a.rename b.rename
  | .repeat min max greedy body => .repeat min max greedy body.rename
  | .group name body => .group (name.map f) body.rename

theorem leastLength_rename (r : Regex) : (r.rename f).leastLength = r.leastLength := by
  induction r with
  | seq a b iha ihb => rw [rename, leastLength, leastLength, iha, ihb]
  | alt a b iha ihb => rw [rename, leastLength, leastLength, iha, ihb]
  | «repeat» min max greedy body ih => rw [rename, leastLength, leastLength, ih]
  | group name body ih => exact ih
  | _ => rfl

/-! ### Expressions put together -/

section Building

variable {f : String → String}

theorem rename_eq_empty {r : Regex} : r.rename f = .empty ↔ r = .empty := by
  cases r <;> simp [rename]

theorem rename_of_groupNames {r : Regex} (h : ∀ name ∈ r.groupNames, f name = name) : r.rename f = r := by
  induction r with
  | seq a b iha ihb =>
    obtain ⟨ha, hb⟩ := List.forall_mem_append.mp h
    rw [rename, iha ha, ihb hb]
  | alt a b iha ihb =>
    obtain ⟨ha, hb⟩ := List.forall_mem_append.mp h
    rw [rename, iha ha, ihb hb]
  | «repeat» min max greedy body ih => rw [rename, ih h]
  | group name body ih =>
    cases name with
    | none => rw [rename, ih h, Option.map_none]
    | some name =>
      obtain ⟨hname, hbody⟩ := List.forall_mem_cons.mp h
      rw [rename, ih hbody, Option.map_some, hname]
  | _ => rfl

theorem rename_rename (g : String → String) (r : Regex) : (r.rename f).rename g = r.rename (g ∘ f) := by
  induction r with
  | seq a b iha ihb => rw [rename, rename, rename, iha, ihb]
  | alt a b iha ihb => rw [rename, rename, rename, iha, ihb]
  | «repeat» min max greedy body ih => rw [rename, rename, rename, ih]
  | group name body ih => rw [rename, rename, rename, ih, Option.map_map]
  | _ => rfl

theorem rename_injective (hf : f.Injective) : Function.Injective (rename f) := by
  obtain ⟨g, hg⟩ := hf.hasLeftInverse
  have hback : Function.LeftInverse (rename g) (rename f) := fun r ↦ by
    rw [rename_rename]
    exact rename_of_groupNames fun name _ ↦ hg name
  exact hback.injective

theorem sequence_rename (rs : List Regex) : sequence (rs.map (rename f)) = (sequence rs).rename f := by
  have hfold (rs : List Regex) (first : Regex) :
      (rs.map (rename f)).foldl (fun whole part ↦ if part = .empty then whole else .seq whole part) (first.rename f) =
        (rs.foldl (fun whole part ↦ if part = .empty then whole else .seq whole part) first).rename f := by
    induction rs generalizing first with
    | nil => rfl
    | cons r rs ih =>
      rw [List.map_cons, List.foldl_cons, List.foldl_cons, ← ih]
      simp only [rename_eq_empty]
      split <;> rfl
  induction rs with
  | nil => rfl
  | cons r rs ih =>
    cases r with
    | empty => exact ih
    | _ => exact hfold rs _

theorem parts_rename (r : Regex) : (r.rename f).parts = r.parts.map (rename f) := by
  induction r with
  | seq a b iha ihb => rw [rename, parts, parts, iha, ihb, List.map_append]
  | _ => rfl

theorem branches_rename (r : Regex) : (r.rename f).branches = r.branches.map (rename f) := by
  induction r with
  | alt a b iha ihb => rw [rename, branches, branches, iha, ihb, List.map_append]
  | _ => rfl

theorem consumesNothing_rename (r : Regex) : (r.rename f).consumesNothing = r.consumesNothing := by
  induction r with
  | seq a b iha ihb => rw [rename, consumesNothing, consumesNothing, iha, ihb]
  | alt a b iha ihb => rw [rename, consumesNothing, consumesNothing, iha, ihb]
  | «repeat» min max greedy body ih => rw [rename, consumesNothing, consumesNothing, ih]
  | group name body ih => exact ih
  | _ => rfl

theorem hasGroup_rename (r : Regex) : (r.rename f).hasGroup = r.hasGroup := by
  induction r with
  | seq a b iha ihb => rw [rename, hasGroup, hasGroup, iha, ihb]
  | alt a b iha ihb => rw [rename, hasGroup, hasGroup, iha, ihb]
  | «repeat» min max greedy body ih => exact ih
  | _ => rfl

theorem repetition_rename (min : Nat) (max : Option Nat) (greedy : Bool) (body : Regex) :
    repetition min max greedy (body.rename f) = (repetition min max greedy body).rename f := by
  unfold repetition
  rw [consumesNothing_rename]
  generalize (if body.consumesNothing then (Nat.min min 1, some (Nat.min (max.getD 1) 1)) else (min, max)) = bounds
  obtain ⟨least, most⟩ := bounds
  dsimp only
  split
  · rfl
  · split <;> rfl

theorem altAll_rename (rs : List Regex) : altAll (rs.map (rename f)) = (altAll rs).rename f := by
  induction rs with
  | nil => rfl
  | cons r rs ih =>
    cases rs with
    | nil => rfl
    | cons s rs =>
      rw [List.map_cons] at ih ⊢
      exact congrArg (alt (r.rename f)) ih

theorem canonical_rename (r : Regex) : (r.rename f).canonical = r.canonical.rename f := by
  induction r with
  | seq a b iha ihb =>
    rw [rename, canonical, canonical, iha, ihb, parts_rename, parts_rename, ← List.map_append, sequence_rename]
  | alt a b iha ihb =>
    rw [rename, canonical, canonical, iha, ihb, branches_rename, branches_rename, ← List.map_append, altAll_rename]
  | «repeat» min max greedy body ih => rw [rename, canonical, canonical, ih, rename]
  | group name body ih => rw [rename, canonical, canonical, ih, rename]
  | _ => rfl

namespace Factor

def rename (f : String → String) : Factor → Factor
  | .literal text => .literal text
  | .other r => .other (r.rename f)

theorem ofPart_rename (r : Regex) : ofPart (r.rename f) = (ofPart r).rename f := by
  cases r with
  | set chars =>
    rw [Regex.rename, ofPart]
    split <;> rfl
  | _ => rfl

theorem ofParts_rename (rs : List Regex) : ofParts (rs.map (Regex.rename f)) = (ofParts rs).map (rename f) := by
  induction rs with
  | nil => rfl
  | cons r rs ih =>
    rw [List.map_cons, ofParts, ih, ofPart_rename, ofParts]
    cases ofPart r with
    | other r => rfl
    | literal a =>
      cases ofParts rs with
      | nil => rfl
      | cons factor factors => cases factor <;> rfl

theorem toRegex_rename (factor : Factor) : (factor.rename f).toRegex = factor.toRegex.rename f := by
  cases factor with
  | literal text =>
    have hmap : (text.map set).map (Regex.rename f) = text.map set := by
      rw [List.map_map]
      rfl
    rw [rename, toRegex, ← sequence_rename, hmap]
  | other r => rfl

theorem map_toRegex_rename (factors : List Factor) :
    (factors.map (rename f)).map toRegex = (factors.map toRegex).map (Regex.rename f) := by
  rw [List.map_map, List.map_map]
  exact List.map_congr_left fun factor _ ↦ toRegex_rename factor

theorem join_rename (factors : List Factor) : join (factors.map (rename f)) = (join factors).rename f := by
  rw [join, join, map_toRegex_rename, sequence_rename]

theorem shared_rename (hf : f.Injective) (a b : Factor) : shared (a.rename f) (b.rename f) = shared a b := by
  cases a with
  | literal text => cases b <;> rfl
  | other r =>
    cases b with
    | literal text => rfl
    | other s =>
      have hsame : decide (r.canonical.rename f = s.canonical.rename f) = decide (r.canonical = s.canonical) :=
        decide_eq_decide.mpr (Regex.rename_injective hf).eq_iff
      rw [rename, rename, shared, shared, hasGroup_rename, canonical_rename, canonical_rename, hsame]

theorem sharedCount_rename (hf : f.Injective) (as bs : List Factor) :
    sharedCount (as.map (rename f)) (bs.map (rename f)) = sharedCount as bs := by
  induction as generalizing bs with
  | nil => rfl
  | cons a as ih =>
    cases bs with
    | nil => rfl
    | cons b bs => rw [List.map_cons, List.map_cons, sharedCount, sharedCount, shared_rename hf, ih]

end Factor

theorem unionOf?_rename (rs : List Regex) : unionOf? (rs.map (rename f)) = unionOf? rs := by
  have hset : setOf? ∘ rename f = setOf? := by
    funext r
    cases r <;> rfl
  rw [unionOf?, unionOf?, List.mapM_map, hset]

theorem factors_rename (r : Regex) :
    Factor.ofParts (r.rename f).parts = (Factor.ofParts r.parts).map (Factor.rename f) := by
  rw [parts_rename, Factor.ofParts_rename]

theorem tails_rename (count : Nat) (rs : List Regex) :
    ((rs.map (rename f)).map fun r ↦ Factor.ofParts r.parts).map (fun factors ↦ Factor.join (factors.drop count)) =
      ((rs.map fun r ↦ Factor.ofParts r.parts).map fun factors ↦ Factor.join (factors.drop count)).map (rename f) := by
  simp only [List.map_map]
  refine List.map_congr_left fun r _ ↦ ?_
  simp only [Function.comp_apply, factors_rename, ← List.map_drop, Factor.join_rename]

theorem alternationWithin_rename (hf : f.Injective) (bound : Nat) (rs : List Regex) :
    alternationWithin bound (rs.map (rename f)) = (alternationWithin bound rs).rename f := by
  induction bound generalizing rs with
  | zero => exact altAll_rename rs
  | succ bound ih =>
    have hbranches : (rs.map (rename f)).flatMap branches = (rs.flatMap branches).map (rename f) := by
      rw [List.flatMap_map, List.map_flatMap]
      simp only [branches_rename]
    rw [alternationWithin, alternationWithin, hbranches]
    generalize rs.flatMap branches = rs
    match rs with
    | [] => rfl
    | [r] => rfl
    | first :: second :: rest =>
      have hrest : second.rename f :: rest.map (rename f) = (second :: rest).map (rename f) := rfl
      have hall : first.rename f :: (second :: rest).map (rename f) = (first :: second :: rest).map (rename f) := rfl
      rw [List.map_cons, List.map_cons]
      dsimp only
      rw [hrest, hall, unionOf?_rename]
      cases unionOf? (first :: second :: rest) with
      | some chars => rfl
      | none =>
        have hcounts (rs : List Regex) : (rs.map (rename f)).map (fun r ↦
              Factor.sharedCount (Factor.ofParts (first.rename f).parts) (Factor.ofParts r.parts)) =
            rs.map fun r ↦ Factor.sharedCount (Factor.ofParts first.parts) (Factor.ofParts r.parts) := by
          simp only [List.map_map, Function.comp_def, factors_rename, Factor.sharedCount_rename hf]
        have hshort (rs : List Regex) : ((rs.map (rename f)).map fun r ↦ Factor.ofParts r.parts).any (·.length < 2) =
            (rs.map fun r ↦ Factor.ofParts r.parts).any (·.length < 2) := by
          simp only [List.any_map, Function.comp_def, factors_rename, List.length_map]
        have hheads (count : Nat) (factors : List Factor) :
            ((factors.map (Factor.rename f)).take count).map Factor.toRegex =
              ((factors.take count).map Factor.toRegex).map (rename f) := by
          rw [← List.map_take, Factor.map_toRegex_rename]
        dsimp only
        rw [hcounts, hshort, factors_rename, List.length_map]
        simp only [tails_rename, hheads, altAll_rename, ih]
        split
        · rfl
        · rw [← sequence_rename, List.map_append, List.map_singleton]

theorem alternation_rename (hf : f.Injective) (rs : List Regex) :
    alternation (rs.map (rename f)) = (alternation rs).rename f := by
  have hlengths : (rs.map (rename f)).map (fun r ↦ r.parts.length) = rs.map fun r ↦ r.parts.length := by
    rw [List.map_map]
    refine List.map_congr_left fun r _ ↦ ?_
    rw [Function.comp_apply, parts_rename, List.length_map]
  rw [alternation, hlengths, alternationWithin_rename hf, alternation]

end Building

/-! ### Ways through an expression -/

/-- The way with what it has captured under other names. -/
def Thread.rename (t : Thread) : Thread :=
  { t with captures := t.captures.map fun k ↦ { k with name := f k.name } }

/-- With other names in front of it the second step goes where the first one goes. -/
def Renames (step step' : List Thread → List Thread) : Prop :=
  ∀ ts, step' (ts.map (Thread.rename f)) = (step ts).map (Thread.rename f)

namespace Thread

variable (t : Thread)

theorem rename_advance? (chars : CharSet) : (t.rename f).advance? chars = (t.advance? chars).map (rename f) := by
  obtain ⟨offset, before, rest, captures, begun, passed⟩ := t
  cases rest with
  | nil => rfl
  | cons c rest =>
    dsimp only [rename, advance?]
    split <;> rfl

theorem rename_pass? (place : Place) : (t.rename f).pass? place = (t.pass? place).map (rename f) := by
  cases place with
  | none => rfl
  | some path =>
    dsimp only [rename, pass?]
    split <;> rfl

theorem rename_capture (name : String) : (t.rename f).capture (f name) = (t.capture name).rename f := by
  obtain ⟨offset, before, rest, captures, begun, passed⟩ := t
  cases begun <;> rfl

theorem rename_forgetIn (place : Place) : (t.rename f).forgetIn place = (t.forgetIn place).rename f := by
  cases place <;> rfl

end Thread

namespace Renames

variable {f : String → String} {step step' next next' : List Thread → List Thread}

theorem id : Renames f id id :=
  fun _ ↦ rfl

theorem comp (hnext : Renames f next next') (hstep : Renames f step step') :
    Renames f (fun ts ↦ next (step ts)) fun ts ↦ next' (step' ts) := by
  intro ts
  dsimp only
  rw [hstep, hnext]

theorem filterMap {g g' : Thread → Option Thread} (h : ∀ t, g' (t.rename f) = (g t).map (Thread.rename f)) :
    Renames f (List.filterMap g) (List.filterMap g') := by
  intro ts
  rw [List.filterMap_map, List.map_filterMap]
  exact List.filterMap_congr fun t _ ↦ h t

theorem filter {p : Thread → Bool} (h : ∀ t, p (t.rename f) = p t) : Renames f (List.filter p) (List.filter p) := by
  intro ts
  rw [List.filter_map]
  exact congrArg (List.map _) (List.filter_congr fun t _ ↦ h t)

theorem map {g g' : Thread → Thread} (h : ∀ t, g' (t.rename f) = (g t).rename f) :
    Renames f (List.map g) (List.map g') := by
  intro ts
  rw [List.map_map, List.map_map]
  exact List.map_congr_left fun t _ ↦ h t

end Renames

/-! ### Fronts -/

namespace Front

def rename (front : Front) : Front :=
  ⟨front.reversed.map (Thread.rename f), front.offsets, fun offset ↦ by
    rw [front.offsets_contains, List.any_map]
    rfl⟩

theorem rename_add (front : Front) (t : Thread) : (front.rename f).add (t.rename f) = (front.add t).rename f := by
  by_cases h : front.offsets.contains t.offset
  · have h' : (front.rename f).offsets.contains (t.rename f).offset := h
    rw [add, add, if_pos h, if_pos h']
  · have h' : ¬(front.rename f).offsets.contains (t.rename f).offset := h
    rw [add, add, if_neg h, if_neg h']
    rfl

theorem rename_addAll (front : Front) (ts : List Thread) :
    (front.rename f).addAll (ts.map (Thread.rename f)) = (front.addAll ts).rename f := by
  rw [addAll, addAll]
  induction ts generalizing front with
  | nil => rfl
  | cons t ts ih =>
    rw [List.map_cons, List.foldl_cons, List.foldl_cons, rename_add]
    exact ih _

theorem threads_rename (front : Front) : (front.rename f).threads = front.threads.map (Thread.rename f) :=
  List.map_reverse.symm

end Front

theorem renames_distinct : Renames f distinct distinct := by
  intro ts
  rw [distinct, distinct, ← Front.threads_rename, ← Front.rename_addAll]
  rfl

/-! ### Alternatives -/

theorem rename_span (s : Thread) (ts : List Thread) : (ts.map (Thread.rename f)).span (s.rename f).isFrom =
    ((ts.span s.isFrom).1.map (Thread.rename f), (ts.span s.isFrom).2.map (Thread.rename f)) := by
  rw [List.span_eq_takeWhile_dropWhile, List.span_eq_takeWhile_dropWhile, List.takeWhile_map, List.dropWhile_map]
  rfl

theorem rename_sideBySide (sources first second : List Thread) :
    sideBySide (sources.map (Thread.rename f)) (first.map (Thread.rename f)) (second.map (Thread.rename f)) =
      (sideBySide sources first second).map (Thread.rename f) := by
  induction sources generalizing first second with
  | nil => rfl
  | cons source sources ih =>
    rw [List.map_cons, sideBySide, rename_span, rename_span, sideBySide]
    dsimp only
    rw [ih, List.map_append, List.map_append]

theorem Renames.prefer {f : String → String} {first first' second second' : List Thread → List Thread}
    (hfirst : Renames f first first') (hsecond : Renames f second second') :
    Renames f (fun ts ↦ prefer ts first second) fun ts ↦ prefer ts first' second' := by
  intro ts
  have hmark : Renames f (List.map Thread.mark) (List.map Thread.mark) := Renames.map fun _ ↦ rfl
  have hunmark : Renames f (List.map Thread.unmark) (List.map Thread.unmark) := Renames.map fun _ ↦ rfl
  dsimp only [Regex.prefer]
  rw [hmark, hfirst, hsecond, rename_sideBySide, hunmark, renames_distinct]

/-! ### Repetitions -/

def Turning.rename (turning : Turning) : Turning :=
  ⟨turning.begun, turning.front.rename f⟩

theorem Turning.rename_leave (turning : Turning) (t : Thread) :
    (turning.rename f).leave (t.rename f) = (turning.leave t).rename f := by
  simp only [leave, rename, Front.rename_add]

section Repetition

variable {f : String → String} {step step' : Thread → List Thread}

theorem rename_foldl {take take' : Turning → Thread → Turning}
    (h : ∀ turning t, take' (turning.rename f) (t.rename f) = (take turning t).rename f) (turning : Turning)
    (ts : List Thread) : (ts.map (Thread.rename f)).foldl take' (turning.rename f) = (ts.foldl take turning).rename f := by
  induction ts generalizing turning with
  | nil => rfl
  | cons t ts ih => rw [List.map_cons, List.foldl_cons, List.foldl_cons, h, ih]

variable (hstep : ∀ t, step' (t.rename f) = (step t).map (Thread.rename f)) (greedy : Bool) (place : Place)
include hstep

theorem rename_again {take take' : Turning → Thread → Turning}
    (h : ∀ turning t, take' (turning.rename f) (t.rename f) = (take turning t).rename f) (turning : Turning) (t : Thread) :
    (if (turning.rename f).begun.contains (t.rename f).offset then turning.rename f
      else (step' (t.rename f)).foldl take' ((turning.rename f).begin (t.rename f))) =
    (if turning.begun.contains t.offset then turning else (step t).foldl take (turning.begin t)).rename f := by
  have hbegun : (turning.rename f).begun = turning.begun := rfl
  have hoffset : (t.rename f).offset = t.offset := rfl
  rw [hbegun, hoffset]
  split
  · rfl
  · rw [hstep]
    exact rename_foldl h (turning.begin t) (step t)

theorem rename_turn (bound : Nat) (turning : Turning) (t : Thread) :
    turn step' greedy place bound (turning.rename f) (t.rename f) = (turn step greedy place bound turning t).rename f := by
  induction bound generalizing turning t with
  | zero => exact turning.rename_leave f t
  | succ bound ih =>
    rw [turn, turn, Thread.rename_pass?]
    cases t.pass? place with
    | none => rfl
    | some s =>
      dsimp only [Option.map_some]
      cases greedy with
      | true =>
        simp only [if_true]
        rw [rename_again hstep ih, Turning.rename_leave]
      | false =>
        simp only [Bool.false_eq_true, if_false]
        rw [Turning.rename_leave, rename_again hstep ih]

theorem rename_iterate (turning : Turning) (t : Thread) :
    iterate step' greedy place (turning.rename f) (t.rename f) = (iterate step greedy place turning t).rename f :=
  rename_again hstep (rename_turn hstep greedy place _) turning t

theorem rename_iterateAny (first : Place) (turning : Turning) (t : Thread) :
    iterateAny step' greedy first place (turning.rename f) (t.rename f) =
      (iterateAny step greedy first place turning t).rename f := by
  rw [iterateAny, iterateAny, Thread.rename_pass?]
  cases t.pass? first with
  | none => rfl
  | some s =>
    dsimp only [Option.map_some]
    cases greedy with
    | true =>
      simp only [if_true]
      rw [rename_iterate hstep, Turning.rename_leave]
    | false =>
      simp only [Bool.false_eq_true, if_false]
      rw [Turning.rename_leave, rename_iterate hstep]

end Repetition

section Runs

variable {f : String → String}

theorem renames_behind {take take' : Turning → Thread → Turning} (place : Place)
    (h : ∀ turning t, take' (turning.rename f) (t.rename f) = (take turning t).rename f) :
    Renames f (behind place take) (behind place take') := by
  have hstart : Turning.start.rename f = Turning.start := rfl
  intro ts
  cases place with
  | none =>
    have hfold := rename_foldl h .start ts
    rw [hstart] at hfold
    rw [behind, behind, hfold]
    exact Front.threads_rename f _
  | some path =>
    have htake (t : Thread) : (take' .start (t.rename f)).front.threads =
        (take .start t).front.threads.map (Thread.rename f) := by
      have hone := h .start t
      rw [hstart] at hone
      rw [hone]
      exact Front.threads_rename f _
    rw [behind, behind, ← renames_distinct, List.flatMap_map, List.map_flatMap]
    simp only [htake]

theorem renames_inTurn {steps steps' : List (List Thread → List Thread)} (h : List.Forall₂ (Renames f) steps steps') :
    Renames f (inTurn steps) (inTurn steps') := by
  induction h with
  | nil => exact .id
  | cons hstep _ ih => exact ih.comp hstep

theorem renames_upTo {step step' : Nat → List Thread → List Thread} (h : ∀ i, Renames f (step i) (step' i)) (greedy : Bool)
    (place : Nat → Place) (count : Nat) : Renames f (upTo step greedy place count) (upTo step' greedy place count) := by
  induction count with
  | zero => exact .id
  | succ count ih =>
    have hpass : Renames f (List.filterMap (·.pass? (place count))) (List.filterMap (·.pass? (place count))) :=
      .filterMap fun t ↦ t.rename_pass? f (place count)
    have hagain := ih.comp (h count)
    intro ts
    cases ts with
    | nil => rfl
    | cons t ts =>
      rw [List.map_cons, upTo, upTo, ← List.map_cons, hpass]
      · cases greedy with
        | true => exact Renames.prefer hagain .id _
        | false => exact Renames.prefer .id hagain _
      · exact nofun
      · exact nofun

/-- With other names for its groups an expression reaches the same positions, and captures under the other names. -/
theorem run_rename (r : Regex) (place : Place) : Renames f (run place r) (run place (r.rename f)) := by
  induction r generalizing place with
  | empty => exact .id
  | set chars => exact .filterMap fun t ↦ t.rename_advance? f chars
  | look condition => exact .filter fun t ↦ rfl
  | seq a b iha ihb => exact (ihb _).comp (iha _)
  | alt a b iha ihb =>
    exact (Renames.prefer (iha _) (ihb _)).comp (.filterMap fun t ↦ t.rename_pass? f place)
  | «repeat» min max greedy body ih =>
    have hrequired (place : Place) (count : Nat) :
        Renames f (inTurn ((List.range count).map fun i ↦ run (place.part 0 i) body))
          (inTurn ((List.range count).map fun i ↦ run (place.part 0 i) (body.rename f))) := by
      refine renames_inTurn ?_
      rw [List.forall₂_map_left_iff, List.forall₂_map_right_iff, List.forall₂_same]
      exact fun i _ ↦ ih _
    cases max with
    | some max => exact (renames_upTo (fun i ↦ ih _) greedy _ _).comp (hrequired place min)
    | none =>
      have hstep (place : Place) (t : Thread) :
          run place (body.rename f) [t.rename f] = (run place body [t]).map (Thread.rename f) := ih place [t]
      intro ts
      rw [rename, run_repeat_none, run_repeat_none, leastLength_rename]
      generalize (if place.isNone ∧ body.leastLength = 0 then some [] else place) = within
      have htake : ∀ turning t, takeAny (body.rename f) min greedy within (turning.rename f) (t.rename f) =
          (takeAny body min greedy within turning t).rename f := by
        intro turning t
        unfold takeAny
        rw [leastLength_rename]
        split
        · exact rename_iterateAny (hstep _) greedy _ _ turning t
        · exact rename_iterate (hstep _) greedy _ turning t
      have hforget : Renames f (List.map (Thread.forgetIn place)) (List.map (Thread.forgetIn place)) :=
        .map fun t ↦ t.rename_forgetIn f place
      exact (hforget.comp ((renames_behind within htake).comp (hrequired within (min - 1)))) ts
  | group name body ih =>
    cases name with
    | none => exact ih place
    | some name =>
      have hmark : Renames f (List.map Thread.mark) (List.map Thread.mark) := .map fun _ ↦ rfl
      have hcapture : Renames f (List.map fun t ↦ (t.capture name).unmark)
          (List.map fun t ↦ (t.capture (f name)).unmark) := .map fun t ↦ congrArg Thread.unmark (t.rename_capture f name)
      exact hcapture.comp ((ih place).comp hmark)

theorem search_rename (r : Regex) (text : List Char) :
    (r.rename f).search text = (r.search text).map (Thread.rename f) := by
  have hfrom (offset : Nat) (before : Option Char) (text : List Char) :
      searchFrom (r.rename f) offset before text = (searchFrom r offset before text).map (Thread.rename f) := by
    have hrun (offset : Nat) (before : Option Char) (text : List Char) :
        run none (r.rename f) [.start offset before text] =
          (run none r [.start offset before text]).map (Thread.rename f) := run_rename r none [.start offset before text]
    induction text generalizing offset before with
    | nil => rw [searchFrom, searchFrom, hrun, List.head?_map]
    | cons c rest ih =>
      rw [searchFrom, searchFrom, hrun, List.head?_map, ih]
      cases (run none r [.start offset before (c :: rest)]).head? <;> rfl
  exact hfrom 0 none text

end Runs

end PathBinding.Regex
