import Mathlib.Data.List.Flatten
import PathBinding.Proofs.Regex.Descent
import PathBinding.Proofs.Regex.Reads

/-!
The names of groups. Putting parts together takes no name twice (`groupNames_sequence`, `groupNames_alternation`,
`groupNames_repetition`), and the reader refuses a second group of one name, so the groups of an expression that was read
have names of their own (`nodup_groupNames`).
-/

set_option autoImplicit false
set_option relaxedAutoImplicit false

namespace PathBinding.Regex

/-! ### Expressions put together -/

theorem groupNames_foldl_seq (rs : List Regex) (first : Regex) :
    (rs.foldl (fun whole part ↦ if part = .empty then whole else .seq whole part) first).groupNames =
      first.groupNames ++ rs.flatMap groupNames := by
  induction rs generalizing first with
  | nil => simp
  | cons r rs ih =>
    rw [List.foldl_cons, ih, List.flatMap_cons]
    by_cases hr : r = .empty
    · rw [if_pos hr, hr]
      rfl
    · rw [if_neg hr, groupNames, List.append_assoc]

theorem groupNames_sequence (rs : List Regex) : (sequence rs).groupNames = rs.flatMap groupNames := by
  induction rs with
  | nil => rfl
  | cons r rs ih =>
    cases r with
    | empty => exact ih
    | _ => exact groupNames_foldl_seq rs _

theorem groupNames_altAll (rs : List Regex) : (altAll rs).groupNames = rs.flatMap groupNames := by
  induction rs with
  | nil => rfl
  | cons r rs ih =>
    cases rs with
    | nil => simp [altAll]
    | cons s rs =>
      rw [altAll, groupNames, ih, List.flatMap_cons (x := r)]
      exact List.cons_ne_nil s rs

theorem groupNames_repetition (min : Nat) (max : Option Nat) (greedy : Bool) (body : Regex) :
    (repetition min max greedy body).groupNames.Sublist body.groupNames := by
  unfold repetition
  generalize (if body.consumesNothing then (Nat.min min 1, some (Nat.min (max.getD 1) 1)) else (min, max)) = bounds
  obtain ⟨least, most⟩ := bounds
  dsimp only
  split
  · exact List.nil_sublist _
  · split
    · exact List.Sublist.refl _
    · exact List.Sublist.refl _

theorem groupNames_parts (r : Regex) : r.parts.flatMap groupNames = r.groupNames := by
  induction r with
  | seq a b iha ihb => rw [parts, List.flatMap_append, iha, ihb, groupNames]
  | empty => rfl
  | _ => simp [parts]

theorem groupNames_branches (r : Regex) : r.branches.flatMap groupNames = r.groupNames := by
  induction r with
  | alt a b iha ihb => rw [branches, List.flatMap_append, iha, ihb, groupNames]
  | _ => simp [branches]

theorem groupNames_literal (text : List CharSet) : (Factor.literal text).toRegex.groupNames = [] := by
  rw [Factor.toRegex, groupNames_sequence]
  simp [groupNames]

theorem groupNames_ofPart (r : Regex) : (Factor.ofPart r).toRegex.groupNames = r.groupNames := by
  unfold Factor.ofPart
  split
  · split
    · exact groupNames_literal _
    · rfl
  · rfl

theorem groupNames_ofParts (rs : List Regex) :
    (Factor.ofParts rs).flatMap (fun f ↦ f.toRegex.groupNames) = rs.flatMap groupNames := by
  induction rs with
  | nil => rfl
  | cons r rs ih =>
    rw [List.flatMap_cons, ← ih, ← groupNames_ofPart r, Factor.ofParts]
    split
    · next a b factors ha hb =>
      rw [ha, hb]
      simp [groupNames_literal]
    · rfl

theorem groupNames_join (factors : List Factor) :
    (Factor.join factors).groupNames = factors.flatMap fun f ↦ f.toRegex.groupNames := by
  rw [Factor.join, groupNames_sequence, List.flatMap_map]

theorem groupNames_factors (r : Regex) :
    (Factor.ofParts r.parts).flatMap (fun f ↦ f.toRegex.groupNames) = r.groupNames := by
  rw [groupNames_ofParts, groupNames_parts]

/-- Without the factors that they begin with, alternatives have no more groups than with them. -/
theorem groupNames_tails (count : Nat) (rs : List Regex) :
    ((rs.map fun r ↦ Factor.join ((Factor.ofParts r.parts).drop count)).flatMap groupNames).Sublist
      (rs.flatMap groupNames) := by
  induction rs with
  | nil => exact List.Sublist.refl _
  | cons r rs ih =>
    rw [List.map_cons, List.flatMap_cons, List.flatMap_cons, groupNames_join]
    refine List.Sublist.append ?_ ih
    have hdrop := (List.drop_sublist count (Factor.ofParts r.parts)).flatMap fun f ↦ f.toRegex.groupNames
    rwa [groupNames_factors] at hdrop

theorem groupNames_alternationWithin (bound : Nat) (rs : List Regex) :
    (alternationWithin bound rs).groupNames.Sublist (rs.flatMap groupNames) := by
  induction bound generalizing rs with
  | zero => rw [alternationWithin, groupNames_altAll]
  | succ bound ih =>
    have hflat : (rs.flatMap branches).flatMap groupNames = rs.flatMap groupNames := by
      rw [List.flatMap_assoc]
      simp only [groupNames_branches]
    rw [← hflat, alternationWithin]
    generalize rs.flatMap branches = rs
    match rs with
    | [] => exact List.nil_sublist _
    | [r] => simp
    | first :: second :: rest =>
      dsimp only
      split
      · exact List.nil_sublist _
      · split
        · rw [groupNames_altAll]
        · -- The common beginning is the first alternative's.
          rw [groupNames_sequence, List.flatMap_append, List.flatMap_map, List.flatMap_singleton, List.flatMap_cons,
            ← groupNames_factors first]
          generalize (((second :: rest).map fun r ↦ Factor.sharedCount (Factor.ofParts first.parts)
            (Factor.ofParts r.parts)).foldl Nat.min (Factor.ofParts first.parts).length) = count
          refine ((List.Sublist.refl _).append (ih _)).trans ?_
          have htails := groupNames_tails count (second :: rest)
          rw [List.map_map, List.map_cons, List.flatMap_cons, Function.comp_apply, groupNames_join, ← List.append_assoc,
            ← List.flatMap_append, List.take_append_drop]
          exact (List.Sublist.refl _).append htails

theorem groupNames_alternation (rs : List Regex) :
    (alternation rs).groupNames.Sublist (rs.flatMap groupNames) :=
  groupNames_alternationWithin _ rs

/-! ### Expressions read from a text -/

theorem Token.groupNames_of_literal {flags : Flags} {c : Char} {byte : Bool} {r : Regex}
    (h : literal? flags c byte = some r) : r.groupNames = [] := by
  unfold literal? at h
  split at h
  · cases h
    rfl
  · split at h
    · cases h
    · split at h <;> cases h <;> rfl

theorem Token.groupNames_of_atom {flags : Flags} {c : Char} {x y : List Char} {r : Regex} {height : Nat}
    (h : Token.read flags c x = some (.atom r height, y)) : r.groupNames = [] := by
  unfold Token.read at h
  split at h
  · cases isOpening_of_openGroup h
  iterate 2 cases h
  · obtain ⟨_, _, hsame⟩ := Option.map_eq_some_iff.mp h
    cases hsame
    rfl
  iterate 3 cases h
  · obtain ⟨_, _, h⟩ := Option.bind_eq_some_iff.mp h
    obtain ⟨_, _, h⟩ := Option.bind_eq_some_iff.mp h
    obtain ⟨_, _, h⟩ := Option.bind_eq_some_iff.mp h
    cases h
  · obtain ⟨r, hr, hsame⟩ := Option.map_eq_some_iff.mp h
    cases hsame
    unfold dot? at hr
    split at hr
    · cases hr
    · split at hr
      · cases hr
        rfl
      · split at hr <;> cases hr <;> rfl
  iterate 2
    cases h
    rfl
  · obtain ⟨⟨primitive, rest⟩, _, h⟩ := Option.bind_eq_some_iff.mp h
    obtain ⟨r, hr, h⟩ := Option.bind_eq_some_iff.mp h
    cases h
    cases primitive with
    | literal c byte => exact groupNames_of_literal hr
    | set chars =>
      cases hr
      rfl
    | look condition =>
      cases hr
      rfl
  · obtain ⟨r, hr, hsame⟩ := Option.map_eq_some_iff.mp h
    cases hsame
    exact groupNames_of_literal hr

def Level.groupNames (level : Level) : List String :=
  (level.alternatives ++ level.parts).flatMap (·.regex.groupNames)

/-- The groups around a level, of which the innermost is not complete. -/
def Enclosing.groupNames (outer : Enclosing) : List String :=
  (match outer.grouping with
    | .capturing (some name) => [name]
    | _ => []) ++ outer.level.groupNames

/-- The groups that have been read so far. -/
def Parsing.groupNames (p : Parsing) : List String :=
  p.level.groupNames ++ p.enclosing.flatMap Enclosing.groupNames

theorem count_push (name : String) (level : Level) (part : Part) :
    (level.push part).groupNames.count name = part.regex.groupNames.count name + level.groupNames.count name := by
  simp only [Level.groupNames, Level.push, List.flatMap_append, List.flatMap_cons, List.count_append]
  omega

theorem count_sequence (name : String) (level : Level) :
    level.sequence.regex.groupNames.count name = (level.parts.flatMap (·.regex.groupNames)).count name := by
  rw [Level.sequence, groupNames_sequence, List.flatMap_map]
  exact ((List.reverse_perm level.parts).flatMap_right _).count_eq name

theorem count_bar (name : String) (level : Level) : level.bar.groupNames.count name = level.groupNames.count name := by
  simp only [Level.groupNames, Level.bar, List.append_nil, List.flatMap_cons, List.flatMap_append, List.count_append,
    count_sequence]
  omega

theorem count_close (name : String) (level : Level) :
    level.close.regex.groupNames.count name ≤ level.groupNames.count name := by
  have hsub := (groupNames_alternation ((level.sequence :: level.alternatives).reverse.map (·.regex))).count_le name
  refine hsub.trans_eq ?_
  rw [List.flatMap_map, ((List.reverse_perm _).flatMap_right _).count_eq name, List.flatMap_cons, List.count_append,
    count_sequence, Level.groupNames, List.flatMap_append, List.count_append]
  omega

/-- The groups read so far have names of their own. -/
structure Parsing.Distinct (p : Parsing) : Prop where
  count_le : ∀ name, p.groupNames.count name ≤ p.names.count name
  nodup : p.names.Nodup

theorem distinct_of_take {p q : Parsing} {token : Token} (hp : p.Distinct) (h : p.take token = some q)
    (hatom : ∀ r height, token = .atom r height → r.groupNames = []) : q.Distinct := by
  have hcount (name : String) : p.level.groupNames.count name +
      (p.enclosing.flatMap Enclosing.groupNames).count name ≤ p.names.count name := by
    have := hp.count_le name
    rwa [Parsing.groupNames, List.count_append] at this
  -- A part without groups, or none, is added to the level.
  have hlevel {level : Level} {flags : Flags} (hle : ∀ name, level.groupNames.count name ≤ p.level.groupNames.count name) :
      (⟨flags, p.names, p.enclosing, level⟩ : Parsing).Distinct := by
    refine ⟨fun name ↦ ?_, hp.nodup⟩
    rw [Parsing.groupNames, List.count_append]
    exact (Nat.add_le_add_right (hle name) _).trans (hcount name)
  have hplain {flags : Flags} (grouping : Grouping) (hgrouping : ∀ name, grouping ≠ .capturing (some name)) :
      (p.enter grouping flags).Distinct := by
    refine ⟨fun name ↦ (Nat.le_of_eq ?_).trans (hp.count_le name), hp.nodup⟩
    rw [Parsing.groupNames, Parsing.groupNames, Parsing.enter, List.flatMap_cons, Enclosing.groupNames]
    split
    · next own howner => exact absurd howner (hgrouping own)
    · rfl
  cases token with
  | atom r height =>
    cases h
    refine hlevel fun name ↦ ?_
    rw [count_push, hatom r height rfl, List.count_nil, Nat.zero_add]
  | «repeat» min max greedy =>
    simp only [Parsing.take, Parsing.repeatLast] at h
    split at h
    · cases h
    next part parts hparts =>
    split at h
    swap
    · cases h
    cases h
    refine hlevel fun name ↦ ?_
    have hbody := (groupNames_repetition min max (greedy != p.flags.swapGreed) part.regex).count_le name
    simp only [Level.groupNames, hparts, List.flatMap_append, List.flatMap_cons, List.count_append]
    omega
  | bar =>
    cases h
    exact hlevel fun name ↦ Nat.le_of_eq (count_bar name p.level)
  | close =>
    simp only [Parsing.take, Parsing.leave] at h
    split at h
    · cases h
    next outer enclosing henclosing =>
    cases h
    refine ⟨fun name ↦ le_trans ?_ (hcount name), hp.nodup⟩
    have hclose := count_close name p.level
    have haround : (outer.grouping.around p.level.close.regex).groupNames.count name +
        outer.level.groupNames.count name ≤ p.level.groupNames.count name + outer.groupNames.count name := by
      rw [Enclosing.groupNames, List.count_append]
      cases outer.grouping with
      | plain => exact Nat.add_le_add hclose (Nat.le_add_left _ _)
      | capturing own =>
        cases own with
        | none => exact Nat.add_le_add hclose (Nat.le_add_left _ _)
        | some own =>
          simp only [Grouping.around, Regex.groupNames, List.count_cons, List.count_nil]
          omega
    rw [henclosing, List.flatMap_cons, List.count_append, Parsing.groupNames, List.count_append, count_push]
    dsimp only
    omega
  | group own =>
    cases own with
    | none =>
      cases h
      exact hplain _ fun name ↦ by simp
    | some own =>
      simp only [Parsing.take] at h
      split at h
      · cases h
      next hown =>
      cases h
      refine ⟨fun name ↦ ?_, List.nodup_cons.mpr ⟨hown, hp.nodup⟩⟩
      have := hcount name
      simp only [Parsing.groupNames, Parsing.enter, Enclosing.groupNames, List.flatMap_cons, List.count_append,
        List.count_cons, List.count_nil]
      simp only [Level.groupNames, Level.empty, List.append_nil, List.flatMap_nil, List.count_nil]
      simp only [Level.groupNames] at this
      omega
  | scope changes =>
    cases h
    exact hplain _ fun name ↦ by simp
  | switch changes =>
    cases h
    refine hlevel fun name ↦ ?_
    rw [count_push]
    simp [Regex.groupNames]

theorem Reads.distinct {k : Nat} {p q : Parsing} {x y : List Char} (h : Reads k p x q y) (hp : p.Distinct) :
    q.Distinct := by
  induction h with
  | done => exact hp
  | token blanks read take _ ih =>
    refine ih (distinct_of_take hp take fun r height htoken ↦ ?_)
    subst htoken
    exact Token.groupNames_of_atom read

/-- No two groups of an expression that was read have one name. -/
theorem nodup_groupNames {source : List Char} {r : Regex} (h : parse? source = some r) : r.groupNames.Nodup := by
  obtain ⟨p, hp, h⟩ := Option.bind_eq_some_iff.mp h
  obtain ⟨k, y, hreads, -⟩ := Reads.of_takeAll hp
  have hdistinct : p.Distinct := hreads.distinct ⟨fun name ↦ Nat.le_refl 0, List.nodup_nil⟩
  obtain ⟨_, _, h⟩ := Option.bind_eq_some_iff.mp h
  obtain ⟨_, _, h⟩ := Option.bind_eq_some_iff.mp h
  cases h
  refine List.nodup_iff_count_le_one.mpr fun name ↦ ?_
  have hcount := hdistinct.count_le name
  rw [Parsing.groupNames, List.count_append] at hcount
  have hclose := count_close name p.level
  have hnames := List.nodup_iff_count_le_one.mp hdistinct.nodup name
  omega

end PathBinding.Regex
