import Mathlib.Data.List.Pairwise
import PathBinding.Proofs.Completion
import PathBinding.Proofs.Expansion
import PathBinding.Proofs.Regex.Values

/-!
What a query binds. A pair binds the parameter of the first declared query part that has its key and whose expression
matches its value in full (`Fragment.binds?`). Of the pairs that bind a parameter the last counts, so pairs that bind none
can come and go, and neighbours that bind different parameters can change places (`lastValue?_rearranged`). This is what
the winning pattern captures (`select_values`) if the expressions in its path can be held together and no value of its
query contains an ampersand. An expression in the path that cannot be held together, and a fragment elsewhere that is not
one group, can take pairs away (`select_swallowed`).
-/

set_option autoImplicit false
set_option relaxedAutoImplicit false

namespace PathBinding

open Regex Relation

namespace Fragment

/-! ### What pairs bind -/

section Pairs

variable (declaration : Declaration) (filling : String → String)

/-- The value that a pair has for a query part, if it has the key and the expression matches the value in full. The key is
compared character by character. -/
def QueryPart.value? (part : QueryPart) (pair : List Char) : Option (List Char) :=
  let value := pair.drop (part.key.toList.length + 1)
  if pair = part.key.toList ++ '=' :: value ∧
      FullyMatches (regexOf declaration filling true part.name part.inline?) value then some value
  else none

/-- The parameter that a pair binds, with its value: that of the first query part that the pair has a value for. -/
def binds? (parts : List QueryPart) (pair : List Char) : Option (String × List Char) :=
  parts.findSome? fun part ↦ (part.value? declaration filling pair).map (part.name, ·)

/-- The value that the last of some pairs binds a parameter to. -/
def lastValue? (parts : List QueryPart) (pairs : List (List Char)) (name : String) : Option (List Char) :=
  (pairs.filterMap (binds? declaration filling parts)).reverse.lookup name

end Pairs

/-- One list of pairs comes from another by putting in a pair that binds nothing, or by exchanging neighbours that bind
different parameters. -/
inductive Rearranges (binds : List Char → Option (String × List Char)) : List (List Char) → List (List Char) → Prop
  | insert (before after : List (List Char)) {pair : List Char} (h : binds pair = none) :
    Rearranges binds (before ++ after) (before ++ pair :: after)
  | swap (before after : List (List Char)) {pair other : List Char} {first second : String × List Char}
    (h : binds pair = some first) (h' : binds other = some second) (hne : first.1 ≠ second.1) :
    Rearranges binds (before ++ pair :: other :: after) (before ++ other :: pair :: after)

variable {declaration : Declaration} {filling : String → String} {parts : List QueryPart}

theorem QueryPart.value?_eq_some {part : QueryPart} {pair value : List Char} :
    part.value? declaration filling pair = some value ↔ pair = part.key.toList ++ '=' :: value ∧
      FullyMatches (regexOf declaration filling true part.name part.inline?) value := by
  have hdrop : (part.key.toList ++ '=' :: value).drop (part.key.toList.length + 1) = value := by
    rw [List.append_cons]
    exact List.drop_left' (by simp)
  unfold QueryPart.value?
  dsimp only
  constructor
  · intro h
    split at h
    · next hpair =>
      cases h
      exact hpair
    · cases h
  · rintro ⟨rfl, hmatch⟩
    rw [hdrop, if_pos ⟨rfl, hmatch⟩]

theorem lookup_toList {binding : Option (String × List Char)} {name : String} {value : List Char} :
    binding.toList.lookup name = some value ↔ binding = some (name, value) := by
  cases binding with
  | none => simp
  | some own =>
    obtain ⟨key, v⟩ := own
    rw [Option.toList_some, List.lookup_cons]
    by_cases hname : name = key
    · simp [hname]
    · have hne : (name == key) = false := beq_eq_false_iff_ne.mpr hname
      simp [hne, Ne.symm hname]

theorem lastValue?_concat (pairs : List (List Char)) (last : List Char) (name : String) :
    lastValue? declaration filling parts (pairs ++ [last]) name =
      ((binds? declaration filling parts last).toList.lookup name).or
        (lastValue? declaration filling parts pairs name) := by
  unfold lastValue?
  rw [List.filterMap_append, List.reverse_append, List.lookup_append, List.filterMap_cons, List.filterMap_nil]
  cases binds? declaration filling parts last <;> rfl

/-- A parameter is bound to a value by a pair behind which no pair binds it. -/
theorem lastValue?_eq_some {pairs : List (List Char)} {name : String} {value : List Char} :
    lastValue? declaration filling parts pairs name = some value ↔ ∃ before pair after, pairs = before ++ pair :: after ∧
      binds? declaration filling parts pair = some (name, value) ∧
      ∀ later ∈ after, ∀ other, binds? declaration filling parts later ≠ some (name, other) := by
  induction pairs using List.reverseRecOn with
  | nil =>
    refine iff_of_false nofun ?_
    rintro ⟨before, pair, after, hnil, -⟩
    simp at hnil
  | append_singleton pairs last ih =>
    rw [lastValue?_concat]
    constructor
    · intro h
      cases hlast : (binds? declaration filling parts last).toList.lookup name with
      | some own =>
        rw [hlast] at h
        cases h
        refine ⟨pairs, last, [], rfl, ?_, fun _ hlater ↦ absurd hlater List.not_mem_nil⟩
        exact lookup_toList.mp hlast
      | none =>
        rw [hlast, Option.none_or, ih] at h
        obtain ⟨before, pair, after, rfl, hpair, hafter⟩ := h
        refine ⟨before, pair, after ++ [last], by simp, hpair, ?_⟩
        refine List.forall_mem_append.mpr ⟨hafter, List.forall_mem_singleton.mpr fun other hother ↦ ?_⟩
        rw [lookup_toList.mpr hother] at hlast
        cases hlast
    · rintro ⟨before, pair, after, hpairs, hpair, hafter⟩
      induction after using List.reverseRecOn with
      | nil =>
        obtain ⟨-, hlast⟩ := List.append_inj' hpairs rfl
        rw [List.singleton_inj.mp hlast, lookup_toList.mpr hpair, Option.some_or]
      | append_singleton after own _ =>
        rw [← List.cons_append, ← List.append_assoc] at hpairs
        obtain ⟨hpairs, hlast⟩ := List.append_inj' hpairs rfl
        obtain ⟨hafter, hown⟩ := List.forall_mem_append.mp hafter
        have hnone : (binds? declaration filling parts last).toList.lookup name = none := by
          rw [Option.eq_none_iff_forall_ne_some]
          intro other hother
          rw [List.singleton_inj.mp hlast] at hother
          exact hown own List.mem_cons_self other (lookup_toList.mp hother)
        rw [hnone, Option.none_or]
        exact ih.mpr ⟨before, pair, after, hpairs, hpair, hafter⟩

/-- The last values stay the same in whatever order the pairs of different parameters come, and whatever pairs that bind
nothing stand between them. -/
theorem lastValue?_rearranged {pairs pairs' : List (List Char)}
    (h : EqvGen (Rearranges (binds? declaration filling parts)) pairs pairs') (name : String) :
    lastValue? declaration filling parts pairs name = lastValue? declaration filling parts pairs' name := by
  induction h with
  | rel pairs pairs' hstep =>
    unfold lastValue?
    cases hstep with
    | insert before after hnone => rw [List.filterMap_append, List.filterMap_append, List.filterMap_cons, hnone]
    | @swap before after pair other first second hfirst hsecond hne =>
      obtain ⟨own, value⟩ := first
      obtain ⟨own', value'⟩ := second
      have hlookup (rest : List (String × List Char)) :
          ((own', value') :: (own, value) :: rest).lookup name = ((own, value) :: (own', value') :: rest).lookup name := by
        simp only [List.lookup_cons]
        by_cases hname : name = own
        · have hother : (name == own') = false := beq_eq_false_iff_ne.mpr fun heq ↦ hne (hname.symm.trans heq)
          rw [hother]
        · rw [beq_eq_false_iff_ne.mpr hname]
      simp only [List.filterMap_append, List.filterMap_cons, hfirst, hsecond, List.reverse_append, List.reverse_cons,
        List.append_assoc, List.singleton_append, List.lookup_append, hlookup]
  | refl pairs => rfl
  | symm _ _ _ ih => exact ih.symm
  | trans _ _ _ _ _ ih ih' => exact ih.trans ih'

/-! ### Query parts as branches -/

/-- The expression of a value can be held together, has no conditions on positions and matches no text with an ampersand in
full. -/
def IsPairRegex (regex : String) : Prop :=
  ∃ body, held? regex = some body ∧ body.lookFree = true ∧ ∀ value, FullyMatches regex value → '&' ∉ value

theorem IsPairRegex.isSelfContained {regex : String} (h : IsPairRegex regex) : IsSelfContained regex := by
  obtain ⟨body, hbody, -, -⟩ := h
  rw [IsSelfContained, hbody]
  rfl

/-- An expression that does not mention ampersands matches no text with one. -/
theorem isPairRegex_of_mentions {regex : String}
    (h : (held? regex).any (fun body ↦ body.lookFree && !body.mentions '&') = true) : IsPairRegex regex := by
  obtain ⟨body, hbody, hboth⟩ := (Option.any_eq_true _ _).mp h
  obtain ⟨hfree, hmentions⟩ := Bool.and_eq_true_iff.mp hboth
  refine ⟨body, hbody, hfree, ?_⟩
  rintro value ⟨own, hown, hmatch⟩
  cases hbody.symm.trans hown
  exact notMem_of_accepts (by simpa using hmentions) ((search_anchored_isSome body value).mp hmatch)

/-- A query part as a branch of a pair. -/
def QueryPart.branch (context : Context) (filling : String → String) (part : QueryPart) : Branch :=
  ⟨part.key.toList, Definition.groupNameIn (Definition.fragmentName context.index) part.name,
    bodyOf (regexOf context.declaration filling true part.name part.inline?)⟩

section Branches

variable {context : Context} {part : QueryPart}

theorem isSeparate_branch (hkey : isQueryKey part.key = true)
    (h : IsPairRegex (regexOf context.declaration filling true part.name part.inline?)) :
    (part.branch context filling).IsSeparate := by
  obtain ⟨body, hbody, hfree, hvalue⟩ := id h
  have hbodyOf : (part.branch context filling).body = body := by
    unfold QueryPart.branch bodyOf
    rw [hbody]
    rfl
  refine ⟨hbodyOf ▸ hfree, fun hin ↦ ?_, fun v hv ↦ hvalue v ((fullyMatches_iff h.isSelfContained v).mpr hv)⟩
  have hall := List.all_eq_true.mp (Bool.and_eq_true_iff.mp hkey).2 '&' hin
  cases hall

theorem value?_branch (h : IsSelfContained (regexOf context.declaration filling true part.name part.inline?))
    (pair : List Char) : (part.branch context filling).value? pair = part.value? context.declaration filling pair := by
  refine Option.ext fun value ↦ ?_
  rw [Branch.value?_eq_some, QueryPart.value?_eq_some, fullyMatches_iff h]
  rfl

/-- The branch of a pair is that of the parameter that the pair binds. -/
theorem bound?_branches (h : QuerySelfContained context filling parts) (pair : List Char) :
    bound? (parts.map (QueryPart.branch context filling)) pair = (binds? context.declaration filling parts pair).map fun b ↦
      (Definition.groupNameIn (Definition.fragmentName context.index) b.1, b.2) := by
  induction parts with
  | nil => rfl
  | cons part parts ih =>
    obtain ⟨hpart, h⟩ := List.forall_mem_cons.mp h
    rw [bound?, binds?, List.map_cons, List.findSome?_cons, List.findSome?_cons, value?_branch hpart]
    cases part.value? context.declaration filling pair with
    | none => exact ih h
    | some value => rfl

theorem lookup_map_of_injective {α : Type} {f : String → String} (hf : Function.Injective f) (bindings : List (String × α))
    (name : String) : (bindings.map fun b ↦ (f b.1, b.2)).lookup (f name) = bindings.lookup name := by
  induction bindings with
  | nil => rfl
  | cons binding rest ih =>
    have hname : (f name == f binding.1) = (name == binding.1) := by
      rw [Bool.eq_iff_iff, beq_iff_eq, beq_iff_eq, hf.eq_iff]
    rw [List.map_cons, List.lookup_cons, List.lookup_cons, hname, ih]

/-- No two groups of a query have one name. -/
theorem isOwn_of_nodup
    (hnodup : (Regex.pair (parts.map (QueryPart.regexes context filling))).groupNames.Nodup) (hpart : part ∈ parts) :
    IsOwn (parts.map (QueryPart.branch context filling)) (part.branch context filling).name := by
  rw [groupNames_pair, List.flatMap_map, List.nodup_flatMap] at hnodup
  obtain ⟨-, hdisjoint⟩ := hnodup
  intro b hb hne hin
  obtain ⟨other, hother, rfl⟩ := List.mem_map.mp hb
  have hparts : part ≠ other := fun heq ↦ hne (heq ▸ rfl)
  have hsymm : Std.Symm (Function.onFun List.Disjoint fun part : QueryPart ↦
      (part.regexes context filling).flatMap groupNames) := ⟨fun _ _ h ↦ List.disjoint_symm h⟩
  have hown : (part.branch context filling).name ∈ (part.regexes context filling).flatMap groupNames := by
    rw [groupNames_queryPart]
    exact List.mem_cons_self
  have hother' : (part.branch context filling).name ∈ (other.regexes context filling).flatMap groupNames := by
    rw [groupNames_queryPart]
    exact List.mem_cons_of_mem _ hin
  exact hdisjoint.forall hpart hother hparts hown hother'

theorem mem_groupNames_branch (hpart : part ∈ parts) :
    (part.branch context filling).name ∈ (pair (parts.map (QueryPart.regexes context filling))).groupNames := by
  rw [groupNames_pair]
  refine List.mem_flatMap.mpr ⟨_, List.mem_map_of_mem hpart, ?_⟩
  rw [groupNames_queryPart]
  exact List.mem_cons_self

theorem regexes_branches (context : Context) (filling : String → String) (parts : List QueryPart) :
    parts.map (QueryPart.regexes context filling) = (parts.map (QueryPart.branch context filling)).map Branch.regexes := by
  rw [List.map_map]
  rfl

/-- The last branches of pairs are those of the parameters that the pairs bind last. -/
theorem lookup_branches (h : QuerySelfContained context filling parts) (pairs : List (List Char)) (name : String) :
    (pairs.filterMap (bound? (parts.map (QueryPart.branch context filling)))).reverse.lookup
        (Definition.groupNameIn (Definition.fragmentName context.index) name) =
      lastValue? context.declaration filling parts pairs name := by
  have hfilter : pairs.filterMap (bound? (parts.map (QueryPart.branch context filling))) =
      (pairs.filterMap (binds? context.declaration filling parts)).map fun b ↦
        (Definition.groupNameIn (Definition.fragmentName context.index) b.1, b.2) := by
    rw [List.map_filterMap]
    exact List.filterMap_congr fun pair _ ↦ bound?_branches h pair
  have hinjective : Function.Injective (Definition.groupNameIn (Definition.fragmentName context.index)) :=
    fun _ _ h ↦ Definition.groupNameIn_inj h
  rw [hfilter, ← List.map_reverse]
  exact lookup_map_of_injective hinjective _ name

/-- Assumes: a text ends in an ampersand and has one question mark, and the expressions of the query fit in pairs. A match
of a path with the query captures the last values of the pairs. -/
theorem captured?_value {rs : List Regex} (hnodup : (Regex.group (some (Definition.fragmentName context.index))
      (sequence (rs ++ queryRegexes context filling parts))).groupNames.Nodup)
    (hkeys : ∀ part ∈ parts, isQueryKey part.key = true)
    (hparts : ∀ part ∈ parts, IsPairRegex (regexOf context.declaration filling true part.name part.inline?))
    {front rest : List Char} (hfront : '?' ∉ front) (hrest : '?' ∉ rest)
    (hend : (front ++ '?' :: rest).getLast? = some '&') {t : Thread}
    (ht : Mapping.matchAlone (.group (some (Definition.fragmentName context.index))
      (sequence (rs ++ queryRegexes context filling parts))) (front ++ '?' :: rest) = some t) (hpart : part ∈ parts) :
    t.captured? (Definition.groupNameIn (Definition.fragmentName context.index) part.name) =
      lastValue? context.declaration filling parts (rest.splitOn '&') part.name := by
  have hseparate : ∀ b ∈ parts.map (QueryPart.branch context filling), b.IsSeparate :=
    List.forall_mem_map.mpr fun part hpart ↦ isSeparate_branch (hkeys part hpart) (hparts part hpart)
  rw [queryRegexes] at ht hnodup
  rw [groupNames_query, List.nodup_cons] at hnodup
  obtain ⟨s, u, hon, hmark, hcloses, rfl, hnone⟩ := Mapping.closes_of_matchAlone hfront (Or.inl hrest) hend ht
  rw [regexes_branches] at hcloses
  have hvalue := captured?_closes hseparate hon hcloses hmark (isOwn_of_nodup (List.nodup_append.mp hnodup.2).2.1 hpart)
  -- The path captures nothing under the names of the query.
  rw [hnone _ fun hin ↦ List.disjoint_of_nodup_append hnodup.2 hin (mem_groupNames_branch hpart), Option.or_none]
    at hvalue
  rw [Mapping.captured?_capture _ (Definition.groupNameIn_ne _ part.name)]
  exact hvalue.trans (lookup_branches (fun part hpart ↦ (hparts part hpart).isSelfContained) _ part.name)

end Branches

end Fragment

/-- The path of pattern number `i` is a row of parts in front of the query, and the expressions of the query can be held
together. -/
def Declaration.IsRowAt (declaration : Declaration) (filling : String → String) (i : Nat) : Prop :=
  ∀ pattern path parts, declaration.Declares i pattern path parts →
    Fragment.IsRow (Fragment.segmentsText ⟨declaration, pattern.pattern, i⟩ filling path).toList ∧
    Fragment.QuerySelfContained ⟨declaration, pattern.pattern, i⟩ filling parts

namespace Mapping

open Fragment

section Matches

variable {declaration : Declaration} {filling : String → String} {front rest rest' : List Char}

/-- The group of a row matches whatever the query is. -/
theorem isNone_row {i : Nat} (hrow : declaration.IsRowAt filling i) {pattern : PatternDeclaration}
    (hpattern : declaration.patterns[i]? = some pattern) {c : Definition × Pieces}
    (hok : compile declaration pattern i = .ok c) {r : Regex} (hr : part? (c.2.fill filling).toList = some r)
    (hfront : '?' ∉ front) (hrest : '?' ∉ rest) (hrest' : '?' ∉ rest')
    (hend : (front ++ '?' :: rest).getLast? = some '&') (hend' : (front ++ '?' :: rest').getLast? = some '&') :
    (matchAlone r (front ++ '?' :: rest)).isNone = (matchAlone r (front ++ '?' :: rest')).isNone := by
  obtain ⟨path, parts, hdeclares⟩ := exists_declares hpattern hok
  obtain ⟨⟨rs, hrs⟩, hquery⟩ := hrow pattern path parts hdeclares
  rw [group_of_row ((hdeclares.compiled hok).2 filling) hrs hdeclares.queries hquery hr]
  exact isNone_of_rel (matchAlone_front _ rs _ hfront (Or.inl hrest) (Or.inl hrest') hend hend')

variable {context : Context} {path : List Segment} {parts : List QueryPart}

/-- The group of a pattern captures the same if the pairs of its query bind the same last values. -/
theorem match_rearranged (hnodup : (fragmentRegex context filling path parts).groupNames.Nodup)
    (hkeys : ∀ part ∈ parts, isQueryKey part.key = true)
    (hparts : ∀ part ∈ parts, IsPairRegex (Fragment.regexOf context.declaration filling true part.name part.inline?))
    (hfront : '?' ∉ front) (hrest : '?' ∉ rest) (hrest' : '?' ∉ rest')
    (hend : (front ++ '?' :: rest).getLast? = some '&') (hend' : (front ++ '?' :: rest').getLast? = some '&')
    (h : EqvGen (Rearranges (binds? context.declaration filling parts)) (rest.splitOn '&') (rest'.splitOn '&')) :
    Option.Rel (fun t u ↦ ∀ name ∈ (Segment.placeholdersAll path).map Prod.fst ++ parts.map QueryPart.name,
        let group := Definition.groupNameIn (Definition.fragmentName context.index) name
        u.captured? group = t.captured? group)
      (matchAlone (fragmentRegex context filling path parts) (front ++ '?' :: rest))
      (matchAlone (fragmentRegex context filling path parts) (front ++ '?' :: rest')) := by
  have hmatch := matchAlone_front (Definition.fragmentName context.index) (segmentsRegexes context filling path)
    (parts.map (QueryPart.regexes context filling)) hfront (Or.inl hrest) (Or.inl hrest') hend hend'
  have hvalue {rest : List Char} (hrest : '?' ∉ rest) (hend : (front ++ '?' :: rest).getLast? = some '&') (t : Thread)
      (ht : matchAlone (fragmentRegex context filling path parts) (front ++ '?' :: rest) = some t) (part : QueryPart)
      (hpart : part ∈ parts) := captured?_value hnodup hkeys hparts hfront hrest hend ht hpart
  have hvalue' := hvalue hrest' hend'
  replace hvalue := hvalue hrest hend
  change Option.Rel _ (matchAlone (fragmentRegex context filling path parts) _)
    (matchAlone (fragmentRegex context filling path parts) _) at hmatch
  generalize matchAlone (fragmentRegex context filling path parts) (front ++ '?' :: rest) = found at *
  generalize matchAlone (fragmentRegex context filling path parts) (front ++ '?' :: rest') = found' at *
  cases hmatch with
  | none => exact .none
  | @some t u hsame =>
    refine .some fun name hname ↦ ?_
    rcases List.mem_append.mp hname with hname | hname
    · obtain ⟨p, hp, rfl⟩ := List.mem_map.mp hname
      exact (hsame _ (Definition.groupNameIn_ne _ p.1) (notMem_pair_of_path hnodup hp)).1
    · obtain ⟨part, hpart, rfl⟩ := List.mem_map.mp hname
      exact (hvalue' u rfl part hpart).trans
        ((lastValue?_rearranged h part.name).symm.trans (hvalue t rfl part hpart).symm)

end Matches

variable {declaration : Declaration} {settings : Settings} {mapping : Mapping} {producers : Producers} {view : View}
  {regex : Regex}

/-- What the group of a pattern has been read from. -/
theorem compiled_of_group {filling : String → String} {compiled : List (Definition × Pieces)} {groups : List Regex}
    (hcompiled : compileFrom declaration 0 declaration.patterns = .ok compiled)
    (hgroups : List.Forall₂ (Denotes filling) compiled groups) {i : Nat} {r : Regex} (hr : groups[i]? = some r) :
    ∃ c pattern, compiled[i]? = some c ∧ c.1.index = i ∧ declaration.patterns[i]? = some pattern ∧
      compile declaration pattern i = .ok (c.1, c.2) ∧ part? (c.2.fill filling).toList = some r := by
  have hrel := rel_getElem? hgroups i
  rw [hr] at hrel
  cases hc : compiled[i]? with
  | none =>
    rw [hc] at hrel
    cases hrel
  | some c =>
    rw [hc] at hrel
    cases hrel with
    | some hdenotes =>
      obtain ⟨pattern, hpattern, hok⟩ := compile_of_compileFrom hcompiled hc
      rw [Nat.zero_add] at hok
      exact ⟨c, pattern, rfl, index_of_compileFrom hcompiled hc, hpattern, hok, hdenotes.part⟩

/-- Assumes: a mapping is completed for a view, and each fragment is one group once its gaps are filled; a pattern wins for
a request with one question mark; its literals are plain, the expressions in its path can be held together, and those in
its query fit in pairs. Each parameter of the query captures the value that the last of the pairs binds it to. Other
requests whose pairs differ in pairs that bind nothing, and in the order of pairs that bind different parameters, capture
the same as long as the pattern wins for them, which it does if all patterns in front of it are rows. -/
theorem select_values (h : Completes declaration settings mapping producers view regex)
    (hstandalone : declaration.StandaloneWith (mapping.filling producers view)) {request : String}
    {front rest : List Char} (hrequest : (normalizePath request).toList = front ++ '?' :: rest) (hfront : '?' ∉ front)
    (hrest : '?' ∉ rest) {definition : Definition} (hwinner : (mapping.select regex request).winner = some definition)
    {pattern : PatternDeclaration} {path : List Segment} {parts : List QueryPart}
    (hdeclares : declaration.Declares definition.index pattern path parts) (hplain : IsPlainPath path)
    (hpath : PathSelfContained ⟨declaration, pattern.pattern, definition.index⟩ (mapping.filling producers view) path)
    (hquery : ∀ part ∈ parts,
      IsPairRegex (Fragment.regexOf declaration (mapping.filling producers view) true part.name part.inline?)) :
    let filling := mapping.filling producers view
    let found := mapping.select regex request
    (∀ part ∈ parts, found.captured? part.name =
      (lastValue? declaration filling parts (rest.splitOn '&') part.name).map String.ofList) ∧
    ∀ (other : String) (rest' : List Char), (normalizePath other).toList = front ++ '?' :: rest' → '?' ∉ rest' →
      EqvGen (Rearranges (binds? declaration filling parts)) (rest.splitOn '&') (rest'.splitOn '&') →
        ((mapping.select regex other).winner = some definition →
          (mapping.select regex other).captured = found.captured) ∧
        ((∀ i < definition.index, declaration.IsRowAt filling i) →
          (mapping.select regex other).winner = some definition) := by
  intro filling found
  obtain ⟨compiled, hcompiled, hpatterns, hparse⟩ := h.compiled
  obtain ⟨groups, hgroups, rfl, hnodup⟩ := groups_of_join hcompiled hparse hstandalone
  have hof : List.Forall₂ IsGroupOf mapping.patterns groups := hpatterns ▸ isGroupOf_of_denotes hgroups
  obtain ⟨i, t, hown, ht, hbefore, hselect⟩ := first_of_select hof hnodup hwinner
  obtain ⟨r, hr, ht⟩ := Option.bind_eq_some_iff.mp ht
  obtain ⟨c, pattern', hc, hindex, hpattern, hok, hpart⟩ := compiled_of_group hcompiled hgroups hr
  have hplace {k : Nat} (hk : mapping.patterns[k]? = some definition) : k = definition.index := by
    rw [hpatterns, List.getElem?_map] at hk
    obtain ⟨c, hc, rfl⟩ := Option.map_eq_some_iff.mp hk
    exact (index_of_compileFrom hcompiled hc).symm
  obtain rfl := hplace hown
  obtain rfl : c.1 = definition := by
    rw [hpatterns, List.getElem?_map, hc] at hown
    exact Option.some_inj.mp hown
  cases hdeclares.declared.symm.trans hpattern
  obtain ⟨hparameters, hfill⟩ := hdeclares.compiled hok
  rw [hfill filling] at hpart
  obtain rfl := eq_of_part? (writes_fragment hplain (Segment.named_of_parse hdeclares.parsed) (isName_of_mem hdeclares.queries)
    hpath fun part hpart ↦ (hquery part hpart).isSelfContained) hpart
  have hnames := (List.nodup_flatMap.mp hnodup).1 _ (List.mem_of_getElem? hr)
  have hkeys : ∀ part ∈ parts, isQueryKey part.key = true := by
    intro part hpart
    obtain ⟨query, hin, hpart'⟩ := exists_query_of_mem hdeclares.queries hpart
    exact isQueryKey_of_compile hok query hin part hpart'
  have hend := getLast?_normalizePath request
  rw [hrequest] at hend ht
  have hfound : found = ⟨some c.1, capturedBy t c.1⟩ := hselect
  refine ⟨fun part hpart ↦ ?_, fun other rest' hother hrest' hpairs ↦ ?_⟩
  · have hmem : part.name ∈ c.1.parameters := hparameters ▸ List.mem_append_right _ (List.mem_map_of_mem hpart)
    have hvalue := captured?_value hnames hkeys hquery hfront hrest hend ht hpart
    rw [hfound, Selection.captured?, lookup_capturedBy, if_pos hmem]
    exact congrArg (Option.map String.ofList) hvalue
  · have hend' := getLast?_normalizePath other
    rw [hother] at hend'
    have hmatch := match_rearranged hnames hkeys hquery hfront hrest hrest' hend hend' hpairs
    obtain ⟨t', ht', hsame⟩ := exists_of_rel hmatch ht
    have hmatches : groups[c.1.index]?.bind (matchAlone · (normalizePath other).toList) = some t' := by
      rw [hr, hother]
      exact ht'
    constructor
    · intro hwinner'
      obtain ⟨k, u, hk, hu, -, hselect'⟩ := first_of_select hof hnodup hwinner'
      obtain rfl := hplace hk
      cases hmatches.symm.trans hu
      rw [hselect', hfound]
      exact capturedBy_congr fun name hname ↦ hsame name (hparameters ▸ hname)
    · intro hrows
      refine congrArg Selection.winner (select_of_first hof hnodup hown hmatches fun j hj ↦ ?_)
      -- A row in front that does not match one request does not match the other.
      have hnone := hbefore j hj
      cases hr' : groups[j]? with
      | none => rfl
      | some r' =>
        obtain ⟨_, pattern', -, -, hpattern', hok', hpart'⟩ := compiled_of_group hcompiled hgroups hr'
        have hsame := isNone_row (hrows j hj) hpattern' hok' hpart' hfront hrest hrest' hend hend'
        rw [hr', hrequest, Option.bind_some] at hnone
        rw [hnone, eq_comm, Option.isNone_none, Option.isNone_iff_eq_none] at hsame
        rw [hother, Option.bind_some, hsame]

/-- A parameter in the path whose expression can take in the question mark and pairs. -/
def swallowing : Declaration :=
  { owner := "Swallowing"
    parameters := [⟨"id", .string, some "a\\?x=1&)|(b", false⟩, ⟨"n", .string, none, false⟩]
    patterns := [⟨":id", ["x=:n"]⟩] }

/-- A pattern in front whose fragment is two alternatives, the second with a flag for all that follows. -/
def flagged : Declaration :=
  { owner := "Flagged"
    parameters := [⟨"x", .string, some "u)\\?)|(?x)(?:(?:v", false⟩, ⟨"n", .string, some "a b", false⟩]
    patterns := [⟨":x", []⟩, ⟨"list", ["k=:n"]⟩] }

/-- A pattern in front whose query is a part of its path. -/
def fronted : Declaration :=
  { owner := "Fronted"
    parameters := [⟨"n", .string, some "x)|y)z)(((w", false⟩, ⟨"m", .string, none, false⟩]
    patterns := [⟨"list", ["k=:n"]⟩, ⟨"list", ["q=:m"]⟩] }

/-- The path of a pattern can take in its pairs; another fragment can change what the expression of a value means; and a
pair that binds nothing can have a pattern in front match. -/
theorem select_swallowed :
    (∃ found, staticBuild? swallowing {} = some found ∧
      (∃ path, swallowing.Declares 0 ⟨":id", ["x=:n"]⟩ path [⟨"x", "n", none⟩] ∧ IsPlainPath path) ∧
      IsPairRegex (Fragment.regexOf swallowing (fun _ ↦ "") true "n" none) ∧
      (normalizePath "/a?x=1").toList = "/a".toList ++ '?' :: "x=1&".toList ∧
      lastValue? swallowing (fun _ ↦ "") [⟨"x", "n", none⟩] ("x=1&".toList.splitOn '&') "n" = some "1".toList ∧
      (found.1.select found.2 "/a?x=1").winner.map Definition.index = some 0 ∧
      (found.1.select found.2 "/a?x=1").captured? "n" = none) ∧
    (∃ found, staticBuild? flagged {} = some found ∧
      lastValue? flagged (fun _ ↦ "") [⟨"k", "n", none⟩] ("k=ab&".toList.splitOn '&') "n" = none ∧
      (found.1.select found.2 "/list?k=ab").winner.map Definition.index = some 1 ∧
      (found.1.select found.2 "/list?k=ab").captured? "n" = some "ab") ∧
    ∃ found, staticBuild? fronted {} = some found ∧ fronted.Standalone ∧
      binds? fronted (fun _ ↦ "") [⟨"q", "m", none⟩] "yz".toList = none ∧
      (found.1.select found.2 "/list?q=1").winner.map Definition.index = some 1 ∧
      (found.1.select found.2 "/list?q=1").captured = [("m", "1")] ∧
      (found.1.select found.2 "/list?yz&q=1").winner.map Definition.index = some 0 ∧
      (found.1.select found.2 "/list?yz&q=1").captured = [] := by
  have hswallowing : (staticBuild? swallowing {}).any fun found ↦
      decide ((found.1.select found.2 "/a?x=1").winner.map Definition.index = some 0) &&
        decide ((found.1.select found.2 "/a?x=1").captured? "n" = none) := by
    decide +kernel
  have hflagged : (staticBuild? flagged {}).any fun found ↦
      decide ((found.1.select found.2 "/list?k=ab").winner.map Definition.index = some 1) &&
        decide ((found.1.select found.2 "/list?k=ab").captured? "n" = some "ab") := by
    decide +kernel
  have hfronted : (staticBuild? fronted {}).any fun found ↦
      decide ((found.1.select found.2 "/list?q=1").winner.map Definition.index = some 1 ∧
        (found.1.select found.2 "/list?q=1").captured = [("m", "1")] ∧
        (found.1.select found.2 "/list?yz&q=1").winner.map Definition.index = some 0 ∧
        (found.1.select found.2 "/list?yz&q=1").captured = []) := by
    decide +kernel
  obtain ⟨found, hfound, hselect⟩ := (Option.any_eq_true _ _).mp hswallowing
  obtain ⟨hwinner, hcaptured⟩ := Bool.and_eq_true_iff.mp hselect
  obtain ⟨found', hfound', hselect'⟩ := (Option.any_eq_true _ _).mp hflagged
  obtain ⟨hwinner', hcaptured'⟩ := Bool.and_eq_true_iff.mp hselect'
  obtain ⟨found'', hfound'', hselect''⟩ := (Option.any_eq_true _ _).mp hfronted
  refine ⟨⟨found, hfound, ⟨[.literal "/", .placeholder "id" none], ⟨rfl, rfl, rfl⟩, ?_⟩, ?_, by decide, ?_,
    of_decide_eq_true hwinner, of_decide_eq_true hcaptured⟩, ⟨found', hfound', ?_, of_decide_eq_true hwinner',
    of_decide_eq_true hcaptured'⟩, found'', hfound'', by decide +kernel, ?_, of_decide_eq_true hselect''⟩
  · unfold IsPlainPath
    decide +kernel
  · exact isPairRegex_of_mentions (by decide +kernel)
  · decide +kernel
  · decide +kernel
  · decide +kernel

/-- Shelves in some order, page by page. -/
def pages : Declaration :=
  { owner := "Pages"
    parameters := [⟨"shelf", .string, none, false⟩, ⟨"page", .integer, none, false⟩, ⟨"order", .string, none, false⟩]
    patterns := [⟨"shelf/:shelf", ["page.no=:page", "order=:order"]⟩] }

/-- The last number of a page counts, wherever the order stands, and pairs that look similar do not count. -/
theorem select_pages : ∃ found, staticBuild? pages {} = some found ∧
    (found.1.select found.2 "/shelf/a?page.no=1&order=up&page.no=x&page.no=2&page-no=3").captured? "page" = some "2" ∧
    (found.1.select found.2 "/shelf/a?order=up&page.no=1&page.no=2").captured =
      (found.1.select found.2 "/shelf/a?page.no=1&order=up&page.no=x&page.no=2&page-no=3").captured := by
  let request := "/shelf/a?page.no=1&order=up&page.no=x&page.no=2&page-no=3"
  let other := "/shelf/a?order=up&page.no=1&page.no=2"
  let rest := "page.no=1&order=up&page.no=x&page.no=2&page-no=3&".toList
  let rest' := "order=up&page.no=1&page.no=2&".toList
  let parts : List QueryPart := [⟨"page.no", "page", none⟩, ⟨"order", "order", none⟩]
  have hselect : (staticBuild? pages {}).any fun found ↦
      decide ((found.1.select found.2 request).winner.map Definition.index = some 0) := by
    decide +kernel
  obtain ⟨found, hfound, hselect⟩ := (Option.any_eq_true _ _).mp hselect
  obtain ⟨definition, hwinner, hindex⟩ := Option.map_eq_some_iff.mp (of_decide_eq_true hselect)
  obtain ⟨text, hbuild, hstatic⟩ := staticBuild?_eq_some hfound
  have hcompletes := completes_of_static hbuild hstatic [] ⟨⟨.anyExcept [], false⟩, [], none⟩
  have hstandalone : pages.Standalone := by decide +kernel
  have hrequest : (normalizePath request).toList = "/shelf/a".toList ++ '?' :: rest := by decide +kernel
  have hother : (normalizePath other).toList = "/shelf/a".toList ++ '?' :: rest' := by decide +kernel
  have hdeclares : pages.Declares definition.index ⟨"shelf/:shelf", ["page.no=:page", "order=:order"]⟩
      [.literal "/shelf/", .placeholder "shelf" none] parts := by
    rw [hindex]
    exact ⟨rfl, rfl, rfl⟩
  have hplain : IsPlainPath [.literal "/shelf/", .placeholder "shelf" none] := by
    unfold IsPlainPath
    decide +kernel
  have hshelf : IsSelfContained "[^/]+" := by decide +kernel
  have hnumber : IsPairRegex "-?[0-1]?[0-9]\x7b1,9\x7d" := isPairRegex_of_mentions (by decide +kernel)
  have hword : IsPairRegex Kind.queryStringRegex := isPairRegex_of_mentions (by decide +kernel)
  obtain ⟨hvalues, hothers⟩ := select_values hcompletes (standaloneWith_of_build hbuild hstatic hstandalone _) hrequest
    (by decide) (by decide) hwinner hdeclares hplain (List.forall_mem_singleton.mpr hshelf)
    (List.forall_mem_cons.mpr ⟨hnumber, List.forall_mem_singleton.mpr hword⟩)
  have hpage : lastValue? pages (fun _ ↦ "") parts (rest.splitOn '&') "page" = some "2".toList := by decide +kernel
  have hpairs : EqvGen (Rearranges (binds? pages (fun _ ↦ "") parts)) (rest.splitOn '&') (rest'.splitOn '&') := by
    have hswap := Rearranges.swap [] ["page.no=x".toList, "page.no=2".toList, "page-no=3".toList, []]
      (by decide +kernel : binds? pages (fun _ ↦ "") parts "page.no=1".toList = some ("page", "1".toList))
      (by decide +kernel : binds? pages (fun _ ↦ "") parts "order=up".toList = some ("order", "up".toList)) (by decide)
    have hvalue := Rearranges.insert ["order=up".toList, "page.no=1".toList]
      ["page.no=2".toList, "page-no=3".toList, []]
      (by decide +kernel : binds? pages (fun _ ↦ "") parts "page.no=x".toList = none)
    have hkey := Rearranges.insert ["order=up".toList, "page.no=1".toList, "page.no=2".toList] [[]]
      (by decide +kernel : binds? pages (fun _ ↦ "") parts "page-no=3".toList = none)
    exact .trans _ _ _ (.rel _ _ hswap) (.trans _ _ _ (.symm _ _ (.rel _ _ hvalue)) (.symm _ _ (.rel _ _ hkey)))
  obtain ⟨hsame, hstays⟩ := hothers other rest' hother (by decide) hpairs
  have hwinner' := hstays fun i hi ↦ absurd (hindex ▸ hi) (Nat.not_lt_zero i)
  have hvalue := hvalues ⟨"page.no", "page", none⟩ List.mem_cons_self
  exact ⟨found, hfound, hvalue.trans (congrArg (Option.map String.ofList) hpage), hsame hwinner'⟩

end Mapping

end PathBinding
