import PathBinding.Proofs.Decomposition
import PathBinding.Proofs.Expression
import PathBinding.Proofs.Regex.Tail

/-!
Patterns whose path is a row of parts. The group of such a pattern is its path with a query behind it (`group_of_row`), so
it takes in a text from the first way through the path that stands in front of a question mark, and outside the query it
captures what has been captured on that way (`matchAlone_query`). Selections with groups that match alike are alike
(`select_alike`).
-/

set_option autoImplicit false
set_option relaxedAutoImplicit false

namespace PathBinding

open Regex

/-! ### Names of groups -/

namespace Definition

theorem groupNameIn_inj {fragment name other : String} (h : groupNameIn fragment name = groupNameIn fragment other) :
    name = other := by
  have hlists := congrArg String.toList h
  simp only [groupNameIn, String.toList_append, List.append_cancel_left_eq] at hlists
  exact String.toList_injective hlists

theorem groupNameIn_ne (fragment name : String) : groupNameIn fragment name ≠ fragment := by
  intro h
  have hlength := congrArg (fun s : String ↦ s.toList.length) h
  simp [groupNameIn, String.toList_append] at hlength

end Definition

namespace Fragment

variable {context : Context} {filling : String → String}

/-- The groups of a query part are that of its parameter and those inside. -/
theorem groupNames_queryPart (part : QueryPart) : (part.regexes context filling).flatMap groupNames =
    Definition.groupNameIn (Definition.fragmentName context.index) part.name ::
      (bodyOf (regexOf context.declaration filling true part.name part.inline?)).groupNames := by
  rw [QueryPart.regexes, List.flatMap_append, groupNames_characters]
  simp [groupNames, parameterRegex]

mutual

/-- The groups of the parameters in a path are among those of its expressions. -/
theorem mem_groupNames_segment {segment : Segment} {p : String × Option String} (hp : p ∈ segment.placeholders) :
    Definition.groupNameIn (Definition.fragmentName context.index) p.1 ∈
      (segmentRegexes context filling segment).flatMap groupNames := by
  cases segment with
  | literal text => cases hp
  | placeholder name inline? =>
    rw [List.mem_singleton.mp hp]
    exact List.mem_cons_self
  | positional index => cases hp
  | optional inner =>
    rw [segmentRegexes, List.flatMap_singleton, groupNames, groupNames_sequence]
    exact mem_groupNames_segments hp

theorem mem_groupNames_segments {path : List Segment} {p : String × Option String}
    (hp : p ∈ Segment.placeholdersAll path) : Definition.groupNameIn (Definition.fragmentName context.index) p.1 ∈
      (segmentsRegexes context filling path).flatMap groupNames := by
  cases path with
  | nil => cases hp
  | cons segment rest =>
    rw [segmentsRegexes, List.flatMap_append]
    rcases List.mem_append.mp hp with hp | hp
    · exact List.mem_append_left _ (mem_groupNames_segment hp)
    · exact List.mem_append_right _ (mem_groupNames_segments hp)

end

/-- If no group is named twice, the parameters in the path have groups of their own. -/
theorem notMem_pair_of_path {path : List Segment} {parts : List QueryPart}
    (hnodup : (fragmentRegex context filling path parts).groupNames.Nodup) {p : String × Option String}
    (hp : p ∈ Segment.placeholdersAll path) : Definition.groupNameIn (Definition.fragmentName context.index) p.1 ∉
      (pair (parts.map (QueryPart.regexes context filling))).groupNames := by
  rw [fragmentRegex, queryRegexes, groupNames_query, List.nodup_cons] at hnodup
  exact List.disjoint_of_nodup_append hnodup.2 (mem_groupNames_segments hp)

end Fragment

namespace Mapping

/-! ### The group of a row -/

theorem eq_of_part? {x : List Char} {r r' : Regex} (h : Writes x [r]) (hr : part? x = some r') : r' = r := by
  obtain ⟨-, parts, hparts, hregex⟩ := h
  obtain ⟨names, height, htake⟩ := takeAll_of_part? hr
  rw [← List.append_nil x] at htake
  obtain ⟨names', m, hm⟩ := hparts (p := .start) (s := []) rfl (by simp) htake
  rw [takeAll_end rfl] at hm
  have hlevel := congrArg (fun p : Option Parsing ↦ p.map fun p ↦ p.level.parts.map (·.regex)) hm
  simp only [Option.map_some, Level.pushAll, Parsing.start, Level.empty, List.append_nil, List.map_reverse, hregex] at hlevel
  simpa using hlevel.symm

section Row

variable {declaration : Declaration} {pattern : PatternDeclaration} {index : Nat} {definition : Definition}
  {pieces : Pieces} {filling : String → String} {path : List Segment} {parts : List Fragment.QueryPart} {rs : List Regex}

/-- Assumes: in front of the query the text of a path is a row, and the expressions of the query can be held together. A
fragment that is one group is the group of the row with the query behind it. -/
theorem group_of_row {r : Regex}
    (hfill : pieces.fill filling = Fragment.fragmentText ⟨declaration, pattern.pattern, index⟩ filling path parts)
    (hrow : Writes ((Fragment.segmentsText ⟨declaration, pattern.pattern, index⟩ filling path).toList ++ ['\\', '?'])
      (rs ++ [.set (.single '?')]))
    (hparts : pattern.query.map Fragment.queryPart? = parts.map some)
    (hquery : Fragment.QuerySelfContained ⟨declaration, pattern.pattern, index⟩ filling parts)
    (hr : part? (pieces.fill filling).toList = some r) : r = .group (some (Definition.fragmentName index))
      (sequence (rs ++ Fragment.queryRegexes ⟨declaration, pattern.pattern, index⟩ filling parts)) := by
  have hwrites := Fragment.writes_fragment_of_row hrow (Fragment.isName_of_mem hparts) hquery
  rw [← hfill] at hwrites
  exact eq_of_part? hwrites hr

end Row

/-! ### Matches of a row -/

theorem isNone_of_rel {α β : Type} {R : α → β → Prop} {x : Option α} {y : Option β} (h : Option.Rel R x y) :
    x.isNone = y.isNone := by
  cases h <;> rfl

theorem exists_of_rel {α β : Type} {R : α → β → Prop} {x : Option α} {y : Option β} (h : Option.Rel R x y) {a : α}
    (ha : x = some a) : ∃ b, y = some b ∧ R a b := by
  subst ha
  cases h with
  | some h => exact ⟨_, rfl, h⟩

theorem rel_imp {α β : Type} {R S : α → β → Prop} {x : Option α} {y : Option β} (h : Option.Rel R x y)
    (hRS : ∀ a b, R a b → S a b) : Option.Rel S x y := by
  cases h with
  | none => exact .none
  | some h => exact .some (hRS _ _ h)

theorem rel_of_common {α β γ : Type} {R : α → β → Prop} {S : α → γ → Prop} {T : β → γ → Prop} {x : Option α} {y : Option β}
    {z : Option γ} (h : Option.Rel R x y) (h' : Option.Rel S x z) (hT : ∀ a b c, R a b → S a c → T b c) :
    Option.Rel T y z := by
  cases h with
  | none =>
    cases h'
    exact .none
  | some h =>
    cases h' with
    | some h' => exact .some (hT _ _ _ h h')

theorem captured?_capture (name : String) {other : String} (h : other ≠ name) (t : Thread) :
    ((t.capture name).unmark).captured? other = t.captured? other := by
  have hne : (name == other) = false := by simpa using h.symm
  rw [Thread.From.unmark_capture]
  unfold Thread.captured? Thread.capture
  dsimp only
  split
  · rfl
  · rw [List.find?_cons, hne]

/-- Assumes: a text ends in an ampersand. The group of a path with a query matches from the first way through the path that
stands in front of a question mark. -/
theorem matchAlone_closes (fragment : String) (rs : List Regex) (branches : List (List Regex)) {text : List Char}
    (hend : text.getLast? = some '&') :
    Option.Rel (fun t v ↦ ∃ u, t.Closes branches text u ∧ v = (u.capture fragment).unmark)
      ((run none (sequence rs) [(Thread.start 0 none text).mark]).find? Thread.atMark)
      (matchAlone (.group (some fragment) (sequence (rs ++ query branches))) text) := by
  have hoffset (t : Thread) : ((t.capture fragment).unmark).offset = t.offset := by
    rw [Thread.From.unmark_capture]
    rfl
  have hon : (Thread.start 0 none text).mark.On text := (Thread.On.start text).ahead (s := []) ⟨rfl, rfl, rfl⟩
  rw [matchAlone, search_anchored, run, threadAt_map_of_eq hoffset, List.map_singleton]
  have hrel := threadAt_sequence_query rs branches hon rfl hend
  generalize (run none (sequence rs) [(Thread.start 0 none text).mark]).find? Thread.atMark = first at hrel ⊢
  generalize threadAt text.length _ = last at hrel ⊢
  cases hrel with
  | none => exact .none
  | some hcloses => exact .some ⟨_, hcloses, rfl⟩

/-- Outside the query the group captures what the way through the path captures. -/
theorem matchAlone_query (fragment : String) (rs : List Regex) (branches : List (List Regex)) {text : List Char}
    (hend : text.getLast? = some '&') :
    Option.Rel (fun u v ↦ ∀ name, name ≠ fragment → name ∉ (pair branches).groupNames →
        v.captured? name = u.captured? name)
      ((run none (sequence rs) [(Thread.start 0 none text).mark]).find? Thread.atMark)
      (matchAlone (.group (some fragment) (sequence (rs ++ query branches))) text) := by
  refine rel_imp (matchAlone_closes fragment rs branches hend) ?_
  rintro t v ⟨u, hcloses, rfl⟩ name hfragment hname
  rw [captured?_capture fragment hfragment, captured?_of_lead hcloses.leads hname]

/-- What a path has captured in front of the first question mark lies there. -/
theorem infix_front {r : Regex} {front rest : List Char} (hfront : '?' ∉ front) (hone : OneMark r rest) {t : Thread}
    (ht : (run none r [(Thread.start 0 none (front ++ '?' :: rest)).mark]).find? Thread.atMark = some t) {name : String}
    {word : List Char} (hname : t.captured? name = some word) : word <:+: front := by
  have hmem := List.mem_of_find?_eq_some ht
  obtain ⟨s, hs, -⟩ := (forward_run none r).lead hmem
  have hread : front = s := by
    have hsplit : front ++ '?' :: rest = s ++ t.rest := hs.rest
    rw [rest_of_atMark hfront hone hmem (List.find?_some ht)] at hsplit
    exact List.append_cancel_right hsplit
  rw [hread]
  exact infix_of_captured hs rfl hname

/-- A match comes from a way through the path up to a question mark, which captures under the names of the path only. -/
theorem closes_of_match {fragment : String} {rs : List Regex} {branches : List (List Regex)} {text : List Char}
    (hend : text.getLast? = some '&') {v : Thread}
    (hv : matchAlone (.group (some fragment) (sequence (rs ++ query branches))) text = some v) :
    ∃ t ∈ run none (sequence rs) [(Thread.start 0 none text).mark], ∃ u, t.atMark = true ∧ t.Closes branches text u ∧
      v = (u.capture fragment).unmark ∧ ∀ name, name ∉ rs.flatMap groupNames → t.captured? name = none := by
  have hcloses := matchAlone_closes fragment rs branches hend
  rw [hv] at hcloses
  cases hfirst : (run none (sequence rs) [(Thread.start 0 none text).mark]).find? Thread.atMark with
  | none =>
    rw [hfirst] at hcloses
    cases hcloses
  | some t =>
    rw [hfirst] at hcloses
    cases hcloses with
    | some hcloses =>
      obtain ⟨u, hcloses, rfl⟩ := hcloses
      have hmem := List.mem_of_find?_eq_some hfirst
      refine ⟨t, hmem, u, List.find?_some hfirst, hcloses, rfl, fun name hname ↦ ?_⟩
      rw [← groupNames_sequence] at hname
      exact captured?_of_lead ((forward_run_names fun _ hn ↦ hn).lead hmem) hname

/-- A match of a text with one question mark comes from a way through the path up to that. -/
theorem closes_of_matchAlone {fragment : String} {rs : List Regex} {branches : List (List Regex)} {front rest : List Char}
    (hfront : '?' ∉ front) (hone : OneMark (sequence rs) rest) (hend : (front ++ '?' :: rest).getLast? = some '&')
    {v : Thread}
    (hv : matchAlone (.group (some fragment) (sequence (rs ++ query branches))) (front ++ '?' :: rest) = some v) :
    ∃ t u : Thread, t.On (front ++ '?' :: rest) ∧ t.rest = '?' :: rest ∧ t.Closes branches (front ++ '?' :: rest) u ∧
      v = (u.capture fragment).unmark ∧ ∀ name, name ∉ rs.flatMap groupNames → t.captured? name = none := by
  obtain ⟨t, hmem, u, hmark, hcloses, hv, hnone⟩ := closes_of_match hend hv
  have hstart : (Thread.start 0 none (front ++ '?' :: rest)).mark.On (front ++ '?' :: rest) :=
    (Thread.On.start _).ahead (s := []) ⟨rfl, rfl, rfl⟩
  exact ⟨t, u, hstart.lead ((forward_run none (sequence rs)).lead hmem), rest_of_atMark hfront hone hmem hmark, hcloses, hv,
    hnone⟩

/-- Assumes: each text ends in an ampersand, and the path ends at the first question mark in both. The group of a path with
a query matches both texts or neither, and outside the query it captures the same, all of it in front of the question
mark. -/
theorem matchAlone_front (fragment : String) (rs : List Regex) (branches : List (List Regex))
    {front rest rest' : List Char} (hfront : '?' ∉ front) (hone : OneMark (sequence rs) rest)
    (hone' : OneMark (sequence rs) rest') (hend : (front ++ '?' :: rest).getLast? = some '&')
    (hend' : (front ++ '?' :: rest').getLast? = some '&') :
    Option.Rel (fun u v ↦ ∀ name, name ≠ fragment → name ∉ (pair branches).groupNames →
        v.captured? name = u.captured? name ∧ ∀ word, u.captured? name = some word → word <:+: front)
      (matchAlone (.group (some fragment) (sequence (rs ++ query branches))) (front ++ '?' :: rest))
      (matchAlone (.group (some fragment) (sequence (rs ++ query branches))) (front ++ '?' :: rest')) := by
  have hmatch := matchAlone_query fragment rs branches hend
  have hmatch' := matchAlone_query fragment rs branches hend'
  have hsame := captured?_front (sequence rs) front rest rest'
  rw [← find?_atMark hfront hone, ← find?_atMark hfront hone'] at hsame
  have hinfix (t : Thread) := infix_front hfront hone (t := t)
  generalize List.find? _ _ = first at hmatch hsame hinfix
  generalize List.find? _ _ = first' at hmatch' hsame
  generalize matchAlone _ _ = last at hmatch ⊢
  generalize matchAlone _ (front ++ '?' :: rest') = last' at hmatch' ⊢
  cases hmatch with
  | none =>
    cases hmatch' with
    | none => exact .none
    | some hlead => cases hsame
  | @some t u hu =>
    cases hmatch' with
    | none => cases hsame
    | @some t' u' hu' =>
      have hcaptured : t.captured? = t'.captured? := Option.some_inj.mp hsame
      refine .some fun name hfragment hname ↦ ?_
      rw [hu' name hfragment hname, hu name hfragment hname, hcaptured]
      refine ⟨rfl, fun word hword ↦ ?_⟩
      rw [← hcaptured] at hword
      exact hinfix t rfl hword

/-! ### Selections that are alike -/

section Alike

variable {mapping other : Mapping} {groups others : List Regex} {path request : String}

/-- Assumes: two mappings are matched by groups of their patterns. If the groups match alike, pattern by pattern, either
nothing is selected or both select the pattern at one place, by matches that are alike. -/
theorem select_alike (hgroups : List.Forall₂ IsGroupOf mapping.patterns groups)
    (hnodup : (groups.flatMap groupNames).Nodup) (hothers : List.Forall₂ IsGroupOf other.patterns others)
    (hnodup' : (others.flatMap groupNames).Nodup) {R : Nat → Thread → Thread → Prop}
    (h : ∀ i, Option.Rel (R i) (groups[i]?.bind (matchAlone · (normalizePath path).toList))
      (others[i]?.bind (matchAlone · (normalizePath request).toList))) :
    (mapping.select (joined groups) path = .none ∧ other.select (joined others) request = .none) ∨
      ∃ i definition definition' t t', mapping.patterns[i]? = some definition ∧ other.patterns[i]? = some definition' ∧
        R i t t' ∧ mapping.select (joined groups) path = ⟨some definition, capturedBy t definition⟩ ∧
        other.select (joined others) request = ⟨some definition', capturedBy t' definition'⟩ := by
  have hnone (i : Nat) : groups[i]?.bind (matchAlone · (normalizePath path).toList) = none ↔
      others[i]?.bind (matchAlone · (normalizePath request).toList) = none := by
    rw [← Option.isNone_iff_eq_none, ← Option.isNone_iff_eq_none, isNone_of_rel (h i)]
  rcases select_cases hgroups hnodup (fun _ _ ↦ rfl) path with
    ⟨hselect, hall⟩ | ⟨i, definition, t, -, hdefinition, ht, hbefore, hselect, -, -⟩
  · rcases select_cases hothers hnodup' (fun _ _ ↦ rfl) request with
      ⟨hselect', -⟩ | ⟨j, -, t', -, -, ht', -, -, -, -⟩
    · exact Or.inl ⟨hselect, hselect'⟩
    · rw [(hnone j).mp (hall j)] at ht'
      cases ht'
  · rcases select_cases hothers hnodup' (fun _ _ ↦ rfl) request with
      ⟨-, hall⟩ | ⟨j, definition', t', -, hdefinition', ht', hbefore', hselect', -, -⟩
    · rw [(hnone i).mpr (hall i)] at ht
      cases ht
    · -- Both are the first that matches.
      obtain ⟨u, hu, -⟩ := exists_of_rel (h i) ht
      obtain rfl := first_unique hu (fun k hk ↦ (hnone k).mp (hbefore k hk)) ht' hbefore'
      have hrel := h i
      rw [ht, ht'] at hrel
      cases hrel with
      | some hrel => exact Or.inr ⟨i, definition, definition', t, t', hdefinition, hdefinition', hrel, hselect, hselect'⟩

end Alike

end Mapping

end PathBinding
