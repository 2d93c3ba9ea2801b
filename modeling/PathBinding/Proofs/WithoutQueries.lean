import PathBinding.Proofs.Refilling
import PathBinding.Proofs.Rows

/-!
Queries are optional. A declaration and the same declaration without its queries select the pattern at the same place for
each path, and capture the same for the parameters in its path (`select_withoutQueries`). This asks that the patterns with
a query keep their parts apart: that the path is a row of parts in front of the query, and that each expression in the
query can be held together. Otherwise the text of the query can become a part of the path
(`select_unbalanced`).
-/

set_option autoImplicit false
set_option relaxedAutoImplicit false

namespace PathBinding

open Regex

namespace Declaration

/-- The declaration with the paths of its patterns only. -/
def withoutQueries (declaration : Declaration) : Declaration :=
  { declaration with patterns := declaration.patterns.map fun pattern ↦ { pattern with query := [] } }

/-- In each pattern with a query the text of the path is a row of parts, the expressions of the query can be held together,
and they capture under none of the names that the parameters in the path capture under. -/
def KeepsApart (declaration : Declaration) : Prop :=
  ∀ (i : Nat) (pattern : PatternDeclaration) (path : List Segment) (parts : List Fragment.QueryPart),
    declaration.patterns[i]? = some pattern → pattern.query ≠ [] →
    Segment.parse (Fragment.rooted pattern.pattern) = .ok path →
    pattern.query.map Fragment.queryPart? = parts.map some →
      Fragment.IsRow (Fragment.segmentsText ⟨declaration, pattern.pattern, i⟩ (fun _ ↦ "") path).toList ∧
      ∀ part ∈ parts,
        let regex := Fragment.regexOf declaration (fun _ ↦ "") true part.name part.inline?
        Fragment.IsSelfContained regex ∧ ∀ p ∈ Segment.placeholdersAll path,
          Definition.groupNameIn (Definition.fragmentName i) p.1 ∉ (Fragment.bodyOf regex).groupNames

/-- Patterns keep their parts apart if their literals are plain and their expressions can be held together. -/
theorem keepsApart_of_plain {declaration : Declaration} (h : ∀ (i : Nat) (pattern : PatternDeclaration)
    (path : List Segment) (parts : List Fragment.QueryPart),
    declaration.patterns[i]? = some pattern → pattern.query ≠ [] →
    Segment.parse (Fragment.rooted pattern.pattern) = .ok path →
    pattern.query.map Fragment.queryPart? = parts.map some →
      Fragment.IsPlainPath path ∧ Fragment.PathSelfContained ⟨declaration, pattern.pattern, i⟩ (fun _ ↦ "") path ∧
      ∀ part ∈ parts,
        let regex := Fragment.regexOf declaration (fun _ ↦ "") true part.name part.inline?
        Fragment.IsSelfContained regex ∧ ∀ p ∈ Segment.placeholdersAll path,
          Definition.groupNameIn (Definition.fragmentName i) p.1 ∉ (Fragment.bodyOf regex).groupNames) :
    declaration.KeepsApart := by
  intro i pattern path parts hpattern hquery hparse hparts
  obtain ⟨hplain, hpath, hself⟩ := h i pattern path parts hpattern hquery hparse hparts
  exact ⟨Fragment.isRow_of_writes (Fragment.writes_segments hplain (Segment.named_of_parse hparse) hpath), hself⟩

end Declaration

namespace Mapping

open Fragment

variable {declaration : Declaration} {settings : Settings} {mapping bare : Mapping} {text text' : String}
  {regex regex' : Regex}

theorem agrees_withoutQueries (declaration : Declaration) (filling : String → String) :
    Agrees filling filling declaration declaration.withoutQueries :=
  ⟨rfl, rfl, fun _ ↦ rfl⟩

/-- Matches of pattern number `i` that capture the same for the parameters in its path. -/
def SamePath (declaration : Declaration) (i : Nat) (t u : Thread) : Prop :=
  ∀ pattern path, declaration.patterns[i]? = some pattern → Segment.parse (rooted pattern.pattern) = .ok path →
    ∀ p ∈ Segment.placeholdersAll path,
      u.captured? (Definition.groupNameIn (Definition.fragmentName i) p.1) =
        t.captured? (Definition.groupNameIn (Definition.fragmentName i) p.1)

/-- With a query and without, the group of a pattern matches the same, and alike in the path. -/
theorem match_withoutQueries (happart : declaration.KeepsApart) {i : Nat} {pattern : PatternDeclaration}
    {c c' : Definition × Pieces} {r r' : Regex} (hpattern : declaration.patterns[i]? = some pattern)
    (hok : compile declaration pattern i = .ok c)
    (hok' : compile declaration.withoutQueries { pattern with query := [] } i = .ok c')
    (hr : part? (c.2.fill fun _ ↦ "").toList = some r) (hr' : part? (c'.2.fill fun _ ↦ "").toList = some r')
    {request : List Char} (hend : request.getLast? = some '&') :
    Option.Rel (SamePath declaration i) (matchAlone r request) (matchAlone r' request) := by
  let filling : String → String := fun _ ↦ ""
  obtain ⟨path, parts, _, _, hparse, -, hparts, -, hparameters, -, hfill⟩ := compile_ok filling hok
  obtain ⟨path', parts', _, _, hparse', -, hparts', -, -, -, hfill'⟩ := compile_ok filling hok'
  cases hparse.symm.trans hparse'
  obtain rfl : parts' = [] := List.map_eq_nil_iff.mp hparts'.symm
  have hsame : segmentsText ⟨declaration.withoutQueries, pattern.pattern, i⟩ filling path =
      segmentsText ⟨declaration, pattern.pattern, i⟩ filling path :=
    (segmentsText_congr (agrees_withoutQueries declaration filling) path).symm
  by_cases hquery : pattern.query = []
  · -- The fragments are the same.
    rw [hquery] at hparts
    obtain rfl : parts = [] := List.map_eq_nil_iff.mp hparts.symm
    have htext : c'.2.fill filling = c.2.fill filling := by
      rw [hfill, hfill', fragmentText, fragmentText, hsame]
      rfl
    have hr'' : part? (c'.2.fill filling).toList = some r' := hr'
    rw [htext] at hr''
    cases hr.symm.trans hr''
    cases matchAlone r request with
    | none => exact .none
    | some t => exact .some fun _ _ _ _ _ _ ↦ rfl
  · obtain ⟨⟨rs, hrow⟩, hself⟩ := happart i pattern path parts hpattern hquery hparse hparts
    have hrow' : Writes ((segmentsText ⟨declaration.withoutQueries, pattern.pattern, i⟩ filling path).toList ++ ['\\', '?'])
        (rs ++ [.set (.single '?')]) := by
      rw [hsame]
      exact hrow
    rw [group_of_row hfill hrow hparts (fun part hpart ↦ (hself part hpart).1) hr,
      group_of_row hfill' hrow' rfl (fun _ hpart ↦ absurd hpart List.not_mem_nil) hr']
    have hmatch := matchAlone_query (Definition.fragmentName i) rs
      (parts.map (QueryPart.regexes ⟨declaration, pattern.pattern, i⟩ filling)) hend
    have hmatch' := matchAlone_query (Definition.fragmentName i) rs [] hend
    refine rel_of_common hmatch hmatch' fun u v w huv huw other otherPath hother hotherPath p hp ↦ ?_
    cases hpattern.symm.trans hother
    cases hparse.symm.trans hotherPath
    have hne := Definition.groupNameIn_ne (Definition.fragmentName i) p.1
    -- Groups of the query have other names.
    have hname : Definition.groupNameIn (Definition.fragmentName i) p.1 ∉
        (pair (parts.map (QueryPart.regexes ⟨declaration, pattern.pattern, i⟩ filling))).groupNames := by
      rw [groupNames_pair, List.flatMap_map, List.mem_flatMap]
      rintro ⟨part, hpart, hin⟩
      rw [groupNames_queryPart, List.mem_cons] at hin
      rcases hin with hsame | hinside
      · have hnodup := nodup_parameters hok
        rw [hparameters, List.nodup_append] at hnodup
        exact hnodup.2.2 p.1 (List.mem_map_of_mem hp) part.name (List.mem_map_of_mem hpart)
          (Definition.groupNameIn_inj hsame)
      · exact (hself part hpart).2 p hp hinside
    have hname' : Definition.groupNameIn (Definition.fragmentName i) p.1 ∉ (pair []).groupNames := by
      rw [groupNames_pair]
      exact List.not_mem_nil
    rw [huv _ hne hname, huw _ hne hname']

/-- A declaration and the same declaration without its queries, compiled pattern by pattern. -/
theorem compile_withoutQueries {compiled compiled' : List (Definition × Pieces)}
    (hcompiled : compileFrom declaration 0 declaration.patterns = .ok compiled)
    (hcompiled' : compileFrom declaration.withoutQueries 0 declaration.withoutQueries.patterns = .ok compiled') (i : Nat) :
    Option.Rel (fun c c' ↦ ∃ pattern, declaration.patterns[i]? = some pattern ∧ compile declaration pattern i = .ok c ∧
      compile declaration.withoutQueries { pattern with query := [] } i = .ok c') compiled[i]? compiled'[i]? := by
  have hpatterns' : declaration.withoutQueries.patterns[i]? =
      declaration.patterns[i]?.map fun pattern ↦ { pattern with query := [] } := List.getElem?_map
  cases hc : compiled[i]? with
  | none =>
    have hlast : declaration.patterns[i]? = none := by
      rw [List.getElem?_eq_none_iff, ← (compileFrom_ok hcompiled).1, ← List.getElem?_eq_none_iff]
      exact hc
    rw [hlast, Option.map_none, List.getElem?_eq_none_iff, ← (compileFrom_ok hcompiled').1,
      ← List.getElem?_eq_none_iff] at hpatterns'
    rw [hpatterns']
    exact .none
  | some c =>
    obtain ⟨pattern, hpattern, hok⟩ := compile_of_compileFrom hcompiled hc
    rw [hpattern] at hpatterns'
    obtain ⟨c', hc', hok'⟩ := (compileFrom_ok hcompiled').2 i _ hpatterns'
    rw [Nat.zero_add] at hok hok'
    rw [hc']
    exact .some ⟨pattern, hpattern, hok, hok'⟩

/-- Assumes: a declaration and the same declaration without its queries build to static mappings, the fragment of each
pattern is one group on its own in both, and the patterns with a query keep their parts apart. For each path both select
the pattern at the same place, or none, and capture the same for each parameter in its path. -/
theorem select_withoutQueries (hbuild : build declaration settings = .ok mapping)
    (hstatic : mapping.source = .static text regex) (hstandalone : declaration.Standalone)
    (hbare : build declaration.withoutQueries settings = .ok bare) (hstatic' : bare.source = .static text' regex')
    (hstandalone' : declaration.withoutQueries.Standalone) (happart : declaration.KeepsApart) (request : String) :
    (bare.select regex' request).winner.map Definition.index = (mapping.select regex request).winner.map Definition.index ∧
      ∀ definition, (mapping.select regex request).winner = some definition →
        ∀ pattern path, declaration.patterns[definition.index]? = some pattern →
          Segment.parse (rooted pattern.pattern) = .ok path → ∀ p ∈ Segment.placeholdersAll path,
            (bare.select regex' request).captured? p.1 = (mapping.select regex request).captured? p.1 := by
  let filling : String → String := fun _ ↦ ""
  obtain ⟨compiled, groups, hcompiled, hpatterns, hgroups, rfl, hnodup, -⟩ :=
    compiled_of_build hbuild hstatic hstandalone filling
  obtain ⟨compiled', groups', hcompiled', hpatterns', hgroups', rfl, hnodup', -⟩ :=
    compiled_of_build hbare hstatic' hstandalone' filling
  have hend := getLast?_normalizePath request
  have halike (i : Nat) : Option.Rel (SamePath declaration i) (groups[i]?.bind (matchAlone · (normalizePath request).toList))
      (groups'[i]?.bind (matchAlone · (normalizePath request).toList)) := by
    have hcompile := compile_withoutQueries hcompiled hcompiled' i
    have hrel := rel_getElem? hgroups i
    have hrel' := rel_getElem? hgroups' i
    generalize compiled[i]? = x, compiled'[i]? = x', groups[i]? = y, groups'[i]? = y' at hcompile hrel hrel' ⊢
    cases hcompile with
    | none =>
      cases hrel
      cases hrel'
      exact .none
    | some hcompile =>
      obtain ⟨pattern, hpattern, hok, hok'⟩ := hcompile
      cases hrel with
      | some hdenotes =>
        cases hrel' with
        | some hdenotes' =>
          rw [Option.bind_some, Option.bind_some]
          exact match_withoutQueries happart hpattern hok hok' hdenotes.part hdenotes'.part hend
  rcases select_alike (hpatterns ▸ isGroupOf_of_denotes hgroups) hnodup (hpatterns' ▸ isGroupOf_of_denotes hgroups') hnodup'
    halike with ⟨hselect, hselect'⟩ | ⟨i, definition, definition', t, t', hdefinition, hdefinition', hsame, hselect, hselect'⟩
  · rw [hselect, hselect']
    exact ⟨rfl, nofun⟩
  · have hcompile := compile_withoutQueries hcompiled hcompiled' i
    rw [hpatterns, List.getElem?_map] at hdefinition
    rw [hpatterns', List.getElem?_map] at hdefinition'
    obtain ⟨c, hc, rfl⟩ := Option.map_eq_some_iff.mp hdefinition
    obtain ⟨c', hc', rfl⟩ := Option.map_eq_some_iff.mp hdefinition'
    have hindex := index_of_compileFrom hcompiled hc
    have hindex' := index_of_compileFrom hcompiled' hc'
    rw [hselect, hselect']
    refine ⟨by rw [Option.map_some, Option.map_some, hindex, hindex'], ?_⟩
    intro definition hwinner other path hother hpath p hp
    cases hwinner
    rw [hindex] at hother
    rw [hc, hc'] at hcompile
    cases hcompile with
    | some hcompile =>
      obtain ⟨pattern, hpattern, hok, hok'⟩ := hcompile
      obtain rfl : pattern = other := Option.some.inj (hpattern.symm.trans hother)
      have hmem := mem_parameters_of_path hok hpath hp
      have hmem' := mem_parameters_of_path hok' hpath hp
      rw [Selection.captured?, Selection.captured?, lookup_capturedBy, lookup_capturedBy, if_pos hmem, if_pos hmem',
        Definition.groupName, Definition.groupName, Definition.fragment, Definition.fragment, hindex, hindex',
        hsame pattern path hpattern hpath p hp]

/-- A query part whose expression ends the group around it. -/
def unbalanced : Declaration :=
  { owner := "Unbalanced"
    parameters := [⟨"n", .string, some "x)|y)z)(((w", false⟩]
    patterns := [⟨"list", ["k=:n"]⟩] }

/-- Although the fragment is one group with the query and without, the query has become a part of the path. -/
theorem select_unbalanced : ∃ found bare, staticBuild? unbalanced {} = some found ∧
    staticBuild? unbalanced.withoutQueries {} = some bare ∧ unbalanced.Standalone ∧
    unbalanced.withoutQueries.Standalone ∧ (found.1.select found.2 "/list").winner = none ∧
    (bare.1.select bare.2 "/list").winner.map Definition.index = some 0 := by
  have hfound : (staticBuild? unbalanced {}).any fun found ↦
      decide ((found.1.select found.2 "/list").winner = none) := by
    decide +kernel
  have hbare : (staticBuild? unbalanced.withoutQueries {}).any fun bare ↦
      decide ((bare.1.select bare.2 "/list").winner.map Definition.index = some 0) := by
    decide +kernel
  obtain ⟨found, hfound, hselect⟩ := (Option.any_eq_true _ _).mp hfound
  obtain ⟨bare, hbare, hselect'⟩ := (Option.any_eq_true _ _).mp hbare
  exact ⟨found, bare, hfound, hbare, by decide +kernel, by decide +kernel, of_decide_eq_true hselect,
    of_decide_eq_true hselect'⟩

/-- Articles by number, each with pages. -/
def articles : Declaration :=
  { owner := "Articles"
    parameters := [⟨"id", .integer, none, false⟩, ⟨"page", .integer, none, false⟩]
    patterns := [⟨"article/:id", ["page=:page"]⟩] }

/-- The number of an article is the same whether pages are declared or not. -/
theorem select_articles : ∃ found bare, staticBuild? articles {} = some found ∧
    staticBuild? articles.withoutQueries {} = some bare ∧ articles.KeepsApart ∧
    (found.1.select found.2 "article/7?page=2").captured = [("id", "7"), ("page", "2")] ∧
    (bare.1.select bare.2 "article/7?page=2").captured? "id" = some "7" := by
  have hfound : (staticBuild? articles {}).any fun found ↦
      decide ((found.1.select found.2 "article/7?page=2").winner.map Definition.index = some 0) &&
        decide ((found.1.select found.2 "article/7?page=2").captured = [("id", "7"), ("page", "2")]) := by
    decide +kernel
  have hbare : (staticBuild? articles.withoutQueries {}).isSome := by decide +kernel
  obtain ⟨found, hfound, hselect⟩ := (Option.any_eq_true _ _).mp hfound
  obtain ⟨hwinner, hcaptured⟩ := Bool.and_eq_true_iff.mp hselect
  obtain ⟨definition, hwinner, hindex⟩ := Option.map_eq_some_iff.mp (of_decide_eq_true hwinner)
  have hcaptured := of_decide_eq_true hcaptured
  obtain ⟨bare, hbare⟩ := Option.isSome_iff_exists.mp hbare
  obtain ⟨text, hbuild, hstatic⟩ := staticBuild?_eq_some hfound
  obtain ⟨text', hbuild', hstatic'⟩ := staticBuild?_eq_some hbare
  have hstandalone : articles.Standalone := by decide +kernel
  have hstandalone' : articles.withoutQueries.Standalone := by decide +kernel
  have happart : articles.KeepsApart := by
    refine Declaration.keepsApart_of_plain fun i pattern path parts hpattern hquery hparse hparts ↦ ?_
    cases i with
    | succ i => cases hpattern
    | zero =>
      cases hpattern
      obtain rfl : [.literal "/article/", .placeholder "id" none] = path := Except.ok.inj (Eq.trans rfl hparse)
      obtain rfl : [⟨"page", "page", none⟩] = parts :=
        List.map_injective_iff.mpr (Option.some_injective _) (Eq.trans rfl hparts)
      refine ⟨?_, ?_, List.forall_mem_singleton.mpr ⟨?_, List.forall_mem_singleton.mpr ?_⟩⟩
      · unfold IsPlainPath
        decide +kernel
      · unfold PathSelfContained
        decide +kernel
      · decide +kernel
      · decide +kernel
  have hsame := (select_withoutQueries hbuild hstatic hstandalone hbuild' hstatic' hstandalone' happart
    "article/7?page=2").2 definition hwinner _ [.literal "/article/", .placeholder "id" none] (by rw [hindex]; rfl) rfl
    ("id", none) List.mem_cons_self
  refine ⟨found, bare, hfound, hbare, happart, hcaptured, hsame.trans ?_⟩
  rw [Selection.captured?, hcaptured]
  rfl

end Mapping

end PathBinding
