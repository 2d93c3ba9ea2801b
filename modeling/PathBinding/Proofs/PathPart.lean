import PathBinding.Proofs.Completion

/-!
What the query of a request cannot change. If the parameters in the paths have the expressions of their kinds, two
requests with the same text in front of the first question mark select the same pattern and capture the same for the
parameters in its path, all of it in front of the question mark (`select_front`). This asks that the expressions of the
queries can be held together, and that no path goes on behind the first question mark: either no second one follows, or
no path can take one in. The expression of strings takes in question marks (`select_further`).
-/

set_option autoImplicit false
set_option relaxedAutoImplicit false

namespace PathBinding

open Regex

/-! ### The expressions of kinds -/

namespace Kind

theorem isSelfContained_default {kind : Kind} {regex : String} (h : kind.defaultRegex? = some regex) :
    Fragment.IsSelfContained regex := by
  cases kind with
  | other name => cases h
  | _ =>
    cases h
    decide +kernel

/-- Only strings take in question marks. -/
theorem mentions_default {kind : Kind} {regex : String} (h : kind.defaultRegex? = some regex) (hkind : kind ≠ .string) :
    (Fragment.bodyOf regex).mentions '?' = false := by
  cases kind with
  | other name => cases h
  | string => exact absurd rfl hkind
  | _ =>
    cases h
    decide +kernel

end Kind

namespace Declaration

/-- In the paths all literals are plain and each parameter has the expression of its kind, and the expressions of the
queries can be held together. -/
def HasDefaultPaths (declaration : Declaration) (filling : String → String) : Prop :=
  ∀ (i : Nat) (pattern : PatternDeclaration) (path : List Segment) (parts : List Fragment.QueryPart),
    declaration.patterns[i]? = some pattern → Segment.parse (Fragment.rooted pattern.pattern) = .ok path →
    pattern.query.map Fragment.queryPart? = parts.map some →
      Fragment.IsPlainPath path ∧
      (∀ p ∈ Segment.placeholdersAll path, ∃ descriptor, declaration.find? p.1 = some descriptor ∧
        descriptor.kind.defaultRegex? = some (Fragment.regexOf declaration filling false p.1 p.2)) ∧
      Fragment.QuerySelfContained ⟨declaration, pattern.pattern, i⟩ filling parts

/-- No path can take in a question mark: none has a string in it or a question mark in its text. -/
def TakesNoMark (declaration : Declaration) : Prop :=
  ∀ pattern ∈ declaration.patterns, ∀ path, Segment.parse (Fragment.rooted pattern.pattern) = .ok path →
    (∀ text ∈ Segment.literalsAll path, '?' ∉ Segment.unescapeChars text.toList) ∧
    ∀ p ∈ Segment.placeholdersAll path, ∀ descriptor, declaration.find? p.1 = some descriptor →
      descriptor.kind ≠ .string

end Declaration

namespace Fragment

variable {context : Context} {filling : String → String} {c : Char}

theorem mentions_characters {text : List Char} (h : c ∉ text) : ∀ r ∈ characters text, r.mentions c = false := by
  intro r hr
  obtain ⟨d, hd, rfl⟩ := List.mem_map.mp hr
  rw [mentions, ← Bool.not_eq_true, single_contains]
  rintro rfl
  exact h hd

mutual

theorem mentions_segment {segment : Segment}
    (hliterals : ∀ text ∈ segment.literals, c ∉ Segment.unescapeChars text.toList)
    (h : ∀ p ∈ segment.placeholders,
      (bodyOf (regexOf context.declaration filling false p.1 p.2)).mentions c = false) :
    ∀ r ∈ segmentRegexes context filling segment, r.mentions c = false := by
  cases segment with
  | literal text => exact mentions_characters (hliterals text List.mem_cons_self)
  | placeholder name inline? => exact List.forall_mem_singleton.mpr (h (name, inline?) List.mem_cons_self)
  | positional index => exact fun _ hr ↦ absurd hr List.not_mem_nil
  | optional inner => exact List.forall_mem_singleton.mpr (mentions_sequence (mentions_segments hliterals h))

/-- The expressions of a path mention the characters that its literals and parameters mention. -/
theorem mentions_segments {path : List Segment}
    (hliterals : ∀ text ∈ Segment.literalsAll path, c ∉ Segment.unescapeChars text.toList)
    (h : ∀ p ∈ Segment.placeholdersAll path,
      (bodyOf (regexOf context.declaration filling false p.1 p.2)).mentions c = false) :
    ∀ r ∈ segmentsRegexes context filling path, r.mentions c = false := by
  cases path with
  | nil => exact fun _ hr ↦ absurd hr List.not_mem_nil
  | cons segment rest =>
    obtain ⟨hliterals, hliterals'⟩ := List.forall_mem_append.mp hliterals
    obtain ⟨h, h'⟩ := List.forall_mem_append.mp h
    exact List.forall_mem_append.mpr ⟨mentions_segment hliterals h, mentions_segments hliterals' h'⟩

end

end Fragment

namespace Mapping

open Fragment

variable {declaration : Declaration} {settings : Settings} {mapping : Mapping} {producers : Producers} {view : View}
  {regex : Regex}

/-- With default paths the expression of a mapping is made of what its patterns mean. -/
theorem groups_of_defaultPaths {filling : String → String} {compiled : List (Definition × Pieces)}
    (hcompiled : compileFrom declaration 0 declaration.patterns = .ok compiled)
    (hparse : parse? ((join (compiled.map Prod.snd)).fill filling).toList = some regex)
    (hdefault : declaration.HasDefaultPaths filling) :
    ∃ groups, List.Forall₂ (fun c r ↦ IsFragmentOf declaration filling c.1 r) compiled groups ∧
      List.Forall₂ IsGroupOf (compiled.map Prod.fst) groups ∧ regex = joined groups ∧
      (groups.flatMap groupNames).Nodup := by
  refine groups_of_plain hcompiled hparse fun i pattern path parts hdeclares ↦ ?_
  obtain ⟨hplain, hkinds, hquery⟩ :=
    hdefault i pattern path parts hdeclares.declared hdeclares.parsed hdeclares.queries
  refine ⟨hplain, fun p hp ↦ ?_, hquery⟩
  obtain ⟨descriptor, -, hkind⟩ := hkinds p hp
  exact Kind.isSelfContained_default hkind

/-- Matches of pattern number `i` that capture the same for the parameters in its path, all of it in front. -/
def SameFront (declaration : Declaration) (front : List Char) (i : Nat) (t u : Thread) : Prop :=
  ∀ pattern path, declaration.patterns[i]? = some pattern → Segment.parse (rooted pattern.pattern) = .ok path →
    ∀ p ∈ Segment.placeholdersAll path,
      let name := Definition.groupNameIn (Definition.fragmentName i) p.1
      u.captured? name = t.captured? name ∧ ∀ word, t.captured? name = some word → word <:+: front

/-- No path goes on behind the first question mark of the requests. -/
theorem oneMark_of_hasDefaultPaths {filling : String → String} (hdefault : declaration.HasDefaultPaths filling)
    {i : Nat} {pattern : PatternDeclaration} {path : List Segment} {parts : List QueryPart}
    (hpattern : declaration.patterns[i]? = some pattern) (hpath : Segment.parse (rooted pattern.pattern) = .ok path)
    (hparts : pattern.query.map queryPart? = parts.map some) {rest : List Char}
    (hmark : '?' ∉ rest ∨ declaration.TakesNoMark) :
    OneMark (sequence (segmentsRegexes ⟨declaration, pattern.pattern, i⟩ filling path)) rest := by
  refine hmark.imp_right fun hnone ↦ ?_
  obtain ⟨hliterals, hkinds⟩ := hnone pattern (List.mem_of_getElem? hpattern) path hpath
  refine mentions_sequence (mentions_segments hliterals fun p hp ↦ ?_)
  obtain ⟨descriptor, hfind, hregex⟩ := (hdefault i pattern path parts hpattern hpath hparts).2.1 p hp
  exact Kind.mentions_default hregex (hkinds p hp descriptor hfind)

theorem match_sameFront {filling : String → String} (hdefault : declaration.HasDefaultPaths filling)
    {definition : Definition} {r : Regex} (hr : IsFragmentOf declaration filling definition r)
    (hnodup : r.groupNames.Nodup) {front rest rest' : List Char} (hfront : '?' ∉ front)
    (hmark : ('?' ∉ rest ∧ '?' ∉ rest') ∨ declaration.TakesNoMark)
    (hend : (front ++ '?' :: rest).getLast? = some '&') (hend' : (front ++ '?' :: rest').getLast? = some '&') :
    Option.Rel (SameFront declaration front definition.index) (matchAlone r (front ++ '?' :: rest))
      (matchAlone r (front ++ '?' :: rest')) := by
  obtain ⟨pattern, path, parts, hpattern, hpath, hparts, rfl⟩ := hr
  have hone := oneMark_of_hasDefaultPaths hdefault hpattern hpath hparts (hmark.imp_left And.left)
  have hone' := oneMark_of_hasDefaultPaths hdefault hpattern hpath hparts (hmark.imp_left And.right)
  have hmatch := matchAlone_front (Definition.fragmentName definition.index) _
    (parts.map (QueryPart.regexes ⟨declaration, pattern.pattern, definition.index⟩ filling)) hfront hone hone' hend hend'
  refine rel_imp hmatch fun t u hsame other otherPath hother hotherPath p hp ↦ ?_
  cases hpattern.symm.trans hother
  cases hpath.symm.trans hotherPath
  exact hsame _ (Definition.groupNameIn_ne _ p.1) (notMem_pair_of_path hnodup hp)

/-- Assumes: a mapping is completed for a view; in the paths all literals are plain and each parameter has the expression
of its kind, and the expressions of the queries can be held together; and behind the first question mark of two requests
no second one follows, or no path can take one in. Requests with the same text in front of the question mark select the
same pattern, and capture the same for the parameters in its path, all of it in front of the question mark. -/
theorem select_front (h : Completes declaration settings mapping producers view regex)
    (hdefault : declaration.HasDefaultPaths (mapping.filling producers view)) {front : String}
    (hfront : '?' ∉ front.toList) (query query' : String)
    (hmark : ('?' ∉ query.toList ∧ '?' ∉ query'.toList) ∨ declaration.TakesNoMark) :
    let found := mapping.select regex (front ++ "?" ++ query)
    let other := mapping.select regex (front ++ "?" ++ query')
    other.winner = found.winner ∧ ∀ definition, found.winner = some definition →
      ∀ pattern path, declaration.patterns[definition.index]? = some pattern →
        Segment.parse (rooted pattern.pattern) = .ok path → ∀ p ∈ Segment.placeholdersAll path,
          other.captured? p.1 = found.captured? p.1 ∧
            ∀ word, found.captured? p.1 = some word → word.toList <:+: '/' :: front.toList.dropWhile (· == '/') := by
  obtain ⟨compiled, hcompiled, hpatterns, hparse⟩ := h.compiled
  obtain ⟨groups, hgroups, hof, rfl, hnodup⟩ := groups_of_defaultPaths hcompiled hparse hdefault
  have hmark' : ('?' ∉ ended query.toList ∧ '?' ∉ ended query'.toList) ∨ declaration.TakesNoMark :=
    hmark.imp_left fun hnone ↦ ⟨notMem_ended hnone.1 (by decide), notMem_ended hnone.2 (by decide)⟩
  have hfront' : '?' ∉ '/' :: front.toList.dropWhile (· == '/') := by
    refine List.not_mem_cons_of_ne_of_not_mem (by decide) fun hin ↦ hfront ?_
    exact (List.dropWhile_suffix _).subset hin
  have hend := getLast?_normalizePath (front ++ "?" ++ query)
  have hend' := getLast?_normalizePath (front ++ "?" ++ query')
  have halike (i : Nat) : Option.Rel (SameFront declaration ('/' :: front.toList.dropWhile (· == '/')) i)
      (groups[i]?.bind (matchAlone · (normalizePath (front ++ "?" ++ query)).toList))
      (groups[i]?.bind (matchAlone · (normalizePath (front ++ "?" ++ query')).toList)) := by
    rw [normalizePath_mark] at hend hend' ⊢
    rw [normalizePath_mark]
    have hrel := rel_getElem? hgroups i
    cases hr : groups[i]? with
    | none => exact .none
    | some r =>
      rw [hr] at hrel
      cases hc : compiled[i]? with
      | none =>
        rw [hc] at hrel
        cases hrel
      | some c =>
        rw [hc] at hrel
        cases hrel with
        | some hfragment =>
          rw [Option.bind_some, Option.bind_some]
          have hmatch := match_sameFront hdefault hfragment
            ((List.nodup_flatMap.mp hnodup).1 r (List.mem_of_getElem? hr)) hfront' hmark' hend hend'
          rwa [index_of_compileFrom hcompiled hc] at hmatch
  intro found other
  rcases select_alike (hpatterns ▸ hof) hnodup (hpatterns ▸ hof) hnodup halike with
    ⟨hselect, hselect'⟩ | ⟨i, definition, definition', t, t', hdefinition, hdefinition', hsame, hselect, hselect'⟩
  · have hfound : found = .none := hselect
    have hother : other = .none := hselect'
    rw [hfound, hother]
    refine ⟨rfl, ?_⟩
    intro definition hwinner
    cases hwinner
  · cases hdefinition.symm.trans hdefinition'
    have hfound : found = ⟨some definition, capturedBy t definition⟩ := hselect
    have hother : other = ⟨some definition, capturedBy t' definition⟩ := hselect'
    rw [hfound, hother]
    refine ⟨rfl, ?_⟩
    intro winner hwinner pattern path hpattern hpath p hp
    cases hwinner
    rw [hpatterns, List.getElem?_map] at hdefinition
    obtain ⟨c, hc, rfl⟩ := Option.map_eq_some_iff.mp hdefinition
    rw [index_of_compileFrom hcompiled hc] at hpattern
    obtain ⟨hcaptured, hinfix⟩ := hsame pattern path hpattern hpath p hp
    rw [Selection.captured?, Selection.captured?, lookup_capturedBy, lookup_capturedBy, Definition.groupName,
      Definition.fragment, index_of_compileFrom hcompiled hc, hcaptured]
    refine ⟨rfl, fun word hword ↦ ?_⟩
    split at hword
    · obtain ⟨text, htext, rfl⟩ := Option.map_eq_some_iff.mp hword
      rw [String.toList_ofList]
      exact hinfix text htext
    · cases hword

/-- A string in the path. -/
def words : Declaration :=
  { owner := "Words"
    parameters := [⟨"s", .string, none, false⟩]
    patterns := [⟨":s", []⟩] }

/-- A query part whose expression ends the group around it. -/
def loose : Declaration :=
  { owner := "Loose"
    parameters := [⟨"n", .string, some "x)|y)z)(((w", false⟩]
    patterns := [⟨"list", ["k=:n"]⟩] }

/-- A string takes in the first question mark if another follows, and a query that cannot be held together decides whether
a path is matched. -/
theorem select_further : (words.HasDefaultPaths fun _ ↦ "") ∧
    (∃ found, staticBuild? words {} = some found ∧
      (found.1.select found.2 ("/a" ++ "?" ++ "x")).captured? "s" = some "a" ∧
      (found.1.select found.2 ("/a" ++ "?" ++ "x?y")).captured? "s" = some "a?x") ∧
    ∃ found, staticBuild? loose {} = some found ∧
      (found.1.select found.2 ("/list" ++ "?" ++ "")).winner = none ∧
      (found.1.select found.2 ("/list" ++ "?" ++ "yz")).winner.map Definition.index = some 0 := by
  have hwords : (staticBuild? words {}).any fun found ↦
      decide ((found.1.select found.2 ("/a" ++ "?" ++ "x")).captured? "s" = some "a") &&
        decide ((found.1.select found.2 ("/a" ++ "?" ++ "x?y")).captured? "s" = some "a?x") := by
    decide +kernel
  have hloose : (staticBuild? loose {}).any fun found ↦
      decide ((found.1.select found.2 ("/list" ++ "?" ++ "")).winner = none) &&
        decide ((found.1.select found.2 ("/list" ++ "?" ++ "yz")).winner.map Definition.index = some 0) := by
    decide +kernel
  obtain ⟨found, hfound, hselect⟩ := (Option.any_eq_true _ _).mp hwords
  obtain ⟨hfirst, hsecond⟩ := Bool.and_eq_true_iff.mp hselect
  obtain ⟨other, hother, hselect'⟩ := (Option.any_eq_true _ _).mp hloose
  obtain ⟨hfirst', hsecond'⟩ := Bool.and_eq_true_iff.mp hselect'
  refine ⟨?_, ⟨found, hfound, of_decide_eq_true hfirst, of_decide_eq_true hsecond⟩, other, hother,
    of_decide_eq_true hfirst', of_decide_eq_true hsecond'⟩
  intro i pattern path parts hpattern hpath hparts
  cases i with
  | succ i => cases hpattern
  | zero =>
    cases hpattern
    obtain rfl : [.literal "/", .placeholder "s" none] = path := Except.ok.inj (Eq.trans rfl hpath)
    obtain rfl : parts = [] := List.map_eq_nil_iff.mp hparts.symm
    refine ⟨?_, List.forall_mem_singleton.mpr ⟨_, rfl, rfl⟩, fun _ hpart ↦ absurd hpart List.not_mem_nil⟩
    unfold IsPlainPath
    decide +kernel

/-- Shelves by name, with pages. -/
def shelves : Declaration :=
  { owner := "Shelves"
    parameters := [⟨"shelf", .string, none, false⟩, ⟨"page", .integer, none, false⟩]
    patterns := [⟨"shelf/:shelf", ["page=:page"]⟩] }

/-- The name of a shelf is the same on each page. -/
theorem select_shelves : ∃ found, staticBuild? shelves {} = some found ∧
    (shelves.HasDefaultPaths fun _ ↦ "") ∧
    (found.1.select found.2 ("/shelf/a" ++ "?" ++ "page=2")).captured = [("shelf", "a"), ("page", "2")] ∧
    (found.1.select found.2 ("/shelf/a" ++ "?" ++ "page=x&y")).captured? "shelf" = some "a" := by
  have hselect : (staticBuild? shelves {}).any fun found ↦
      decide ((found.1.select found.2 ("/shelf/a" ++ "?" ++ "page=2")).winner.map Definition.index = some 0) &&
        decide ((found.1.select found.2 ("/shelf/a" ++ "?" ++ "page=2")).captured = [("shelf", "a"), ("page", "2")]) := by
    decide +kernel
  obtain ⟨found, hfound, hselect⟩ := (Option.any_eq_true _ _).mp hselect
  obtain ⟨hwinner, hcaptured⟩ := Bool.and_eq_true_iff.mp hselect
  obtain ⟨definition, hwinner, hindex⟩ := Option.map_eq_some_iff.mp (of_decide_eq_true hwinner)
  have hcaptured := of_decide_eq_true hcaptured
  obtain ⟨text, hbuild, hstatic⟩ := staticBuild?_eq_some hfound
  have hdefault (filling : String → String) : shelves.HasDefaultPaths filling := by
    intro i pattern path parts hpattern hpath hparts
    cases i with
    | succ i => cases hpattern
    | zero =>
      cases hpattern
      obtain rfl : [.literal "/shelf/", .placeholder "shelf" none] = path := Except.ok.inj (Eq.trans rfl hpath)
      obtain rfl : [⟨"page", "page", none⟩] = parts :=
        List.map_injective_iff.mpr (Option.some_injective _) (Eq.trans rfl hparts)
      refine ⟨?_, List.forall_mem_singleton.mpr ⟨_, rfl, rfl⟩, List.forall_mem_singleton.mpr ?_⟩
      · unfold IsPlainPath
        decide +kernel
      · exact Kind.isSelfContained_default (rfl : Kind.integer.defaultRegex? = some _)
  have hfront : '?' ∉ "/shelf/a".toList := by decide
  have hsame := (select_front (completes_of_static hbuild hstatic [] ⟨⟨.anyExcept [], false⟩, [], none⟩) (hdefault _)
    hfront "page=2" "page=x&y" (Or.inl (by decide))).2 definition hwinner
    ⟨"shelf/:shelf", ["page=:page"]⟩ [.literal "/shelf/", .placeholder "shelf" none] (by rw [hindex]; rfl) rfl
    ("shelf", none) List.mem_cons_self
  refine ⟨found, hfound, hdefault _, hcaptured, hsame.1.trans ?_⟩
  rw [Selection.captured?, hcaptured]
  rfl

end Mapping

end PathBinding
