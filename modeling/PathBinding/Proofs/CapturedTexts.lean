import PathBinding.Proofs.DefaultTexts
import PathBinding.Proofs.QueryValues
import PathBinding.Proofs.SinglePattern
import PathBinding.Proofs.WellFormed

/-!
What captured text is like. If expressions can be held together and are without conditions on positions, the text that a
selection has for a parameter is matched in full by the expression of an occurrence of the parameter, in a path
(`Segment.fits_of_fillsAll`) and in a query (`Fragment.accepted_of_matchAlone`), whatever surrounds it
(`Mapping.fullyMatches_of_captured`). What the expressions of kinds match is read as values of the kinds, so where each
parameter is captured by the expression of its kind, a match does not fail on what it has captured (`match_reads`).
-/

set_option autoImplicit false
set_option relaxedAutoImplicit false

namespace PathBinding

open Regex

namespace Fragment

variable {context : Context} {filling : String → String} {parts : List QueryPart} {text : List Char}

/-- Assumes: a text ends in an ampersand, and the expressions of a query are without conditions on positions. A match of a
path with the query captures for a parameter of the query what the expression of a query part accepts. -/
theorem accepted_of_matchAlone {rs : List Regex} (hnodup : (Regex.group (some (Definition.fragmentName context.index))
      (sequence (rs ++ queryRegexes context filling parts))).groupNames.Nodup)
    (hfree : ∀ part ∈ parts,
      (bodyOf (regexOf context.declaration filling true part.name part.inline?)).lookFree = true)
    (hend : text.getLast? = some '&') {v : Thread}
    (hv : Mapping.matchAlone (.group (some (Definition.fragmentName context.index))
      (sequence (rs ++ queryRegexes context filling parts))) text = some v) {part : QueryPart} (hpart : part ∈ parts)
    {word : List Char}
    (hword : v.captured? (Definition.groupNameIn (Definition.fragmentName context.index) part.name) = some word) :
    ∃ other ∈ parts, other.name = part.name ∧
      (bodyOf (regexOf context.declaration filling true other.name other.inline?)).Accepts word := by
  let branches : List Branch := parts.map (QueryPart.branch context filling)
  rw [queryRegexes, groupNames_query, List.nodup_cons] at hnodup
  have hnames := (List.nodup_append.mp hnodup.2).2.1
  rw [queryRegexes, regexes_branches] at hv
  obtain ⟨t, -, u, hmark, hcloses, rfl, hnone⟩ := Mapping.closes_of_match hend hv
  rw [Thread.atMark, beq_iff_eq] at hmark
  obtain ⟨rest, hrest⟩ := List.head?_eq_some_iff.mp hmark
  have hbefore : AcceptedBy branches (part.branch context filling).name t := by
    intro w hw
    rw [hnone _ fun hin ↦ List.disjoint_of_nodup_append hnodup.2 hin (mem_groupNames_branch hpart)] at hw
    cases hw
  have hafter := acceptedBy_closes (List.forall_mem_map.mpr hfree) hcloses hrest (isOwn_of_nodup hnames hpart) hbefore
  rw [Mapping.captured?_capture _ (Definition.groupNameIn_ne _ part.name)] at hword
  obtain ⟨b, hb, hname, haccepts⟩ := hafter word hword
  obtain ⟨other, hother, rfl⟩ := List.mem_map.mp hb
  exact ⟨other, hother, Definition.groupNameIn_inj hname, haccepts⟩

/-- The literals of a path are plain, and the expressions of all occurrences in it and in the query can be held together
and are without conditions on positions. -/
structure IsHeld (declaration : Declaration) (path : List Segment) (parts : List QueryPart) : Prop where
  plain : IsPlainPath path
  path : ∀ p ∈ Segment.placeholdersAll path,
    ∃ body, held? (declaration.pathRegex p.1 p.2) = some body ∧ body.lookFree = true
  query : ∀ part ∈ parts,
    ∃ body, held? (declaration.queryRegex part.name part.inline?) = some body ∧ body.lookFree = true

end Fragment

/-- All patterns have plain literals, and expressions that can be held together and are without conditions on positions. -/
def Declaration.IsHeld (declaration : Declaration) : Prop :=
  ∀ i pattern path parts, declaration.Declares i pattern path parts → Fragment.IsHeld declaration path parts

namespace Mapping

variable {declaration : Declaration} {settings : Settings} {mapping : Mapping} {text : String} {regex : Regex}

/-- The groups that a static mapping is matched by are what its patterns mean. -/
theorem groups_of_held (hbuild : build declaration settings = .ok mapping) (hstatic : mapping.source = .static text regex)
    (hheld : declaration.IsHeld) (filling : String → String) :
    ∃ compiled groups, compileFrom declaration 0 declaration.patterns = .ok compiled ∧
      mapping.patterns = compiled.map Prod.fst ∧ regex = joined groups ∧
      List.Forall₂ IsGroupOf mapping.patterns groups ∧ (groups.flatMap groupNames).Nodup ∧
      ∀ (i : Nat) (pattern : PatternDeclaration) (path : List Segment) (parts : List Fragment.QueryPart),
        declaration.Declares i pattern path parts →
          groups[i]? = some (Fragment.fragmentRegex ⟨declaration, pattern.pattern, i⟩ filling path parts) := by
  obtain ⟨compiled, hcompiled, hpatterns, hparse⟩ := compiled_of_static hbuild hstatic filling
  obtain ⟨groups, hgroups, hof, hregex, hnodup⟩ := groups_of_plain hcompiled hparse fun i pattern path parts hdeclares ↦ by
    obtain ⟨hpaths, hqueries⟩ := regexOf_of_static hbuild hstatic hdeclares filling
    obtain ⟨hplain, hpath, hquery⟩ := hheld i pattern path parts hdeclares
    refine ⟨hplain, fun p hp ↦ ?_, fun part hpart ↦ ?_⟩
    · rw [hpaths p hp]
      exact (Fragment.bodyOf_of_held (hpath p hp)).1
    · rw [hqueries part hpart]
      exact (Fragment.bodyOf_of_held (hquery part hpart)).1
  exact ⟨compiled, groups, hcompiled, hpatterns, hregex, hpatterns ▸ hof, hnodup, fun _ _ _ _ hdeclares ↦
    group_of_fragments hcompiled hgroups hdeclares⟩

/-- What is captured for a parameter is matched in full by the expression of an occurrence of it. -/
theorem fullyMatches_of_captured (hbuild : build declaration settings = .ok mapping)
    (hstatic : mapping.source = .static text regex) (hheld : declaration.IsHeld) {request name word : String}
    (hcaptured : (mapping.select regex request).captured? name = some word) :
    ∃ i pattern path parts, declaration.Declares i pattern path parts ∧
      ((∃ p ∈ Segment.placeholdersAll path, p.1 = name ∧ FullyMatches (declaration.pathRegex p.1 p.2) word.toList) ∨
        ∃ part ∈ parts, part.name = name ∧
          FullyMatches (declaration.queryRegex part.name part.inline?) word.toList) := by
  let filling : String → String := fun _ ↦ ""
  have hwinner : (mapping.select regex request).winner ≠ none := by
    intro hmiss
    rw [Selection.captured?, (isProper_select hbuild regex request).miss hmiss] at hcaptured
    cases hcaptured
  obtain ⟨definition, hwinner⟩ := Option.ne_none_iff_exists'.mp hwinner
  obtain ⟨compiled, groups, hcompiled, hpatterns, rfl, hof, hnodup, hgroups⟩ := groups_of_held hbuild hstatic hheld filling
  obtain ⟨pattern, pieces, t, hpattern, hok, ht, hselect⟩ := match_of_winner hcompiled hpatterns hof hnodup hwinner
  obtain ⟨path, parts, hdeclares⟩ := exists_declares hpattern hok
  have hr := hgroups _ _ _ _ hdeclares
  obtain ⟨-, hpath, hquery⟩ := hheld _ _ _ _ hdeclares
  obtain ⟨hpaths, hqueries⟩ := regexOf_of_static hbuild hstatic hdeclares filling
  have hnames := (List.nodup_flatMap.mp hnodup).1 _ (List.mem_of_getElem? hr)
  have hlookup := hcaptured
  rw [hselect, Selection.captured?, lookup_capturedBy] at hlookup
  split at hlookup
  case isFalse => cases hlookup
  case isTrue hmem =>
  refine ⟨definition.index, pattern, path, parts, hdeclares, ?_⟩
  rw [(hdeclares.compiled hok).1, List.mem_append] at hmem
  -- The name stands in the path, or else in the query.
  rcases hmem with hmem | hmem
  · obtain ⟨p, hp, rfl⟩ := List.mem_map.mp hmem
    obtain ⟨-, hfree, hmeans⟩ := Fragment.means_of_held ⟨declaration, pattern.pattern, definition.index⟩ hpaths hpath
    obtain ⟨e, q, -, hfills⟩ := fills_of_select hcompiled hpatterns hof hnodup hdeclares hr
      (Fragment.fitsWhatIsRead_of_lookFree hfree) rfl hwinner
    refine .inl ⟨p, hp, rfl, (hmeans p hp _).mp (Segment.fits_of_fillsAll hfills hp ?_)⟩
    rw [hcaptured]
    rfl
  · obtain ⟨part, hpart, rfl⟩ := List.mem_map.mp hmem
    obtain ⟨w, hw, rfl⟩ := Option.map_eq_some_iff.mp hlookup
    rw [hr, Option.bind_some] at ht
    have hfree : ∀ part ∈ parts,
        (Fragment.bodyOf (Fragment.regexOf declaration filling true part.name part.inline?)).lookFree = true := by
      intro part hpart
      rw [hqueries part hpart]
      exact (Fragment.bodyOf_of_held (hquery part hpart)).2
    obtain ⟨other, hother, hname, haccepts⟩ :=
      Fragment.accepted_of_matchAlone hnames hfree (getLast?_normalizePath request) ht hpart hw
    rw [hqueries other hother] at haccepts
    refine .inr ⟨other, hother, hname, ?_⟩
    rwa [String.toList_ofList, Fragment.fullyMatches_iff (Fragment.bodyOf_of_held (hquery other hother)).1]

end Mapping

/-! ### Expressions of kinds -/

/-- The expression is that of the kind, or the one that captures a string in a query. -/
def Kind.CapturedBy (kind : Kind) (regex : String) : Prop :=
  kind.defaultRegex? = some regex ∨ kind = .string ∧ regex = queryStringRegex

instance (kind : Kind) (regex : String) : Decidable (kind.CapturedBy regex) :=
  inferInstanceAs (Decidable (_ ∨ _))

namespace Kind.CapturedBy

variable {kind : Kind} {regex : String}

theorem held (h : kind.CapturedBy regex) : ∃ body, held? regex = some body ∧ body.lookFree = true := by
  rcases h with hdefault | ⟨-, rfl⟩
  · exact lookFree_default hdefault
  · have hany : (held? queryStringRegex).any (·.lookFree) = true := by decide +kernel
    exact (Option.any_eq_true _ _).mp hany

theorem read (h : kind.CapturedBy regex) {word : String} (hmatch : FullyMatches regex word.toList) :
    ∃ value, kind.read word = .ok value := by
  rcases h with hdefault | ⟨rfl, -⟩
  · obtain ⟨value, hread, -⟩ := read_default hdefault hmatch
    rw [String.ofList_toList] at hread
    exact ⟨value, hread⟩
  · exact ⟨.string word, rfl⟩

end Kind.CapturedBy

/-- The literals of a path are plain, and each occurrence of a parameter in it and in the query is captured by the
expression of its kind. -/
structure Fragment.CapturesByKind (declaration : Declaration) (path : List Segment) (parts : List QueryPart) : Prop where
  plain : IsPlainPath path
  path : ∀ p ∈ Segment.placeholdersAll path, ∀ d ∈ declaration.find? p.1,
    d.kind.CapturedBy (declaration.pathRegex p.1 p.2)
  query : ∀ part ∈ parts, ∀ d ∈ declaration.find? part.name,
    d.kind.CapturedBy (declaration.queryRegex part.name part.inline?)

/-- All patterns have plain literals and capture parameters by the expressions of their kinds. -/
def Declaration.CapturesByKind (declaration : Declaration) : Prop :=
  ∀ i pattern path parts, declaration.Declares i pattern path parts → Fragment.CapturesByKind declaration path parts

namespace Mapping

variable {declaration : Declaration} {settings : Settings} {mapping : Mapping} {text : String} {regex : Regex}

/-- All occurrences in a declaration that builds are those of declared parameters. -/
theorem exists_find?_of_declares (hbuild : build declaration settings = .ok mapping) {i : Nat}
    {pattern : PatternDeclaration} {path : List Segment} {parts : List Fragment.QueryPart}
    (hdeclares : declaration.Declares i pattern path parts) :
    ∀ p ∈ Segment.placeholdersAll path ++ parts.map Fragment.QueryPart.occurrence,
      ∃ d, declaration.find? p.1 = some d := by
  have hwell := (build_tells declaration settings).ok_iff.trans faults_eq_nil_iff |>.mp ⟨mapping, hbuild⟩
  have hpattern := hwell.patterns pattern (List.mem_of_getElem? hdeclares.declared)
  intro p hp
  rw [← occurrences_of_declares hdeclares] at hp
  exact Option.isSome_iff_exists.mp (Fragment.exists_descriptor_iff.mp (hpattern.declared p hp))

theorem isHeld_of_capturesByKind (hbuild : build declaration settings = .ok mapping) (h : declaration.CapturesByKind) :
    declaration.IsHeld := by
  intro i pattern path parts hdeclares
  obtain ⟨hplain, hpath, hquery⟩ := h i pattern path parts hdeclares
  have hfind := exists_find?_of_declares hbuild hdeclares
  refine ⟨hplain, fun p hp ↦ ?_, fun part hpart ↦ ?_⟩
  · obtain ⟨d, hd⟩ := hfind p (List.mem_append_left _ hp)
    exact (hpath p hp d hd).held
  · obtain ⟨d, hd⟩ := hfind part.occurrence (List.mem_append_right _ (List.mem_map_of_mem hpart))
    exact (hquery part hpart d hd).held

/-- What is captured by the expressions of kinds can be read. -/
theorem isReadable_of_capturesByKind (hbuild : build declaration settings = .ok mapping)
    (hstatic : mapping.source = .static text regex) (h : declaration.CapturesByKind) (request : String) :
    (mapping.select regex request).IsReadable mapping.parameters := by
  intro d hd word hword
  have hfind : declaration.find? d.name = some d := by
    have hown := find?_of_mem (nodup_names hbuild) hd
    rwa [find?, parameters_of_build hbuild] at hown
  obtain ⟨i, pattern, path, parts, hdeclares, hmatch⟩ :=
    fullyMatches_of_captured hbuild hstatic (isHeld_of_capturesByKind hbuild h) hword
  obtain ⟨-, hpath, hquery⟩ := h i pattern path parts hdeclares
  rcases hmatch with ⟨p, hp, hname, hmatch⟩ | ⟨part, hpart, hname, hmatch⟩
  · exact (hpath p hp d (hname ▸ hfind)).read hmatch
  · exact (hquery part hpart d (hname ▸ hfind)).read hmatch

end Mapping

/-- The expression of a kind matches texts of the kind only: each is converted to a value of the kind, and to the number
that it denotes if it is one. Assumes: a declaration leaves no gaps, its literals are plain, and each occurrence of a
parameter is captured by the expression of its kind; a type of views has no mapping yet, or one that has been built from the
declaration; and a view accepts all parameters. A match of any path goes through if the declaration builds, and otherwise
it fails with a build error. -/
theorem match_reads :
    (∀ kind : Kind, (∀ name, kind ≠ .other name) → ∃ regex, kind.defaultRegex? = some regex ∧
      ∀ s : String, FullyMatches regex s.toList → ∀ parameter, ∃ value, kind.parse parameter s = .ok value ∧
        value.kind = kind ∧ ∀ number ∈ value.number?, number = Numeral.denoted s.toList) ∧
    ∀ declaration : Declaration, Fragment.IsGapless declaration → declaration.CapturesByKind →
      ∀ (registry : Registry) (key : TypeKey), (∀ mapping, registry.mapping? key = some mapping →
          ∃ settings, Mapping.build declaration settings = .ok mapping) →
        ∀ view : View, (∀ d ∈ declaration.parameters, view.type.Accepts d) → ∀ path,
          let found := registry.matchPath key declaration view path
          ((∃ mapping, (registry.mapping key declaration).result = .ok mapping) → ∃ outcome, found.2.result = .ok outcome) ∧
          ∀ e, found.2.result = .error e → e.isBuildError = true := by
  refine ⟨fun kind hkind ↦ ?_, fun declaration hgapless hcaptures registry key hkept view haccepts path ↦ ?_⟩
  · cases hdefault : kind.defaultRegex? with
    | none =>
      cases kind with
      | other name => exact absurd rfl (hkind name)
      | _ => cases hdefault
    | some regex =>
      refine ⟨regex, rfl, fun s hs parameter ↦ ?_⟩
      obtain ⟨value, hread, hvalue⟩ := Kind.read_default hdefault hs
      rw [String.ofList_toList] at hread
      exact ⟨value, by rw [Kind.parse, hread], hvalue⟩
  · intro found
    have hgoes : (∃ mapping, (registry.mapping key declaration).result = .ok mapping) →
        ∃ outcome, found.2.result = .ok outcome := by
      rintro ⟨mapping, hmapping⟩
      obtain ⟨settings, hbuild⟩ : ∃ settings, Mapping.build declaration settings = .ok mapping := by
        rcases Registry.mapping_result_eq_ok hmapping with hcached | ⟨-, hbuild⟩
        · exact hkept mapping hcached
        · exact ⟨registry.settings, hbuild⟩
      obtain ⟨text, regex, hsource⟩ := Mapping.static_of_isGapless hgapless hbuild
      rw [← Mapping.parameters_of_build hbuild] at haccepts
      exact (registry.matchPath_leaves hbuild hsource hmapping haccepts path).1.mpr
        (Mapping.isReadable_of_capturesByKind hbuild hsource hcaptures path)
    refine ⟨hgoes, fun e he ↦ ?_⟩
    cases hmapping : (registry.mapping key declaration).result with
    | ok mapping =>
      obtain ⟨outcome, houtcome⟩ := hgoes ⟨mapping, hmapping⟩
      exact nomatch houtcome.symm.trans he
    | error fault =>
      have hfound : found = _ := Registry.matchPath_of_fault hmapping view path
      rw [hfound] at he
      cases he
      exact Mapping.isBuildError_of_build (Registry.mapping_result_eq_error hmapping).2

/-- Bills of a year, by their amounts, with a remark on whether they are paid. -/
def bills : Declaration where
  owner := "Bills"
  parameters := [{ name := "year", kind := .integer }, { name := "amount", kind := .long },
    { name := "paid", kind := .boolean }, { name := "remark", kind := .string }]
  patterns := [{ pattern := "bills/:year[/:amount]", query := ["paid=:paid", "remark=:remark:[^/]+:"] }]

/-- A remark may take in what looks like another pair, and still what is captured is read. -/
theorem match_reads_bill :
    (∃ value, Kind.parse .integer "year" "-0012" = .ok value ∧ ∀ number ∈ value.number?, number = -12) ∧
    ∃ outcome, (Registry.matchPath { settings := {} } (.declared 0) bills ⟨⟨.anyExcept [], true⟩, [], none⟩
      "bills/-0012/0899?paid=true&remark=late&paid=no").2.result = .ok outcome := by
  obtain ⟨htexts, hmatches⟩ := match_reads
  refine ⟨?_, ?_⟩
  · obtain ⟨regex, hregex, hparse⟩ := htexts .integer nofun
    cases hregex
    obtain ⟨value, hvalue, -, hnumber⟩ := hparse "-0012" (by decide +kernel) "year"
    exact ⟨value, hvalue, fun number hmem ↦ (hnumber number hmem).trans (by decide)⟩
  · let pattern : PatternDeclaration := ⟨"bills/:year[/:amount]", ["paid=:paid", "remark=:remark:[^/]+:"]⟩
    let path : List Segment := [.literal "/bills/", .placeholder "year" none,
      .optional [.literal "/", .placeholder "amount" none]]
    let parts : List Fragment.QueryPart := [⟨"paid", "paid", none⟩, ⟨"remark", "remark", some "[^/]+"⟩]
    have hparsed : Segment.parse (Fragment.rooted "bills/:year[/:amount]") = .ok path := rfl
    have hdeclares : bills.Declares 0 pattern path parts := ⟨rfl, hparsed, rfl⟩
    have hplain : Fragment.IsPlainPath path := by
      unfold Fragment.IsPlainPath
      decide +kernel
    have hpath : ∀ p ∈ Segment.placeholdersAll path, ∀ d ∈ bills.find? p.1, d.kind.CapturedBy (bills.pathRegex p.1 p.2) := by
      decide +kernel
    have hquery : ∀ part ∈ parts, ∀ d ∈ bills.find? part.name,
        d.kind.CapturedBy (bills.queryRegex part.name part.inline?) := by
      decide +kernel
    have hcaptures : bills.CapturesByKind := by
      intro i own path' parts' hown
      obtain ⟨rfl, rfl, rfl, rfl⟩ := hdeclares.eq_of_single rfl hown
      exact ⟨hplain, hpath, hquery⟩
    have hstatic : Fragment.IsStatic bills := by
      unfold Fragment.IsStatic
      decide
    have hfound : (Mapping.staticBuild? bills {}).isSome := by decide +kernel
    obtain ⟨⟨mapping, regex⟩, hfound⟩ := Option.isSome_iff_exists.mp hfound
    obtain ⟨text, hbuild, -⟩ := Mapping.staticBuild?_eq_some hfound
    have hnone : Registry.mapping? { settings := {} } (.declared 0) = none := rfl
    have hgoes := (hmatches bills hstatic.isGapless hcaptures { settings := {} } (.declared 0)
      (fun mapping hkept ↦ nomatch hnone.symm.trans hkept) ⟨⟨.anyExcept [], true⟩, [], none⟩
      (fun d _ ↦ ViewType.accepts_of_anyExcept rfl List.not_mem_nil)
      "bills/-0012/0899?paid=true&remark=late&paid=no").1
    exact hgoes ⟨mapping, by rw [Registry.mapping_of_build hnone hbuild]⟩

end PathBinding
