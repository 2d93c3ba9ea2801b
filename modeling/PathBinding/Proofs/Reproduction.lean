import PathBinding.Proofs.Completion
import PathBinding.Proofs.Match
import PathBinding.Proofs.Segment.Rooted

/-!
Rendering what has been matched. The winner of a request has its path filled with what it captures, in front of a question
mark of the request (`fills_of_select`). A view that the match has gone through holds values with these texts, as long as
the texts are the canonical ones (`textOf_of_leaves`), so the pattern as a template renders the path again
(`format_reproduces`).
-/

set_option autoImplicit false
set_option relaxedAutoImplicit false

namespace PathBinding

open Regex

namespace Fragment

variable {context : Context}

theorem find?_of_placeholder {draft next : Draft} {name : String} {inline? : Option String} {inQuery : Bool}
    (h : placeholder context name inline? inQuery draft = .ok next) : (context.declaration.find? name).isSome := by
  cases hfind : context.declaration.find? name with
  | none =>
    rw [placeholder, hfind] at h
    cases h
  | some descriptor => rfl

mutual

theorem isNamed_of_segment {draft next : Draft} {segment : Segment} (hok : Fragment.segment context draft segment = .ok next)
    (hbare : ∀ p ∈ segment.placeholders, p.2 = none) :
    segment.IsNamed fun name ↦ (context.declaration.find? name).isSome := by
  cases segment with
  | literal text => trivial
  | placeholder name inline? => exact ⟨hbare (name, inline?) List.mem_cons_self, find?_of_placeholder hok⟩
  | positional index => cases hok
  | optional inner =>
    obtain ⟨inside, hinside, -⟩ := bind_eq_ok.mp hok
    exact allNamed_of_segments hinside hbare

/-- A path that compiles names declared parameters only. -/
theorem allNamed_of_segments {draft next : Draft} {path : List Segment} (hok : segments context draft path = .ok next)
    (hbare : ∀ p ∈ Segment.placeholdersAll path, p.2 = none) :
    Segment.AllNamed (fun name ↦ (context.declaration.find? name).isSome) path := by
  cases path with
  | nil => trivial
  | cons segment rest =>
    obtain ⟨middle, hsegment, hrest⟩ := bind_eq_ok.mp hok
    obtain ⟨hbare, hbare'⟩ := List.forall_mem_append.mp hbare
    exact ⟨isNamed_of_segment hsegment hbare, allNamed_of_segments hrest hbare'⟩

end

end Fragment

namespace Mapping

variable {declaration : Declaration} {settings : Settings} {mapping : Mapping} {text : String} {regex : Regex}

/-- In a static mapping no occurrence without an expression of its own is one of a dynamic parameter. -/
theorem not_isDynamic_of_static (hbuild : build declaration settings = .ok mapping)
    (hstatic : mapping.source = .static text regex) {pattern : PatternDeclaration} (hmem : pattern ∈ declaration.patterns)
    {p : String × Option String} (hp : p ∈ Fragment.occurrences pattern) (hnone : p.2 = none) :
    ¬Fragment.IsDynamic declaration p.1 := by
  obtain ⟨compiled, hcompiled, -, -, hsource⟩ := build_ok hbuild
  rw [hstatic] at hsource
  obtain ⟨_, _, -, hjoin, -⟩ := hsource.resolve_left nofun
  have hgaps := (slots_of_compileFrom hcompiled).symm.trans (Pieces.slots_of_static? hjoin)
  exact Fragment.gapsOf_eq_nil_iff.mp hgaps p (List.mem_flatMap.mpr ⟨pattern, hmem, hp⟩) hnone

section Declares

variable {i : Nat} {pattern : PatternDeclaration} {path : List Segment} {parts : List Fragment.QueryPart}

theorem occurrences_of_declares (h : declaration.Declares i pattern path parts) :
    Fragment.occurrences pattern = Segment.placeholdersAll path ++ parts.map Fragment.QueryPart.occurrence := by
  have hparts : pattern.query.filterMap Fragment.queryPart? = parts := by
    have hmap : pattern.query.filterMap Fragment.queryPart? = (pattern.query.map Fragment.queryPart?).filterMap id := by
      rw [List.filterMap_map]
      rfl
    rw [hmap, h.queries, List.filterMap_map]
    exact List.filterMap_some
  rw [Fragment.occurrences, h.parsed, hparts]
  rfl

/-- In a static mapping all parameters are captured by their declared expressions. -/
theorem regexOf_of_static (hbuild : build declaration settings = .ok mapping) (hstatic : mapping.source = .static text regex)
    (hdeclares : declaration.Declares i pattern path parts) (filling : String → String) :
    (∀ p ∈ Segment.placeholdersAll path,
      Fragment.regexOf declaration filling false p.1 p.2 = declaration.pathRegex p.1 p.2) ∧
    ∀ part ∈ parts, Fragment.regexOf declaration filling true part.name part.inline? =
      declaration.queryRegex part.name part.inline? := by
  have hstatic {p : String × Option String} (hp : p ∈ Fragment.occurrences pattern) (hnone : p.2 = none) :
      ¬Fragment.IsDynamic declaration p.1 :=
    not_isDynamic_of_static hbuild hstatic (List.mem_of_getElem? hdeclares.declared) hp hnone
  rw [occurrences_of_declares hdeclares] at hstatic
  refine ⟨fun p hp ↦ ?_, fun part hpart ↦ ?_⟩
  · exact Fragment.regexOf_path_of_not_isDynamic (hstatic (List.mem_append_left _ hp)) filling
  · have hmem : part.occurrence ∈ parts.map Fragment.QueryPart.occurrence := List.mem_map_of_mem hpart
    exact Fragment.regexOf_query_of_not_isDynamic (hstatic (List.mem_append_right _ hmem)) filling

/-- The group of a pattern whose parts can all be told is the expression that they are meant to be. -/
theorem group_of_declares {compiled : List (Definition × Pieces)} {groups : List Regex} {filling : String → String}
    (hcompiled : compileFrom declaration 0 declaration.patterns = .ok compiled)
    (hgroups : List.Forall₂ (Denotes filling) compiled groups) (hdeclares : declaration.Declares i pattern path parts)
    (hplain : Fragment.IsPlainPath path)
    (hpath : Fragment.PathSelfContained ⟨declaration, pattern.pattern, i⟩ filling path)
    (hquery : Fragment.QuerySelfContained ⟨declaration, pattern.pattern, i⟩ filling parts) :
    groups[i]? = some (Fragment.fragmentRegex ⟨declaration, pattern.pattern, i⟩ filling path parts) := by
  obtain ⟨⟨definition, pieces⟩, hc, hok⟩ := (compileFrom_ok hcompiled).2 i pattern hdeclares.declared
  rw [Nat.zero_add] at hok
  have hrel := rel_getElem? hgroups i
  rw [hc] at hrel
  cases hr : groups[i]? with
  | none =>
    rw [hr] at hrel
    cases hrel
  | some r =>
    rw [hr] at hrel
    cases hrel with
    | some hdenotes =>
      have hpart := hdenotes.part
      rw [(hdeclares.compiled hok).2 filling] at hpart
      have hwrites := Fragment.writes_fragment hplain (Segment.named_of_parse hdeclares.parsed)
        (Fragment.isName_of_mem hdeclares.queries) hpath hquery
      rw [eq_of_part? hwrites hpart]

/-- A pattern that wins has been compiled under its index, and what its group captures alone is selected. -/
theorem match_of_winner {compiled : List (Definition × Pieces)} {groups : List Regex}
    (hcompiled : compileFrom declaration 0 declaration.patterns = .ok compiled)
    (hpatterns : mapping.patterns = compiled.map Prod.fst) (hgroups : List.Forall₂ IsGroupOf mapping.patterns groups)
    (hnodup : (groups.flatMap groupNames).Nodup) {request : String} {definition : Definition}
    (hwinner : (mapping.select (joined groups) request).winner = some definition) :
    ∃ pattern pieces t, declaration.patterns[definition.index]? = some pattern ∧
      Fragment.compile declaration pattern definition.index = .ok (definition, pieces) ∧
      groups[definition.index]?.bind (matchAlone · (normalizePath request).toList) = some t ∧
      mapping.select (joined groups) request = ⟨some definition, capturedBy t definition⟩ := by
  obtain ⟨k, t, hown, ht, -, hselect⟩ := first_of_select hgroups hnodup hwinner
  rw [hpatterns, List.getElem?_map] at hown
  obtain ⟨⟨own, pieces⟩, hc, rfl⟩ := Option.map_eq_some_iff.mp hown
  obtain ⟨pattern, hpattern, hok⟩ := compile_of_compileFrom hcompiled hc
  obtain rfl : own.index = k := index_of_compileFrom hcompiled hc
  rw [Nat.zero_add] at hok
  exact ⟨pattern, pieces, t, hpattern, hok, ht, hselect⟩

/-- Assumes: each pattern is compiled to its group. If the group of a pattern is the expression that its segments and query
parts are meant to be, and the pattern wins, its path is filled with what has been captured, in front of a question mark
of the request. -/
theorem fills_of_select {compiled : List (Definition × Pieces)} {groups : List Regex} {filling : String → String}
    (hcompiled : compileFrom declaration 0 declaration.patterns = .ok compiled)
    (hpatterns : mapping.patterns = compiled.map Prod.fst) (hgroups : List.Forall₂ IsGroupOf mapping.patterns groups)
    (hnodup : (groups.flatMap groupNames).Nodup) (hdeclares : declaration.Declares i pattern path parts)
    (hr : groups[i]? = some (Fragment.fragmentRegex ⟨declaration, pattern.pattern, i⟩ filling path parts))
    {fits : String → Option String → List Char → Prop}
    (hfits : Fragment.FitsWhatIsRead ⟨declaration, pattern.pattern, i⟩ filling fits (Segment.placeholdersAll path))
    {request : String} {definition : Definition} (hindex : definition.index = i)
    (hwinner : (mapping.select (joined groups) request).winner = some definition) :
    ∃ e q, (normalizePath request).toList = e ++ '?' :: q ∧ Segment.FillsAll fits
      (fun name ↦ ((mapping.select (joined groups) request).captured? name).map String.toList) path e := by
  subst hindex
  obtain ⟨own, pieces, t, hpattern, hok, ht, hselect⟩ := match_of_winner hcompiled hpatterns hgroups hnodup hwinner
  cases hdeclares.declared.symm.trans hpattern
  obtain ⟨path', _, _, _, hparse, hsegments, -⟩ := Fragment.compile_ok filling hok
  cases hdeclares.parsed.symm.trans hparse
  have hnames := (List.nodup_flatMap.mp hnodup).1 _ (List.mem_of_getElem? hr)
  rw [hr, Option.bind_some] at ht
  obtain ⟨e, q, hrequest, hfills⟩ := Fragment.fills_of_matchAlone hsegments hfits hnames (getLast?_normalizePath request) ht
  refine ⟨e, q, hrequest, (Segment.fillsAll_congr (fun p hp ↦ ?_) e).mpr hfills⟩
  have hmem : p.1 ∈ definition.parameters := Fragment.mem_parameters_of_path hok hparse hp
  rw [hselect, Selection.captured?, lookup_capturedBy, if_pos hmem, Option.map_map]
  dsimp only
  rw [Definition.groupName, Definition.fragment]
  cases t.captured? _ with
  | none => rfl
  | some word => exact congrArg some String.toList_ofList

/-- What the pattern of a static mapping captures when it wins. -/
theorem fills_of_static (hbuild : build declaration settings = .ok mapping) (hstatic : mapping.source = .static text regex)
    (hstandalone : declaration.Standalone) (hdeclares : declaration.Declares i pattern path parts)
    (hplain : Fragment.IsPlainPath path)
    (hpath : ∀ p ∈ Segment.placeholdersAll path, Fragment.IsSelfContained (declaration.pathRegex p.1 p.2))
    (hquery : ∀ part ∈ parts, Fragment.IsSelfContained (declaration.queryRegex part.name part.inline?))
    {request : String} (hwinner : (mapping.select regex request).winner.map (·.index) = some i) :
    ∃ e q, (normalizePath request).toList = e ++ '?' :: q ∧ Segment.FillsAll (fun _ _ _ ↦ True)
      (fun name ↦ ((mapping.select regex request).captured? name).map String.toList) path e := by
  obtain ⟨hpaths, hqueries⟩ := regexOf_of_static hbuild hstatic hdeclares fun _ ↦ ""
  have hself : Fragment.PathSelfContained ⟨declaration, pattern.pattern, i⟩ (fun _ ↦ "") path :=
    fun p hp ↦ (hpaths p hp).symm ▸ hpath p hp
  have hself' : Fragment.QuerySelfContained ⟨declaration, pattern.pattern, i⟩ (fun _ ↦ "") parts :=
    fun part hpart ↦ (hqueries part hpart).symm ▸ hquery part hpart
  obtain ⟨compiled, groups, hcompiled, hpatterns, hgroups, rfl, hnodup, -⟩ :=
    compiled_of_build hbuild hstatic hstandalone fun _ ↦ ""
  have hof : List.Forall₂ IsGroupOf mapping.patterns groups := by
    rw [hpatterns]
    exact isGroupOf_of_denotes hgroups
  have hgroup := group_of_declares hcompiled hgroups hdeclares hplain hself hself'
  obtain ⟨definition, hdefinition, hindex⟩ := Option.map_eq_some_iff.mp hwinner
  exact fills_of_select hcompiled hpatterns hof hnodup hdeclares hgroup (fun _ _ _ _ _ _ _ _ ↦ trivial) hindex hdefinition

/-- The path of a compiled pattern names parameters of the mapping only. -/
theorem allNamed_of_build (hbuild : build declaration settings = .ok mapping)
    (hdeclares : declaration.Declares i pattern path parts) (hbare : ∀ p ∈ Segment.placeholdersAll path, p.2 = none) :
    Segment.AllNamed (fun name ↦ (mapping.find? name).isSome) path := by
  obtain ⟨compiled, hcompiled, -⟩ := build_ok hbuild
  obtain ⟨⟨_, _⟩, -, hok⟩ := (compileFrom_ok hcompiled).2 i pattern hdeclares.declared
  obtain ⟨path', _, _, _, hparse, hsegments, -⟩ := Fragment.compile_ok (fun _ ↦ "") hok
  obtain rfl : path = path' := Except.ok.inj (hdeclares.parsed.symm.trans hparse)
  have hfind (name : String) : mapping.find? name = declaration.find? name := by
    rw [find?, Declaration.find?, parameters_of_build hbuild]
  simp only [hfind]
  exact Fragment.allNamed_of_segments hsegments hbare

end Declares

theorem exists_descriptor {name : String} (h : (mapping.find? name).isSome) : ∃ d ∈ mapping.parameters, d.name = name := by
  obtain ⟨d, hd⟩ := Option.isSome_iff_exists.mp h
  exact ⟨d, List.mem_of_find?_eq_some hd, by simpa using List.find?_some hd⟩

/-- Assumes: the captured text of a parameter is the canonical text of the value that it denotes. A view that a match has
gone through holds a value with this text. -/
theorem textOf_of_leaves {selection : Selection} {before after : View} (hleaves : mapping.Leaves selection before after)
    {d : Descriptor} (hd : d ∈ mapping.parameters) (hreadable : selection.IsReadable mapping.parameters)
    (hcanonical : ∀ raw value, selection.captured? d.name = some raw → d.kind.read raw = .ok value → value.render = raw) :
    after.textOf d.name = (selection.captured? d.name).map String.toList := by
  rw [View.textOf, hleaves.declared d hd, Selection.value?]
  cases hcaptured : selection.captured? d.name with
  | none => rfl
  | some raw =>
    obtain ⟨value, hread⟩ := hreadable d hd raw hcaptured
    rw [Option.bind_some, hread]
    exact congrArg (fun text : String ↦ some text.toList) (hcanonical raw value hcaptured hread)

end Mapping

/-! ### Paths in normal form -/

/-- A text that is a front in normal form, possibly without its slash, is brought to it. -/
theorem toList_rooted {e s rest : List Char} (hslash : e = '/' :: rest) (hrest : rest.head? ≠ some '/')
    (h : e = s ∨ e = '/' :: s) :
    (if (String.ofList s).toList.head? = some '/' then .ofList s else "/" ++ String.ofList s : String).toList = e := by
  rw [String.toList_ofList]
  rcases h with rfl | rfl
  · have hhead : e.head? = some '/' := by
      rw [hslash]
      rfl
    rw [if_pos hhead, String.toList_ofList]
  · obtain rfl : s = rest := (List.cons.inj hslash).2
    rw [if_neg hrest, String.toList_append, String.toList_ofList]
    simp

/-! ### A match and what it renders to -/

/-- A registry renders what the values of a view fill a template to. -/
theorem Registry.format_of_fills {registry : Registry} {key : TypeKey} {declaration : Declaration} {mapping : Mapping}
    (hmapping : (registry.mapping key declaration).result = .ok mapping) {view : View} {template : String}
    {parts : List Segment} (hread : Segment.read template = .ok parts)
    (hnamed : Segment.AllNamed (fun name ↦ (mapping.find? name).isSome) parts) (hanchored : Segment.AllAnchored parts)
    {fits : String → Option String → List Char → Prop} {s : List Char}
    (hfills : Segment.FillsAll fits view.textOf parts s) (arguments : List String) :
    (registry.format key declaration view template arguments).result = .ok (.ofList s) := by
  rw [Registry.format, Registry.withMapping_of_mapping hmapping]
  exact Template.render_of_fills hread hnamed hanchored hfills arguments _

/-- An operation leaves its mapping in the registry, whatever is declared later. -/
theorem Registry.mapping_later {registry next : Registry} {key : TypeKey} {declaration : Declaration} {mapping : Mapping}
    (hmapping : (registry.mapping key declaration).result = .ok mapping)
    (hnext : next = (registry.mapping key declaration).registry) (later : Declaration) :
    (next.mapping key later).result = .ok mapping := by
  rw [hnext, Registry.mapping_of_cached (Registry.mapping?_of_result hmapping)]

/-- Assumes: a declaration builds to a static mapping, each of whose fragments is one group on its own; a pattern has plain
literals, no expressions of its own in its path, and in each optional group a placeholder outside of further groups; the
expressions of all its parameters can be held together; and it wins for a request, where the text captured for each
parameter of the path that is not a string is the canonical text of the value that it denotes. If the match goes through
for a view that accepts all parameters, the view renders the pattern to a text which, brought to one leading slash, is the
request in its normal form up to a question mark. -/
theorem format_reproduces {source : Declaration} {settings : Settings} {mapping : Mapping} {text : String} {regex : Regex}
    (hbuild : Mapping.build source settings = .ok mapping) (hstatic : mapping.source = .static text regex)
    (hstandalone : source.Standalone) {i : Nat} {pattern : PatternDeclaration} {path : List Segment}
    {parts : List Fragment.QueryPart} (hdeclares : source.Declares i pattern path parts)
    (hplain : Fragment.IsPlainPath path) (hbare : ∀ p ∈ Segment.placeholdersAll path, p.2 = none)
    (hanchored : Segment.AllAnchored path)
    (hpath : ∀ p ∈ Segment.placeholdersAll path, Fragment.IsSelfContained (source.pathRegex p.1 p.2))
    (hquery : ∀ part ∈ parts, Fragment.IsSelfContained (source.queryRegex part.name part.inline?))
    {request : String} (hwinner : (mapping.select regex request).winner.map (·.index) = some i)
    (hcanonical : ∀ d ∈ mapping.parameters, d.name ∈ (Segment.placeholdersAll path).map Prod.fst → d.kind ≠ .string →
      ∀ raw value, (mapping.select regex request).captured? d.name = some raw → d.kind.read raw = .ok value →
        value.render = raw)
    {registry : Registry} {key : TypeKey} {declaration : Declaration}
    (hmapping : (registry.mapping key declaration).result = .ok mapping) {view : View}
    (haccepts : ∀ d ∈ mapping.parameters, view.type.Accepts d) {outcome : Outcome}
    (hmatch : (registry.matchPath key declaration view request).2.result = .ok outcome) (later : Declaration)
    (arguments : List String) :
    let found := registry.matchPath key declaration view request
    ∃ t q, (found.2.registry.format key later found.1 pattern.pattern arguments).result = .ok t ∧
      normalizePath request = (if t.toList.head? = some '/' then t else "/" ++ t) ++ "?" ++ q := by
  intro found
  have hnamed := Mapping.allNamed_of_build hbuild hdeclares hbare
  obtain ⟨e, q, hrequest, hfills⟩ :=
    Mapping.fills_of_static hbuild hstatic hstandalone hdeclares hplain hpath hquery hwinner
  obtain ⟨hreadable, hleaves⟩ := registry.matchPath_leaves hbuild hstatic hmapping haccepts request
  obtain ⟨-, hleaves⟩ := hleaves outcome hmatch
  -- The view holds what has been captured.
  have hfills : Segment.FillsAll (fun _ _ _ ↦ True) found.1.textOf path e := by
    refine (Segment.fillsAll_congr (fun p hp ↦ ?_) e).mpr hfills
    obtain ⟨d, hd, hname⟩ := Mapping.exists_descriptor (Segment.known_of_allNamed hnamed hp)
    rw [← hname]
    refine Mapping.textOf_of_leaves hleaves hd (hreadable.mp ⟨outcome, hmatch⟩) fun raw value hraw hread ↦ ?_
    by_cases hkind : d.kind = .string
    · rw [hkind] at hread
      cases hread
      rfl
    · exact hcanonical d hd (hname ▸ List.mem_map_of_mem hp) hkind raw value hraw hread
  obtain ⟨parts', s, hread, hnamed', hanchored', hfills', hslash⟩ :=
    Fragment.exists_template hdeclares.parsed hnamed hanchored hfills
  have hlater := Registry.mapping_later hmapping (registry.registry_matchWith View.access key declaration view request) later
  refine ⟨.ofList s, .ofList q, Registry.format_of_fills hlater hread hnamed' hanchored' hfills' arguments, ?_⟩
  obtain ⟨rest, hrest, hhead⟩ := front_slash hrequest
  refine String.toList_inj.mp ?_
  rw [hrequest, String.toList_append, String.toList_append, toList_rooted hrest hhead hslash]
  simp

/-- Threads by number, and the messages in them. -/
def forum : Declaration where
  owner := "Forum"
  parameters := [{ name := "id", kind := .integer }, { name := "message", kind := .string }]
  patterns := [{ pattern := "thread/:id[/:message]" }]

/-- A thread that is shown without a message is rendered without one. -/
theorem format_reproduces_thread :
    let found := ({ settings := {} } : Registry).matchPath (.declared 0) forum ⟨⟨.anyExcept [], true⟩, [], none⟩ "thread/7?sort"
    ∃ t q, (found.2.registry.format (.declared 0) forum found.1 "thread/:id[/:message]" []).result = .ok t ∧
      normalizePath "thread/7?sort" = (if t.toList.head? = some '/' then t else "/" ++ t) ++ "?" ++ q := by
  have hselect : (Mapping.staticBuild? forum {}).any fun found ↦
      decide ((found.1.select found.2 "thread/7?sort").winner.map (·.index) = some 0) &&
        decide ((found.1.select found.2 "thread/7?sort").captured = [("id", "7")]) := by
    decide +kernel
  obtain ⟨⟨mapping, regex⟩, hfound, hselect⟩ := (Option.any_eq_true _ _).mp hselect
  obtain ⟨text, hbuild, hstatic⟩ := Mapping.staticBuild?_eq_some hfound
  obtain ⟨hwinner, hcaptured⟩ := Bool.and_eq_true_iff.mp hselect
  dsimp only at hbuild hstatic hwinner hcaptured
  have hwinner := of_decide_eq_true hwinner
  have hcaptured := of_decide_eq_true hcaptured
  let path : List Segment := [.literal "/thread/", .placeholder "id" none,
    .optional [.literal "/", .placeholder "message" none]]
  have hdeclares : forum.Declares 0 ⟨"thread/:id[/:message]", []⟩ path [] := ⟨rfl, rfl, rfl⟩
  have hnone : ({ settings := {} } : Registry).mapping? (.declared 0) = none := rfl
  have hmapping : (({ settings := {} } : Registry).mapping (.declared 0) forum).result = .ok mapping := by
    rw [Registry.mapping_of_build hnone hbuild]
  have hmatch : (({ settings := {} } : Registry).matchPath (.declared 0) forum ⟨⟨.anyExcept [], true⟩, [], none⟩
      "thread/7?sort").2.result = .ok (.matched "thread/:id[/:message]") := by
    decide +kernel
  have hcanonical : ∀ d ∈ mapping.parameters, d.name ∈ (Segment.placeholdersAll path).map Prod.fst → d.kind ≠ .string →
      ∀ raw value, (mapping.select regex "thread/7?sort").captured? d.name = some raw → d.kind.read raw = .ok value →
        value.render = raw := by
    intro d hd _ _ raw value hraw hread
    rw [Selection.captured?, hcaptured] at hraw
    rw [Mapping.parameters_of_build hbuild] at hd
    rcases List.mem_pair.mp hd with rfl | rfl
    · cases hraw
      cases hread
      rfl
    · cases hraw
  refine format_reproduces hbuild hstatic (by decide +kernel) hdeclares ?_ ?_ ?_ ?_ ?_ hwinner hcanonical hmapping ?_ hmatch
    forum []
  · unfold Fragment.IsPlainPath
    decide +kernel
  · decide
  · exact ⟨trivial, trivial, ⟨⟨"message", none, by simp⟩, trivial, trivial, trivial⟩, trivial⟩
  · decide +kernel
  · exact nofun
  · exact fun d _ ↦ ViewType.accepts_of_anyExcept rfl List.not_mem_nil

/-- A parameter whose expression ends its group and begins another. -/
def torn : Declaration where
  owner := "Torn"
  parameters := [{ name := "id", kind := .string, regex := some "x)y(z" }]
  patterns := [{ pattern := ":id" }]

/-- A parameter in the query whose expression is another alternative of the whole pattern. -/
def strayed : Declaration where
  owner := "Strayed"
  parameters := [{ name := "id", kind := .string }, { name := "n", kind := .string, regex := some "x)))|/zzz(?:(?:(w" }]
  patterns := [{ pattern := "a/:id", query := ["k=:n"] }]

/-- A pattern behind another one that has both matched again and again. -/
def chained : Declaration where
  owner := "Chained"
  parameters := [{ name := "a", kind := .string, regex := some "x)))*(|(|(" }]
  patterns := [{ pattern := "foo" }, { pattern := ":a" }]

/-- Expressions that do not hold together can have a winner that has not captured its path: a parameter captures a part of
its text, an alternative captures nothing, or another pattern matches in front. -/
theorem format_differs :
    let match? (declaration : Declaration) (request : String) :=
      ({ settings := {} } : Registry).matchPath (.declared 0) declaration ⟨⟨.anyExcept [], true⟩, [], none⟩ request
    let format? (declaration : Declaration) (request template : String) :=
      ((match? declaration request).2.registry.format (.declared 0) declaration (match? declaration request).1 template
        []).result.toOption
    ((Mapping.staticBuild? torn {}).isSome ∧ torn.Declares 0 ⟨":id", []⟩ [.literal "/", .placeholder "id" none] [] ∧
      (match? torn "/xyz").2.result = .ok (.matched ":id") ∧ format? torn "/xyz" ":id" = some "x" ∧
      ¬∃ q, normalizePath "/xyz" = "/" ++ "x" ++ "?" ++ q) ∧
    ((Mapping.staticBuild? strayed {}).isSome ∧
      strayed.Declares 0 ⟨"a/:id", ["k=:n"]⟩ [.literal "/a/", .placeholder "id" none] [⟨"k", "n", none⟩] ∧
      (match? strayed "/zzz").2.result = .ok (.matched "a/:id") ∧ format? strayed "/zzz" "a/:id" = none) ∧
    (Mapping.staticBuild? chained {}).isSome ∧ chained.Declares 0 ⟨"foo", []⟩ [.literal "/foo"] [] ∧
      (match? chained "/x/foo").2.result = .ok (.matched "foo") ∧ format? chained "/x/foo" "foo" = some "foo" ∧
      ¬∃ q, normalizePath "/x/foo" = "/" ++ "foo" ++ "?" ++ q := by
  have htorn : normalizePath "/xyz" = "/xyz?&" := by decide +kernel
  have hchained : normalizePath "/x/foo" = "/x/foo?&" := by decide +kernel
  refine ⟨⟨by decide +kernel, ⟨rfl, rfl, rfl⟩, by decide +kernel, by decide +kernel, ?_⟩,
    ⟨by decide +kernel, ⟨rfl, rfl, rfl⟩, by decide +kernel, by decide +kernel⟩,
    by decide +kernel, ⟨rfl, rfl, rfl⟩, by decide +kernel, by decide +kernel, ?_⟩
  · rintro ⟨q, hq⟩
    have hlists := congrArg String.toList (htorn.symm.trans hq)
    simp [String.toList_append] at hlists
  · rintro ⟨q, hq⟩
    have hlists := congrArg String.toList (hchained.symm.trans hq)
    simp [String.toList_append] at hlists

end PathBinding
