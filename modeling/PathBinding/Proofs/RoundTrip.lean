import PathBinding.Proofs.Regex.Values
import PathBinding.Proofs.Reproduction
import PathBinding.Proofs.Route.Filling
import PathBinding.Proofs.Value

/-!
Matching what has been rendered. A route that is rendered with the values of a view gives a path that the route expands
to, so its pattern wins for the path if it is the only one (`fills_of_expands`). What is captured fills the route with the
same path, so the captured texts are the rendered ones, and they are read as the values that have been rendered
(`format_matches`). A value of another kind comes back as one of the parameter's kind, and expressions that cannot be held
together do not capture what has been rendered (`format_mismatches`).
-/

set_option autoImplicit false
set_option relaxedAutoImplicit false

namespace PathBinding

open Regex

/-- With one question mark it is clear what stands in front of it. -/
theorem eq_of_one_mark {e e' x q : List Char} (he : '?' ∉ e) (hx : '?' ∉ x) (h : e ++ '?' :: x = e' ++ '?' :: q) : e = e' := by
  rcases List.append_eq_append_iff.mp h with ⟨z, rfl, hz⟩ | ⟨z, rfl, hz⟩
  · cases z with
    | nil => exact (List.append_nil e).symm
    | cons c z => exact absurd ((List.cons.inj hz).2 ▸ List.mem_append_right z List.mem_cons_self) hx
  · cases z with
    | nil => exact List.append_nil e'
    | cons c z =>
      obtain ⟨rfl, -⟩ := List.cons.inj hz
      exact absurd (List.mem_append_right e' List.mem_cons_self) he

namespace Mapping

variable {declaration : Declaration} {settings : Settings} {mapping : Mapping} {text : String} {regex : Regex}

/-- Assumes: the only pattern of a static mapping has no query, its literals are plain and its expressions can be held
together. The mapping matches with the group of the pattern. -/
theorem group_of_single (hbuild : build declaration settings = .ok mapping) (hstatic : mapping.source = .static text regex)
    {pattern : PatternDeclaration} {path : List Segment} (honly : declaration.patterns = [pattern])
    (hdeclares : declaration.Declares 0 pattern path []) (hplain : Fragment.IsPlainPath path) {filling : String → String}
    (hself : Fragment.PathSelfContained ⟨declaration, pattern.pattern, 0⟩ filling path) :
    let r := Fragment.fragmentRegex ⟨declaration, pattern.pattern, 0⟩ filling path []
    ∃ c : Definition × Pieces, compileFrom declaration 0 declaration.patterns = .ok [c] ∧
      Fragment.compile declaration pattern 0 = .ok c ∧ mapping.patterns = [c.1] ∧ regex = joined [r] ∧
      List.Forall₂ IsGroupOf mapping.patterns [r] ∧ ([r].flatMap groupNames).Nodup := by
  intro r
  have hsingle : ∀ (i : Nat) (own : PatternDeclaration) (path' : List Segment) (parts : List Fragment.QueryPart),
      declaration.Declares i own path' parts → Fragment.IsPlainPath path' ∧
        Fragment.PathSelfContained ⟨declaration, own.pattern, i⟩ filling path' ∧
        Fragment.QuerySelfContained ⟨declaration, own.pattern, i⟩ filling parts := by
    intro i own path' parts hown
    obtain ⟨rfl, rfl, rfl, rfl⟩ := hdeclares.eq_of_single honly hown
    exact ⟨hplain, hself, fun _ hpart ↦ absurd hpart List.not_mem_nil⟩
  obtain ⟨compiled, hcompiled, hpatterns, hparse⟩ := compiled_of_static hbuild hstatic filling
  obtain ⟨groups, hgroups, hof, hregex, hnodup⟩ := groups_of_plain hcompiled hparse hsingle
  have hr : groups[0]? = some r := group_of_fragments hcompiled hgroups hdeclares
  obtain ⟨hlength, hcompile⟩ := compileFrom_ok hcompiled
  rw [honly] at hlength
  obtain ⟨c, rfl⟩ := List.length_eq_one_iff.mp hlength
  obtain ⟨own, rfl⟩ := List.length_eq_one_iff.mp (hgroups.length_eq.symm.trans hlength)
  obtain rfl : own = r := Option.some.inj hr
  obtain ⟨c', hc', hok⟩ := hcompile 0 pattern hdeclares.declared
  obtain rfl : c = c' := Option.some.inj hc'
  exact ⟨c, hcompiled, hok, hpatterns, hregex, hpatterns ▸ hof, hnodup⟩

/-- Assumes: the expressions of the only pattern are without conditions on positions, too. If the pattern expands to a path
without a question mark, it wins for the path, and what it captures fills it with the path. -/
theorem fills_of_expands (hbuild : build declaration settings = .ok mapping) (hstatic : mapping.source = .static text regex)
    {pattern : PatternDeclaration} {path : List Segment} (honly : declaration.patterns = [pattern])
    (hdeclares : declaration.Declares 0 pattern path []) (hplain : Fragment.IsPlainPath path)
    (hpath : ∀ p ∈ Segment.placeholdersAll path, ∃ body, held? (declaration.pathRegex p.1 p.2) = some body ∧
      body.lookFree = true)
    (fits : String → Option String → List Char → Prop)
    (hfits : ∀ p ∈ Segment.placeholdersAll path, ∀ s, FullyMatches (declaration.pathRegex p.1 p.2) s → fits p.1 p.2 s)
    {request : String} {e : List Char} (hrequest : (normalizePath request).toList = e ++ ['?', '&']) (hmark : '?' ∉ e)
    (hexpands : Segment.ExpandsAll (fun name inline? ↦ FullyMatches (declaration.pathRegex name inline?)) path e) :
    ∃ definition captured, mapping.select regex request = ⟨some definition, captured⟩ ∧ definition.raw = pattern.pattern ∧
      (∀ name, (captured.lookup name).isSome → name ∈ (Segment.placeholdersAll path).map Prod.fst) ∧
      Segment.FillsAll fits (fun name ↦ (captured.lookup name).map String.toList) path e := by
  let filling : String → String := fun _ ↦ ""
  let context : Fragment.Context := ⟨declaration, pattern.pattern, 0⟩
  obtain ⟨hregexes, -⟩ := regexOf_of_static hbuild hstatic hdeclares filling
  obtain ⟨hself, hfree, hmatches⟩ := Fragment.means_of_held context hregexes hpath
  obtain ⟨⟨definition, pieces⟩, hcompiled, hok, hpatterns, rfl, hof, hnodup⟩ :=
    group_of_single hbuild hstatic honly hdeclares hplain hself
  obtain ⟨own, _, _, _, hparse, hsegments, -, hindex, -⟩ := Fragment.compile_ok filling hok
  cases hdeclares.parsed.symm.trans hparse
  have haccepts : (sequence (Fragment.segmentsRegexes context filling path)).Accepts e :=
    (Fragment.accepts_segments hsegments hfree e).mpr ((Segment.expandsAll_congr hmatches e).mpr hexpands)
  have hmatch := (search_anchored_isSome (Fragment.fragmentRegex context filling path []) _).mpr
    ((Fragment.accepts_query (Fragment.lookFree_segments hfree) _ _ (getLast?_normalizePath request)).mpr
      ⟨e, ['&'], hrequest, haccepts⟩)
  obtain ⟨t, ht⟩ := Option.isSome_iff_exists.mp hmatch
  have hselect : mapping.select (joined _) request = ⟨some definition, capturedBy t definition⟩ :=
    select_of_single hpatterns hof hnodup ht
  refine ⟨definition, capturedBy t definition, hselect, (Fragment.definition_of_compile hok hdeclares.parsed).1, ?_, ?_⟩
  · intro name hcaptured
    rw [lookup_capturedBy, (hdeclares.compiled hok).1, List.map_nil, List.append_nil] at hcaptured
    by_contra hnotMem
    rw [if_neg hnotMem] at hcaptured
    cases hcaptured
  · have hreads : Fragment.FitsWhatIsRead context filling fits (Segment.placeholdersAll path) :=
      fun p hp t s rest hpassed hrest hoffset ↦ hfits p hp s ((hmatches p hp s).mp
        (Fragment.fitsWhatIsRead_of_lookFree hfree p hp t s rest hpassed hrest hoffset))
    obtain ⟨e', q, hrequest', hfills⟩ :=
      fills_of_select hcompiled hpatterns hof hnodup hdeclares rfl hreads hindex (congrArg Selection.winner hselect)
    rw [hselect] at hfills
    obtain rfl := eq_of_one_mark hmark (by decide) (hrequest.symm.trans hrequest')
    exact hfills

end Mapping

namespace Route

/-- What a view holds can be rendered along a route and captured again: the parameters that have values are coherent, the
values are of their kinds, and their texts are no empty ones, end no path and are matched by the expressions. -/
structure Suits (route : Route) (declaration : Declaration) (view : View) : Prop where
  coherent : route.IsCoherent view.get
  kinds : ∀ d ∈ declaration.parameters, d.name ∈ route.names → ∀ value ∈ view.get d.name, value.kind = d.kind
  texts : ∀ name ∈ route.names, ∀ value ∈ view.get name, value.render ≠ "" ∧ '?' ∉ value.render.toList ∧
    FullyMatches (declaration.pathRegex name none) value.render.toList

variable {route : Route} {declaration : Declaration} {view : View}

theorem textOf_isSome (view : View) (name : String) : (view.textOf name).isSome = (view.get name).isSome :=
  Option.isSome_map

theorem Suits.coherent_textOf (h : route.Suits declaration view) : route.IsCoherent view.textOf := by
  have hnone (name : String) : view.textOf name = none ↔ view.get name = none := Option.map_eq_none_iff
  refine ⟨?_, ?_, ?_⟩
  · simpa only [textOf_isSome] using h.coherent.required
  · simpa only [textOf_isSome, hnone] using h.coherent.together
  · simpa only [textOf_isSome] using h.coherent.nested

theorem Suits.text (h : route.Suits declaration view) {name : String} (hname : name ∈ route.names) {w : List Char}
    (hw : view.textOf name = some w) : w ≠ [] ∧ '?' ∉ w ∧ FullyMatches (declaration.pathRegex name none) w := by
  obtain ⟨value, hvalue, rfl⟩ := Option.map_eq_some_iff.mp hw
  obtain ⟨hne, hmark, hmatches⟩ := h.texts name hname value hvalue
  refine ⟨fun hempty ↦ hne (String.toList_inj.mp hempty), hmark, hmatches⟩

/-- The values of the view fill the route. -/
theorem Suits.fillsAll (h : route.Suits declaration view) {fits : String → Option String → List Char → Prop}
    (hfits : ∀ name ∈ route.names, ∀ s, FullyMatches (declaration.pathRegex name none) s → fits name none s) :
    Segment.FillsAll fits view.textOf route.tree (route.filled view.textOf) :=
  fillsAll_filled h.coherent_textOf fun name hname w hw ↦ hfits name hname w (h.text hname hw).2.2

theorem Suits.front (h : route.Suits declaration view)
    (hslash : ∀ name ∈ route.names, ∀ s, FullyMatches (declaration.pathRegex name none) s → '/' ∉ s) :
    ∃ rest, route.filled view.textOf = '/' :: rest ∧ rest.head? ≠ some '/' := by
  have hfirst : ∀ name ∈ route.first.names, name ∈ Component.namesAll (route.first :: route.rest) :=
    fun name hname ↦ List.mem_append_left _ hname
  refine filled_front (fun name hname ↦ h.coherent_textOf.required name (hfirst name hname)) fun name hname w hw ↦ ?_
  have hname : name ∈ route.names := List.mem_append_left _ (hfirst name hname)
  obtain ⟨hne, -, hmatches⟩ := h.text hname hw
  exact ⟨hne, hslash name hname w hmatches⟩

/-- The text of a value is read as the value. -/
theorem Suits.read (h : route.Suits declaration view) {d : Descriptor} (hd : d ∈ declaration.parameters)
    (hname : d.name ∈ route.names) {word : String} (hword : view.textOf d.name = some word.toList) :
    ∃ value, view.get d.name = some value ∧ d.kind.read word = .ok value := by
  obtain ⟨value, hvalue, hrender⟩ := Option.map_eq_some_iff.mp hword
  refine ⟨value, hvalue, ?_⟩
  rw [← String.toList_inj.mp hrender, ← h.kinds d hd hname value hvalue]
  exact value.read_render

/-- A pattern that is a route, with or without a slash in front, is compiled from the segments of the route. -/
theorem parse_rooted {raw : String} (h : raw = route.text ∨ raw = "/" ++ route.text) :
    Segment.parse (Fragment.rooted raw) = .ok route.tree := by
  have hrooted : Fragment.rooted raw = "/" ++ route.text := by
    rcases h with rfl | rfl
    · exact route.rooted_text
    · have hslash : ("/" ++ route.text).toList = '/' :: route.text.toList := by
        rw [String.toList_append]
        rfl
      rw [Fragment.rooted, hslash]
      rfl
  rw [hrooted]
  exact Segment.parse_eq_ok_iff_read.mpr route.read_text

theorem forall_placeholders {motive : String × Option String → Prop} (h : ∀ name ∈ route.names, motive (name, none)) :
    ∀ p ∈ Segment.placeholdersAll route.tree, motive p := by
  rw [route.placeholders_tree]
  exact List.forall_mem_map.mpr h

end Route

/-- A match whose captured text can be read goes through and leaves what has been read. -/
theorem Registry.matchPath_of_select {source : Declaration} {settings : Settings} {mapping : Mapping} {text : String}
    {regex : Regex} (hbuild : Mapping.build source settings = .ok mapping) (hstatic : mapping.source = .static text regex)
    {registry : Registry} {key : TypeKey} {declaration : Declaration}
    (hmapping : (registry.mapping key declaration).result = .ok mapping) {view : View}
    (haccepts : ∀ d ∈ mapping.parameters, view.type.Accepts d) {path : String} {definition : Definition}
    {captured : List (String × String)} (hselect : mapping.select regex path = ⟨some definition, captured⟩)
    (hread : ∀ d ∈ mapping.parameters, ∀ word, captured.lookup d.name = some word → ∃ value, d.kind.read word = .ok value) :
    let found := registry.matchPath key declaration view path
    found.2.result = .ok (.matched definition.raw) ∧ ∀ d ∈ mapping.parameters,
      found.1.get d.name = (captured.lookup d.name).bind fun word ↦ (d.kind.read word).toOption := by
  intro found
  obtain ⟨hreadable, hleaves⟩ := registry.matchPath_leaves hbuild hstatic hmapping haccepts path
  rw [hselect] at hreadable hleaves
  obtain ⟨outcome, houtcome⟩ := hreadable.mpr hread
  obtain ⟨rfl, hleft⟩ := hleaves outcome houtcome
  exact ⟨houtcome, hleft.declared⟩

/-- Assumes: a declaration builds to a static mapping; its only pattern has no query and is a route, with or without a slash
in front; the expressions of the parameters of the route can be held together, are without conditions on positions and
match no text with a slash in it; and a view holds values that suit the route. The view renders the pattern to a text. A
match of the text for any view that accepts all parameters answers with the pattern, and it leaves the values that have
been rendered for the parameters of the route, and none where there was none. -/
theorem format_matches {source : Declaration} {settings : Settings} {mapping : Mapping} {text : String} {regex : Regex}
    (hbuild : Mapping.build source settings = .ok mapping) (hstatic : mapping.source = .static text regex)
    (route : Route) {raw : String} (hraw : raw = route.text ∨ raw = "/" ++ route.text)
    (honly : source.patterns = [{ pattern := raw }])
    (hregexes : ∀ name ∈ route.names, ∃ body, held? (source.pathRegex name none) = some body ∧ body.lookFree = true)
    (hslash : ∀ name ∈ route.names, ∀ s, FullyMatches (source.pathRegex name none) s → '/' ∉ s)
    {registry : Registry} {key : TypeKey} {declaration : Declaration}
    (hmapping : (registry.mapping key declaration).result = .ok mapping) {view : View} (hview : route.Suits source view)
    (arguments : List String) :
    let formatted := registry.format key declaration view raw arguments
    ∃ t, formatted.result = .ok t ∧ ∀ (later : Declaration) (other : View),
      (∀ d ∈ mapping.parameters, other.type.Accepts d) →
        let found := formatted.registry.matchPath key later other t
        found.2.result = .ok (.matched raw) ∧ ∀ name ∈ route.names, found.1.get name = view.get name := by
  intro formatted
  have hdeclares : source.Declares 0 { pattern := raw } route.tree [] := by
    refine ⟨?_, Route.parse_rooted hraw, rfl⟩
    rw [honly]
    rfl
  have hnamed := Mapping.allNamed_of_build hbuild hdeclares (Route.forall_placeholders fun _ _ ↦ rfl)
  have hrendered : Segment.FillsAll (fun _ _ w ↦ '/' ∉ w) view.textOf route.tree (route.filled view.textOf) :=
    hview.fillsAll hslash
  have hmark : '?' ∉ route.filled view.textOf :=
    Route.question_notMem_filled fun name hname w hw ↦ (hview.text hname hw).2.1
  obtain ⟨rest, hrest, hhead⟩ := hview.front hslash
  obtain ⟨parts, s, hread, hnamed', hanchored, hfills, hfront⟩ :=
    Fragment.exists_template hdeclares.parsed hnamed route.anchored_tree hrendered
  refine ⟨.ofList s, Registry.format_of_fills hmapping hread hnamed' hanchored hfills arguments, ?_⟩
  intro later other haccepts
  have hlater := Registry.mapping_later hmapping (registry.registry_format key declaration view raw arguments) later
  -- The pattern wins, and it captures the texts of the values.
  have hexpands : Segment.ExpandsAll (fun name inline? ↦ FullyMatches (source.pathRegex name inline?)) route.tree
      (route.filled view.textOf) := Segment.expandsAll_of_fillsAll (hview.fillsAll fun _ _ _ h ↦ h)
  obtain ⟨definition, captured, hselect, rfl, hnames, hcaptured⟩ :=
    Mapping.fills_of_expands hbuild hstatic honly hdeclares route.plain_tree (Route.forall_placeholders hregexes)
      (fun _ _ w ↦ '/' ∉ w) (Route.forall_placeholders hslash) (normalizePath_rendered hrest hhead hmark hfront) hmark
      hexpands
  have hsame := Route.agree_of_fills hrendered hcaptured
  have hvalues : ∀ d ∈ mapping.parameters, ∀ word, captured.lookup d.name = some word →
      ∃ value, view.get d.name = some value ∧ d.kind.read word = .ok value := by
    intro d hd word hword
    rw [Mapping.parameters_of_build hbuild] at hd
    have hname : d.name ∈ route.names := by
      have hmem := hnames d.name (Option.isSome_of_eq_some hword)
      rw [route.placeholders_tree, List.map_map] at hmem
      simpa using hmem
    refine hview.read hd hname ((hsame d.name hname).trans ?_)
    rw [hword]
    rfl
  -- They are read as the values again.
  obtain ⟨hmatched, hleft⟩ := Registry.matchPath_of_select hbuild hstatic hlater haccepts hselect fun d hd word hword ↦
    (hvalues d hd word hword).imp fun _ ↦ And.right
  refine ⟨hmatched, fun name hname ↦ ?_⟩
  have hmem : (name, none) ∈ Segment.placeholdersAll route.tree := by
    rw [route.placeholders_tree]
    exact List.mem_map_of_mem hname
  obtain ⟨d, hd, rfl⟩ := Mapping.exists_descriptor (Segment.known_of_allNamed hnamed hmem)
  refine (hleft d hd).trans ?_
  cases hword : captured.lookup d.name with
  | none =>
    have htext := hsame d.name hname
    rw [hword] at htext
    exact (Option.map_eq_none_iff.mp htext).symm
  | some word =>
    obtain ⟨value, hget, hread⟩ := hvalues d hd word hword
    rw [Option.bind_some, hread, hget]
    rfl

theorem notMem_of_fullyMatches {regex : String} {c : Char} (h : (held? regex).all fun body ↦ !body.mentions c)
    {s : List Char} (hs : FullyMatches regex s) : c ∉ s := by
  obtain ⟨body, hbody, hmatch⟩ := hs
  rw [hbody] at h
  exact notMem_of_accepts (by simpa using h) ((search_anchored_isSome body s).mp hmatch)

/-- An archive by year, where a month has a name and can be shown as a draft. -/
def archive : Declaration where
  owner := "Archive"
  parameters := [{ name := "year", kind := .integer }, { name := "month", kind := .string }, { name := "draft", kind := .boolean }]
  patterns := [{ pattern := "archive/:year[/:month[/draft/:draft]]" }]

/-- A month in the archive is rendered and found again in a view of drafts, which shows no draft any more. -/
theorem format_matches_archive :
    let registry : Registry := { settings := {} }
    let type : ViewType := ⟨.anyExcept [], true⟩
    let view : View := ⟨type, [("year", .integer 2024), ("month", .string "May")], none⟩
    let formatted := registry.format (.declared 0) archive view "archive/:year[/:month[/draft/:draft]]" []
    ∃ t, formatted.result = .ok t ∧
      let found := formatted.registry.matchPath (.declared 0) archive ⟨type, [("draft", .boolean true)], none⟩ t
      found.2.result = .ok (.matched "archive/:year[/:month[/draft/:draft]]") ∧
        found.1.get "year" = some (.integer 2024) ∧ found.1.get "month" = some (.string "May") ∧
        found.1.get "draft" = none := by
  intro registry type view
  have hfound : (Mapping.staticBuild? archive {}).isSome := by decide +kernel
  obtain ⟨⟨mapping, regex⟩, hfound⟩ := Option.isSome_iff_exists.mp hfound
  obtain ⟨text, hbuild, hstatic⟩ := Mapping.staticBuild?_eq_some hfound
  have hnone : registry.mapping? (.declared 0) = none := rfl
  have hmapping : (registry.mapping (.declared 0) archive).result = .ok mapping := by
    rw [Registry.mapping_of_build hnone hbuild]
  let route : Route :=
    { first := .literal "archive"
      rest := [.parameter "year"]
      tails := [[.parameter "month"], [.literal "draft", .parameter "draft"]]
      sound := by
        simp [Component.IsSound, Segment.IsName, Segment.isLiteral, Segment.isPlain, Segment.isWordChar, isMeta,
          metaCharacters]
      anchored := by simp [Component.namesAll, Component.names] }
  have hregexes : ∀ name ∈ ["year", "month", "draft"], (held? (archive.pathRegex name none)).any (·.lookFree) := by
    decide +kernel
  have hslash : ∀ name ∈ ["year", "month", "draft"],
      (held? (archive.pathRegex name none)).all fun body ↦ !body.mentions '/' := by
    decide +kernel
  have hview : route.Suits archive view := by
    refine ⟨⟨by decide +kernel, by decide +kernel, by decide +kernel⟩, by decide +kernel, ?_⟩
    have htexts : ∀ name ∈ ["year", "month", "draft"], ∀ value ∈ view.get name, value.render ≠ "" ∧
        '?' ∉ value.render.toList ∧ FullyMatches (archive.pathRegex name none) value.render.toList := by
      decide +kernel
    exact htexts
  obtain ⟨t, hformat, hmatch⟩ := format_matches hbuild hstatic route (.inl (by decide +kernel)) rfl
    (fun name hname ↦ (Option.any_eq_true _ _).mp (hregexes name hname))
    (fun name hname _ hs ↦ notMem_of_fullyMatches (hslash name hname) hs) hmapping hview []
  obtain ⟨hmatched, hvalues⟩ := hmatch archive ⟨type, [("draft", .boolean true)], none⟩ fun d _ ↦
    ViewType.accepts_of_anyExcept rfl List.not_mem_nil
  exact ⟨t, hformat, hmatched, hvalues "year" (by decide +kernel), hvalues "month" (by decide +kernel),
    hvalues "draft" (by decide +kernel)⟩

/-- A parameter for texts, of which a view may hold a number. -/
def mismatched : Declaration where
  owner := "Mismatched"
  parameters := [{ name := "id", kind := .string }]
  patterns := [{ pattern := ":id" }]

/-- A parameter whose expression ends in a comment, which goes on up to the line break in the next one. -/
def commented : Declaration where
  owner := "Commented"
  parameters := [{ name := "a", kind := .string, regex := some "(?x)a#" }, { name := "b", kind := .string, regex := some "\nb" }]
  patterns := [{ pattern := ":a/:b" }]

/-- A value that is not of the kind of its parameter comes back as one that is. With expressions that each match the
texts of their parameters, but cannot be held together, the rendered path is not matched at all. -/
theorem format_mismatches :
    let type : ViewType := ⟨.anyExcept [], true⟩
    let format (declaration : Declaration) (values : List (String × Value)) (template : String) :=
      ({ settings := {} } : Registry).format (.declared 0) declaration ⟨type, values, none⟩ template []
    let found (declaration : Declaration) (values : List (String × Value)) (template path : String) :=
      (format declaration values template).registry.matchPath (.declared 0) declaration ⟨type, [], none⟩ path
    let number : List (String × Value) := [("id", .integer 5)]
    let words : List (String × Value) := [("a", .string "a"), ("b", .string "\nb")]
    ((Mapping.staticBuild? mismatched {}).isSome ∧ FullyMatches (mismatched.pathRegex "id" none) ['5'] ∧
      (∀ s, FullyMatches (mismatched.pathRegex "id" none) s → '/' ∉ s) ∧
      (format mismatched number ":id").result = .ok "5" ∧
      (found mismatched number ":id" "5").1.get "id" = some (.string "5")) ∧
    (Mapping.staticBuild? commented {}).isSome ∧
      (∃ a b, parse? (commented.pathRegex "a" none).toList = some a ∧ parse? (commented.pathRegex "b" none).toList = some b ∧
        (a.lookFree ∧ a.Accepts ['a'] ∧ ∀ s, a.Accepts s → '/' ∉ s) ∧
        b.lookFree ∧ b.Accepts ['\n', 'b'] ∧ ∀ s, b.Accepts s → '/' ∉ s) ∧
      (format commented words ":a/:b").result = .ok "a/\nb" ∧
      (found commented words ":a/:b" "a/\nb").2.result = .ok (.notMatched (some (.error "NotFound"))) := by
  intro type format found number words
  have hslash : (held? (mismatched.pathRegex "id" none)).all fun body ↦ !body.mentions '/' := by decide +kernel
  have halone : ∀ p ∈ [("a", ['a']), ("b", ['\n', 'b'])], (parse? (commented.pathRegex p.1 none).toList).any fun body ↦
      body.lookFree && decide (body.Accepts p.2) && !body.mentions '/' := by
    decide +kernel
  have hown (p : String × List Char) (hp : p ∈ [("a", ['a']), ("b", ['\n', 'b'])]) :
      ∃ body, parse? (commented.pathRegex p.1 none).toList = some body ∧ body.lookFree ∧ body.Accepts p.2 ∧
        ∀ s, body.Accepts s → '/' ∉ s := by
    obtain ⟨body, hbody, hall⟩ := (Option.any_eq_true _ _).mp (halone p hp)
    rw [Bool.and_eq_true, Bool.and_eq_true, Bool.not_eq_true', decide_eq_true_iff] at hall
    exact ⟨body, hbody, hall.1.1, hall.1.2, fun s hs ↦ notMem_of_accepts hall.2 hs⟩
  obtain ⟨a, ha⟩ := hown ("a", ['a']) List.mem_cons_self
  obtain ⟨b, hb⟩ := hown ("b", ['\n', 'b']) (List.mem_cons_of_mem _ List.mem_cons_self)
  refine ⟨⟨?_, ?_, fun s hs ↦ notMem_of_fullyMatches hslash hs, ?_, ?_⟩, ?_, ⟨a, b, ha.1, hb.1, ha.2, hb.2⟩, ?_, ?_⟩
  all_goals decide +kernel

end PathBinding
