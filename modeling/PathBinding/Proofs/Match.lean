import PathBinding.Proofs.Application
import PathBinding.Proofs.Decomposition
import PathBinding.Proofs.Session

/-!
What a match leaves. On a static mapping it depends on nothing that the view holds: two views of one type get the same
answer, and behind a match that goes through they have the same values for all declared parameters (`match_forgets`). A
match that fails has written nothing if it fails before the view is asked, and otherwise exactly the parameters in front of
the one that the view refuses (`failed_match`).
-/

set_option autoImplicit false
set_option relaxedAutoImplicit false

namespace PathBinding

namespace Mapping

variable {mapping : Mapping} {regex : Regex}

/-- What a match that goes through leaves: each declared parameter has the value that its captured text denotes, or none,
the winner is recorded if views of the type do so, and all else is as before. -/
structure Leaves (mapping : Mapping) (selection : Selection) (before after : View) : Prop where
  type : after.type = before.type
  declared : ∀ d ∈ mapping.parameters, after.get d.name = selection.value? d
  undeclared : ∀ name ∉ mapping.parameters.map (·.name), after.get name = before.get name
  matched : after.matched = if before.type.records then selection.winner.map (·.raw) else before.matched

theorem leaves_finish {selection : Selection} {view written : View}
    (h : Written selection mapping.parameters view written) :
    mapping.Leaves selection view (mapping.finish View.access selection written).view where
  type := (View.record_type _ _).trans h.type
  declared d hd := (View.get_record _ _ _).trans (h.values d hd)
  undeclared name hname := (View.get_record _ _ _).trans (h.others name hname)
  matched := (View.matched_record _ _).trans (by rw [h.type, h.matched])

/-- A view that accepts all parameters is written as a whole, unless some captured text cannot be read. -/
theorem apply_of_accepts {declaration : Declaration} {settings : Settings} (hbuild : build declaration settings = .ok mapping)
    {view : View} (haccepts : ∀ d ∈ mapping.parameters, view.type.Accepts d) (path : String)
    (hreadable : (mapping.select regex path).IsReadable mapping.parameters) :
    ∃ written, Written (mapping.select regex path) mapping.parameters view written ∧
      mapping.apply (mapping.select regex path) view = mapping.finish View.access (mapping.select regex path) written :=
  apply_of_accepted (nodup_names hbuild) (isProper_select hbuild regex path) hreadable fun d hd ↦
    Selection.refusal?_of_accepts (haccepts d hd) (mapping.select regex path)

theorem apply_of_unreadable {declaration : Declaration} {settings : Settings}
    (hbuild : build declaration settings = .ok mapping) (path : String)
    (h : ¬ (mapping.select regex path).IsReadable mapping.parameters) :
    ∃ name raw e, mapping.convert (mapping.select regex path).captured = .error (name, raw, e) ∧
      ∀ view, mapping.apply (mapping.select regex path) view =
        ⟨view, [.unconverted mapping.owner name raw], .error e⟩ := by
  have hproper := isProper_select hbuild regex path
  rw [isReadable_iff (nodup_names hbuild) hproper] at h
  cases hconvert : mapping.convert (mapping.select regex path).captured with
  | error fault => exact ⟨fault.1, fault.2.1, fault.2.2, rfl, applyWith_of_unconverted View.access hproper hconvert⟩
  | ok values => exact absurd ⟨values, hconvert⟩ h

/-- A view that accepts all parameters is written as a whole or not at all. -/
theorem apply_atomic {declaration : Declaration} {settings : Settings} (hbuild : build declaration settings = .ok mapping)
    {view : View} (haccepts : ∀ d ∈ mapping.parameters, view.type.Accepts d) (regex : Regex) (path : String) :
    let applied := mapping.apply (mapping.select regex path) view
    (∀ e, applied.result = .error e → applied.view = view) ∧
      ((∃ outcome, applied.result = .ok outcome) ↔ (mapping.select regex path).IsReadable mapping.parameters) := by
  by_cases hreadable : (mapping.select regex path).IsReadable mapping.parameters
  · obtain ⟨written, -, happly⟩ := apply_of_accepts hbuild haccepts path hreadable
    rw [happly]
    exact ⟨nofun, iff_of_true ⟨_, rfl⟩ hreadable⟩
  · obtain ⟨name, raw, e, -, happly⟩ := apply_of_unreadable hbuild path hreadable
    rw [happly]
    exact ⟨fun _ _ ↦ rfl, iff_of_false (fun ⟨_, houtcome⟩ ↦ nomatch houtcome) hreadable⟩

end Mapping

/-- A match on a static mapping applies a selection that does not depend on the view. -/
theorem Registry.matchPath_of_static {registry : Registry} {key : TypeKey} {declaration : Declaration} {mapping : Mapping}
    {text : String} {regex : Regex} (hmapping : (registry.mapping key declaration).result = .ok mapping)
    (hstatic : mapping.source = .static text regex) (view : View) (path : String) :
    registry.matchPath key declaration view path =
      let applied := mapping.apply (mapping.select regex path) view
      let events := mapping.selectionEvents path (mapping.select? regex path) ++ applied.events
      (applied.view, ⟨(registry.mapping key declaration).registry,
        (registry.mapping key declaration).trace ++ events.map (⟨·, some ⟨mapping.owner, path⟩⟩), applied.result⟩) := by
  rw [registry.matchPath_of_mapping hmapping, Mapping.bind_of_static hstatic]

/-- A match for a view that accepts all parameters goes through exactly if all captured text can be read, and then the view
has the values that the captured text denotes. -/
theorem Registry.matchPath_leaves {source : Declaration} {settings : Settings} {mapping : Mapping} {text : String}
    {regex : Regex} (hbuild : Mapping.build source settings = .ok mapping) (hstatic : mapping.source = .static text regex)
    {registry : Registry} {key : TypeKey} {declaration : Declaration}
    (hmapping : (registry.mapping key declaration).result = .ok mapping) {view : View}
    (haccepts : ∀ d ∈ mapping.parameters, view.type.Accepts d) (path : String) :
    let selection := mapping.select regex path
    let found := registry.matchPath key declaration view path
    ((∃ outcome, found.2.result = .ok outcome) ↔ selection.IsReadable mapping.parameters) ∧
    ∀ outcome, found.2.result = .ok outcome → outcome = mapping.outcome selection ∧
      mapping.Leaves selection view found.1 := by
  intro selection found
  have hfound : found = _ := registry.matchPath_of_static hmapping hstatic view path
  by_cases hreadable : selection.IsReadable mapping.parameters
  · obtain ⟨written, hwritten, happly⟩ := Mapping.apply_of_accepts hbuild haccepts path hreadable
    rw [happly] at hfound
    rw [hfound]
    refine ⟨iff_of_true ⟨_, rfl⟩ hreadable, fun outcome houtcome ↦ ?_⟩
    obtain rfl : mapping.outcome selection = outcome := Except.ok.inj houtcome
    exact ⟨rfl, Mapping.leaves_finish hwritten⟩
  · obtain ⟨name, raw, e, -, happly⟩ := Mapping.apply_of_unreadable hbuild path hreadable
    rw [happly] at hfound
    rw [hfound]
    exact ⟨iff_of_false (fun ⟨_, houtcome⟩ ↦ nomatch houtcome) hreadable, fun _ houtcome ↦ nomatch houtcome⟩

/-- Assumes: a type of views has a static mapping, and its views accept all declared parameters. A match of a path answers
the same for any two views, whatever they hold: it goes through exactly if all captured text can be read, and then the
views have the same values for all declared parameters. -/
theorem match_forgets {source : Declaration} {settings : Settings} {mapping : Mapping} {text : String} {regex : Regex}
    (hbuild : Mapping.build source settings = .ok mapping) (hstatic : mapping.source = .static text regex)
    {registry : Registry} {key : TypeKey} {declaration : Declaration}
    (hmapping : (registry.mapping key declaration).result = .ok mapping) {view other : View}
    (htype : other.type = view.type) (haccepts : ∀ d ∈ mapping.parameters, view.type.Accepts d) (path : String) :
    let selection := mapping.select regex path
    let found := registry.matchPath key declaration view path
    let found' := registry.matchPath key declaration other path
    found'.2 = found.2 ∧
    ((∃ outcome, found.2.result = .ok outcome) ↔ selection.IsReadable mapping.parameters) ∧
    ∀ outcome, found.2.result = .ok outcome → outcome = mapping.outcome selection ∧
      mapping.Leaves selection view found.1 ∧ mapping.Leaves selection other found'.1 := by
  intro selection found found'
  have haccepts' : ∀ d ∈ mapping.parameters, other.type.Accepts d := htype ▸ haccepts
  obtain ⟨hgoes, hleaves⟩ := registry.matchPath_leaves hbuild hstatic hmapping haccepts path
  obtain ⟨-, hleaves'⟩ := registry.matchPath_leaves hbuild hstatic hmapping haccepts' path
  have hsame : found'.2 = found.2 := by
    have hfound : found = _ := registry.matchPath_of_static hmapping hstatic view path
    have hfound' : found' = _ := registry.matchPath_of_static hmapping hstatic other path
    rw [hfound, hfound']
    by_cases hreadable : selection.IsReadable mapping.parameters
    · obtain ⟨written, -, happly⟩ := Mapping.apply_of_accepts hbuild haccepts path hreadable
      obtain ⟨written', -, happly'⟩ := Mapping.apply_of_accepts hbuild haccepts' path hreadable
      rw [happly, happly']
      rfl
    · obtain ⟨name, raw, e, -, happly⟩ := Mapping.apply_of_unreadable hbuild path hreadable
      rw [happly, happly]
  refine ⟨hsame, hgoes, fun outcome houtcome ↦ ?_⟩
  obtain ⟨houtcomes, hleft⟩ := hleaves outcome houtcome
  exact ⟨houtcomes, hleft, (hleaves' outcome (hsame ▸ houtcome)).2⟩

/-- Pages and their drafts by number, and the lists of both. -/
def drafts : Declaration where
  owner := "Pages"
  parameters := [{ name := "draft", kind := .boolean }, { name := "page", kind := .integer, regex := some "[0-9]+" }]
  patterns := [{ pattern := ":draft" }, { pattern := ":draft/:page" }]

/-- A view of a draft on page 4, which shows the list of pages then, is as good as new. -/
theorem match_forgets_draft :
    let registry : Registry := { settings := {} }
    let type : ViewType := ⟨.anyExcept [], true⟩
    let used : View := ⟨type, [("draft", .boolean true), ("page", .integer 4), ("zoom", .integer 2)], some ":draft/:page"⟩
    let shown := registry.matchPath (.declared 0) drafts used "false"
    shown.2 = (registry.matchPath (.declared 0) drafts ⟨type, [], none⟩ "false").2 ∧
    shown.1.get "draft" = some (.boolean false) ∧ shown.1.get "page" = none ∧ shown.1.get "zoom" = some (.integer 2) ∧
    shown.1.matched = some ":draft" := by
  have hselect : (Mapping.staticBuild? drafts {}).any fun found ↦
      decide ((found.1.select found.2 "false").captured = [("draft", "false")]) &&
        decide ((found.1.select found.2 "false").winner.map (·.raw) = some ":draft") := by
    decide +kernel
  obtain ⟨⟨mapping, regex⟩, hfound, hselect⟩ := (Option.any_eq_true _ _).mp hselect
  obtain ⟨text, hbuild, hstatic⟩ := Mapping.staticBuild?_eq_some hfound
  dsimp only at hselect hbuild hstatic
  obtain ⟨hcaptured, hwinner⟩ := Bool.and_eq_true_iff.mp hselect
  replace hcaptured := of_decide_eq_true hcaptured
  replace hwinner := of_decide_eq_true hwinner
  have hparameters : mapping.parameters = drafts.parameters := Mapping.parameters_of_build hbuild
  intro registry type used
  dsimp only
  have hnone : registry.mapping? (.declared 0) = none := rfl
  have hmapping : (registry.mapping (.declared 0) drafts).result = .ok mapping := by
    rw [Registry.mapping_of_build hnone hbuild]
  have haccepts : ∀ d ∈ mapping.parameters, used.type.Accepts d :=
    fun d _ ↦ ViewType.accepts_of_anyExcept rfl List.not_mem_nil
  have htype : (⟨type, [], none⟩ : View).type = used.type := rfl
  have hvalue (d : Descriptor) : (mapping.select regex "false").value? d =
      ([("draft", "false")].lookup d.name).bind fun raw ↦ (d.kind.read raw).toOption := by
    rw [Selection.value?, Selection.captured?, hcaptured]
  have hread : (mapping.select regex "false").IsReadable mapping.parameters := by
    intro d hd raw hraw
    rw [Selection.captured?, hcaptured] at hraw
    rw [hparameters] at hd
    rcases List.mem_pair.mp hd with rfl | rfl
    · cases hraw
      exact ⟨.boolean false, by decide⟩
    · cases hraw
  obtain ⟨hsame, hreadable, hleaves⟩ := match_forgets hbuild hstatic hmapping htype haccepts "false"
  obtain ⟨outcome, houtcome⟩ := hreadable.mpr hread
  obtain ⟨-, hleft, -⟩ := hleaves outcome houtcome
  refine ⟨hsame.symm, ?_, ?_, ?_, ?_⟩
  · exact (hleft.declared { name := "draft", kind := .boolean } (hparameters ▸ List.mem_cons_self)).trans (hvalue _)
  · exact (hleft.declared { name := "page", kind := .integer, regex := some "[0-9]+" }
      (hparameters ▸ List.mem_cons_of_mem _ List.mem_cons_self)).trans (hvalue _)
  · exact hleft.undeclared "zoom" (by rw [hparameters]; decide)
  · exact (hleft.matched.trans (if_pos rfl)).trans hwinner

/-! ### Matches that fail -/

/-- The mapping that a match works with, and the expression that it is completed to for what the getters show. -/
structure Registry.WorksWith (registry : Registry) (key : TypeKey) (declaration : Declaration) (view : View)
    (mapping : Mapping) (regex : Regex) : Prop where
  found : (registry.mapping key declaration).result = .ok mapping
  completed : ∃ assembled, mapping.assemble? (registry.producersOf key) view = .ok assembled ∧
    mapping.regexOf assembled = .ok regex

/-- How a match can fail before the view is asked to take a value: the declaration does not compile, the expression cannot
be completed for the view or is rejected, or captured text cannot be read. -/
inductive FailsUnwritten (registry : Registry) (key : TypeKey) (declaration : Declaration) (view : View) (path : String)
    (e : Error) : Prop
  | building (h : (registry.mapping key declaration).result = .error e)
  | resolving {mapping : Mapping} (hmapping : (registry.mapping key declaration).result = .ok mapping)
    (h : mapping.assemble? (registry.producersOf key) view = .error e)
  | compiling {mapping : Mapping} (hmapping : (registry.mapping key declaration).result = .ok mapping)
    {assembled : Assembly} (hassembled : mapping.assemble? (registry.producersOf key) view = .ok assembled)
    (h : mapping.regexOf assembled = .error e)
  | converting {mapping : Mapping} {regex : Regex} (hworks : registry.WorksWith key declaration view mapping regex)
    {name raw : String} (h : mapping.convert (mapping.select regex path).captured = .error (name, raw, e))

section

variable {registry : Registry} {key : TypeKey} {declaration : Declaration} {σ : Type} (access : Access σ) {target : σ}

/-- A match that has its expression goes on with what the expression selects. -/
theorem Registry.WorksWith.matchWith {mapping : Mapping} {regex : Regex}
    (h : registry.WorksWith key declaration (access.shown target) mapping regex) (path : String) :
    let found := registry.matchWith access key declaration target path
    let applied := mapping.applyWith access (mapping.select regex path) target
    found.1 = applied.view ∧ found.2.result = applied.result := by
  obtain ⟨assembled, hassembled, hregex⟩ := h.completed
  simp only [registry.matchWith_of_mapping h.found, Mapping.bindWith_of_regexOf access hassembled hregex, and_self]

theorem Registry.WorksWith.matchPath {view : View} {mapping : Mapping} {regex : Regex}
    (h : registry.WorksWith key declaration view mapping regex) (path : String) :
    let found := registry.matchPath key declaration view path
    let applied := mapping.apply (mapping.select regex path) view
    found.1 = applied.view ∧ found.2.result = applied.result :=
  h.matchWith View.access path

/-- A match has its expression, or it has failed on the way there and has written nothing. -/
theorem Registry.worksWith_or_failsUnwritten (registry : Registry) (key : TypeKey) (declaration : Declaration)
    (target : σ) (path : String) :
    (∃ mapping regex, registry.WorksWith key declaration (access.shown target) mapping regex) ∨
      ∃ e, FailsUnwritten registry key declaration (access.shown target) path e ∧
        (registry.matchWith access key declaration target path).1 = target ∧
        (registry.matchWith access key declaration target path).2.result = .error e := by
  cases hmapping : (registry.mapping key declaration).result with
  | error e =>
    refine .inr ⟨e, .building hmapping, ?_⟩
    rw [registry.matchWith_of_fault hmapping]
    exact ⟨rfl, rfl⟩
  | ok mapping =>
    have hfound := registry.matchWith_of_mapping hmapping access target path
    cases hassembled : mapping.assemble? (registry.producersOf key) (access.shown target) with
    | error e =>
      refine .inr ⟨e, .resolving hmapping hassembled, ?_⟩
      rw [hfound, Mapping.bindWith_of_unresolved access hassembled]
      exact ⟨rfl, rfl⟩
    | ok assembled =>
      cases hregex : mapping.regexOf assembled with
      | error e =>
        refine .inr ⟨e, .compiling hmapping hassembled hregex, ?_⟩
        rw [hfound, Mapping.bindWith_of_rejected access hassembled hregex]
        exact ⟨rfl, rfl⟩
      | ok regex => exact .inl ⟨mapping, regex, hmapping, assembled, hassembled, hregex⟩

end

/-- Assumes: a session begins with a new registry. Wherever a match fails in it, either nothing has been written and the
view has not been asked, or the view has refused the value of a parameter: then the parameters in front of it have the
values that the whole match would have given them, and all else is as before. -/
theorem failed_match {start : Session} (hfresh : start.IsFresh) (operations : List Operation) {key : TypeKey}
    {declaration : Declaration} {view : View} {path : String} {e : Error}
    (h : ((start.after operations).registry.matchPath key declaration view path).2.result = .error e) :
    let registry := (start.after operations).registry
    let after := (registry.matchPath key declaration view path).1
    (after = view ∧ FailsUnwritten registry key declaration view path e) ∨
    ∃ mapping regex before refused rest, registry.WorksWith key declaration view mapping regex ∧
      (mapping.select regex path).IsReadable mapping.parameters ∧ mapping.parameters = before ++ refused :: rest ∧
      after.set refused.name ((mapping.select regex path).value? refused) = .error e ∧
      Mapping.Written (mapping.select regex path) before view after ∧
      ∀ d ∈ refused :: rest, after.get d.name = view.get d.name := by
  intro registry after
  have h : (registry.matchPath key declaration view path).2.result = .error e := h
  rcases registry.worksWith_or_failsUnwritten View.access key declaration view path with
    ⟨mapping, regex, hworks⟩ | ⟨fault, hfails, hview, hresult⟩
  · have hworks : registry.WorksWith key declaration view mapping regex := hworks
    obtain ⟨source, hbuild⟩ := Session.exists_build hfresh operations hworks.found
    obtain ⟨hview, hresult⟩ := hworks.matchPath path
    have hview : after = (mapping.apply (mapping.select regex path) view).view := hview
    have hnames := Mapping.nodup_names hbuild
    rcases Mapping.apply_of_error hnames (Mapping.isProper_select hbuild regex path) (hresult.symm.trans h) with
      ⟨hsame, name, raw, hconvert⟩ | ⟨before, refused, rest, hreadable, hsplit, hrefused, hwritten⟩
    · exact .inl ⟨hview.trans hsame, .converting hworks hconvert⟩
    · rw [← hview] at hwritten
      refine .inr ⟨mapping, regex, before, refused, rest, hworks, hreadable, hsplit,
        View.set_of_refusal (hwritten.type.symm ▸ hrefused), hwritten, fun d hd ↦ hwritten.others d.name ?_⟩
      rw [hsplit, List.map_append] at hnames
      exact fun hbefore ↦ (List.nodup_append.mp hnames).2.2 _ hbefore _ (List.mem_map_of_mem hd) rfl
  · cases hresult.symm.trans h
    exact .inl ⟨hview, hfails⟩

/-- A view that refuses page numbers has gone over to drafts when the number of the page comes. -/
theorem failed_match_page :
    let type : ViewType := ⟨.anyExcept ["page"], true⟩
    let start : Session := ⟨{ settings := {} }, [(.declared 0, ⟨drafts, type⟩)], [⟨.declared 0, [], none⟩]⟩
    let view : View := ⟨type, [("draft", .boolean false), ("page", .integer 4)], some ":draft"⟩
    let found := (start.after []).registry.matchPath (.declared 0) drafts view "true/7"
    found.2.result = .error (.configuration (.rejected "page")) ∧ found.1.get "draft" = some (.boolean true) ∧
      found.1.get "page" = some (.integer 4) ∧ found.1.matched = some ":draft" := by
  intro type start view
  dsimp only
  have hrun : ((start.after []).registry.matchPath (.declared 0) drafts view "true/7").2.result =
        .error (.configuration (.rejected "page")) ∧
      ((start.after []).registry.matchPath (.declared 0) drafts view "true/7").1.get "draft" = some (.boolean true) := by
    decide +kernel
  obtain ⟨hresult, hdraft⟩ := hrun
  have hfresh : start.IsFresh := ⟨rfl, rfl⟩
  refine ⟨hresult, hdraft, ?_⟩
  rcases failed_match hfresh [] hresult with
    ⟨hview, -⟩ | ⟨mapping, regex, before, refused, rest, -, -, -, hset, hwritten, hothers⟩
  · rw [hview] at hdraft
    cases hdraft
  · have hname : refused.name ∈ ["page"] := by
      by_contra haccepted
      have haccessors : view.type.accessors = .anyExcept ["page"] := rfl
      rw [View.set_eq, hwritten.type, ViewType.refusal?, haccessors] at hset
      dsimp only at hset
      rw [if_neg haccepted] at hset
      cases hset
    have hpage := hothers refused List.mem_cons_self
    rw [List.mem_singleton.mp hname] at hpage
    exact ⟨hpage, hwritten.matched⟩

end PathBinding
