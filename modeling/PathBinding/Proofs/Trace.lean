import PathBinding.Proofs.Interleaving
import PathBinding.Proofs.Match

/-!
What the trace tells. A part of a trace marks something that happens at most once if it is the entry of it, or is empty where
that does not happen (`Marks`). The events of a binding mark in turn the text that is assembled, the match of the expression,
and the text that cannot be read or the miss (`Mapping.marks_bind`). All events of a run on a type mark together the one
build that gives the type its mapping (`marks_built`), so a match is traced from its build to its end, whatever has
happened before (`trace_mirrors`).
-/

set_option autoImplicit false
set_option relaxedAutoImplicit false

namespace PathBinding

/-- The entries mark something: they are its one entry, or none if it does not happen. -/
def Marks {α β : Type} (Happened : α → Prop) (entry : α → β) (entries : List β) : Prop :=
  (∃ x, Happened x ∧ entries = [entry x]) ∨ (∀ x, ¬Happened x) ∧ entries = []

theorem Marks.of_some {α β : Type} {Happened : α → Prop} {entry : α → β} {x : α} (h : Happened x) :
    Marks Happened entry [entry x] :=
  .inl ⟨x, h, rfl⟩

theorem Marks.of_none {α β : Type} {Happened : α → Prop} {entry : α → β} (h : ∀ x, ¬Happened x) :
    Marks Happened entry [] :=
  .inr ⟨h, rfl⟩

theorem Marks.congr {α β : Type} {Happened Happened' : α → Prop} {entry : α → β} {entries : List β}
    (h : Marks Happened entry entries) (hsame : ∀ x, Happened x ↔ Happened' x) : Marks Happened' entry entries := by
  rcases h with ⟨x, hx, rfl⟩ | ⟨hnone, rfl⟩
  · exact .of_some ((hsame x).mp hx)
  · exact .of_none fun x hx ↦ hnone x ((hsame x).mpr hx)

theorem Marks.exists_of_mem {α β : Type} {Happened : α → Prop} {entry : α → β} {entries : List β}
    (h : Marks Happened entry entries) {item : β} (hitem : item ∈ entries) : ∃ x, Happened x ∧ item = entry x := by
  rcases h with ⟨x, hx, rfl⟩ | ⟨-, rfl⟩
  · exact ⟨x, hx, List.mem_singleton.mp hitem⟩
  · cases hitem

/-! ### Events of a binding -/

namespace Mapping

variable {mapping : Mapping} {producers : Producers} {view : View} {path : String}

/-- The mapping has gaps, each of them is filled for the view, and the text is what comes of it. -/
def Assembles (mapping : Mapping) (producers : Producers) (view : View) (text : String) : Prop :=
  ∃ pieces filling, mapping.source = .dynamic pieces ∧
    (∀ slot ∈ pieces.slots, mapping.resolve producers view slot = .ok (filling slot)) ∧ text = pieces.fill filling

/-- The expression that the mapping is completed to for the view matches the path. -/
def Hits (mapping : Mapping) (producers : Producers) (view : View) (path : String) (t : Regex.Thread) : Prop :=
  ∃ assembled regex, mapping.assemble? producers view = .ok assembled ∧ mapping.regexOf assembled = .ok regex ∧
    regex.search (normalizePath path).toList = some t

/-- A text that is captured for a parameter can be read. -/
def Reads (mapping : Mapping) (name raw : String) : Prop :=
  ∀ descriptor, mapping.find? name = some descriptor → ∃ value, descriptor.kind.parse name raw = .ok value

/-- The parameter is the first of the winner's for which text is captured that cannot be read. -/
structure Stumbles (mapping : Mapping) (selection : Selection) (name raw : String) (e : Error) : Prop where
  first : ∃ winner before after, selection.winner = some winner ∧ winner.parameters = before ++ name :: after ∧
    ∀ other ∈ before, ∀ text, selection.captured? other = some text → mapping.Reads other text
  captured : selection.captured? name = some raw
  refused : ∃ descriptor, mapping.find? name = some descriptor ∧ descriptor.kind.parse name raw = .error e

theorem assembles_iff {text : String} :
    mapping.Assembles producers view text ↔ mapping.assemble? producers view = .ok (.text text) := by
  unfold Assembles assemble?
  cases mapping.source with
  | static own regex => exact iff_of_false (fun ⟨_, _, h, _⟩ ↦ nomatch h) nofun
  | dynamic pieces =>
    dsimp only
    constructor
    · rintro ⟨_, filling, ⟨⟩, hslots, rfl⟩
      rw [Pieces.assemble_of_slots filling hslots]
      rfl
    · intro h
      cases hfilled : pieces.assemble (mapping.resolve producers view) with
      | error e =>
        rw [hfilled] at h
        cases h
      | ok filled =>
        rw [hfilled] at h
        cases h
        refine ⟨pieces, _, rfl, fun slot hslot ↦ ?_, (Pieces.assemble_eq hfilled).symm⟩
        obtain ⟨expression, hexpression⟩ := Pieces.resolved_of_assemble hfilled slot hslot
        rw [hexpression]
        rfl

/-- Conversion stops at the first text that cannot be read. -/
theorem convert_eq_error_iff {captured : List (String × String)} {name raw : String} {e : Error} :
    mapping.convert captured = .error (name, raw, e) ↔ ∃ before after, captured = before ++ (name, raw) :: after ∧
      (∀ p ∈ before, mapping.Reads p.1 p.2) ∧
      ∃ descriptor, mapping.find? name = some descriptor ∧ descriptor.kind.parse name raw = .error e := by
  induction captured with
  | nil =>
    refine iff_of_false (fun h ↦ by cases h) ?_
    rintro ⟨before, after, h, -⟩
    cases before <;> cases h
  | cons p rest ih =>
    obtain ⟨own, text⟩ := p
    -- Text that can be read does not stop the conversion.
    have hread (hreads : mapping.Reads own text) : mapping.convert ((own, text) :: rest) = .error (name, raw, e) ↔
        mapping.convert rest = .error (name, raw, e) := by
      rw [convert]
      cases hfind : mapping.find? own with
      | none => exact .rfl
      | some descriptor =>
        obtain ⟨value, hvalue⟩ := hreads descriptor hfind
        dsimp only
        rw [hvalue]
        dsimp only
        cases mapping.convert rest with
        | error fault => exact .rfl
        | ok values => simp [Except.map]
    constructor
    · intro h
      by_cases hreads : mapping.Reads own text
      · obtain ⟨before, after, rfl, hbefore, hrefused⟩ := ih.mp ((hread hreads).mp h)
        exact ⟨(own, text) :: before, after, rfl, List.forall_mem_cons.mpr ⟨hreads, hbefore⟩, hrefused⟩
      · rw [Reads, not_forall] at hreads
        obtain ⟨descriptor, hreads⟩ := hreads
        obtain ⟨hfind, hvalue⟩ := Classical.not_imp.mp hreads
        rw [convert, hfind] at h
        dsimp only at h
        cases hparse : descriptor.kind.parse own text with
        | ok value => exact absurd ⟨value, hparse⟩ hvalue
        | error fault =>
          rw [hparse] at h
          cases h
          exact ⟨[], rest, rfl, by simp, descriptor, hfind, hparse⟩
    · rintro ⟨before, after, hsplit, hbefore, descriptor, hfind, hparse⟩
      cases before with
      | nil =>
        cases hsplit
        rw [convert, hfind]
        dsimp only
        rw [hparse]
      | cons first before =>
        obtain ⟨rfl, rfl⟩ := List.cons.inj hsplit
        obtain ⟨hreads, hbefore⟩ := List.forall_mem_cons.mp hbefore
        exact (hread hreads).mpr (ih.mpr ⟨before, after, rfl, hbefore, descriptor, hfind, hparse⟩)

/-- The text that a pattern captures for a parameter, if any. -/
def captureOf (t : Regex.Thread) (definition : Definition) (name : String) : Option (String × String) :=
  (t.captured? (definition.groupName name)).map fun text ↦ (name, .ofList text)

theorem lookup_capturedBy_eq_some {t : Regex.Thread} {definition : Definition} {name raw : String} :
    (capturedBy t definition).lookup name = some raw ↔
      name ∈ definition.parameters ∧ captureOf t definition name = some (name, raw) := by
  rw [lookup_capturedBy, captureOf]
  by_cases hname : name ∈ definition.parameters
  · rw [if_pos hname, and_iff_right hname]
    cases t.captured? (definition.groupName name) with
    | none => exact iff_of_false nofun nofun
    | some text => simp
  · rw [if_neg hname]
    exact iff_of_false nofun fun h ↦ hname h.1

/-- The first captured text that cannot be read is where conversion stops. -/
theorem stumbles_iff {t : Regex.Thread} {definition : Definition} {name raw : String} {e : Error} :
    mapping.Stumbles ⟨some definition, capturedBy t definition⟩ name raw e ↔
      mapping.convert (capturedBy t definition) = .error (name, raw, e) := by
  have hcaptures : capturedBy t definition = definition.parameters.filterMap (captureOf t definition) := rfl
  rw [convert_eq_error_iff]
  constructor
  · rintro ⟨⟨winner, before, after, hwinner, hsplit, hbefore⟩, hcaptured, hrefused⟩
    obtain rfl : definition = winner := Option.some.inj hwinner
    refine ⟨before.filterMap (captureOf t definition), after.filterMap (captureOf t definition), ?_, ?_, hrefused⟩
    · rw [hcaptures, hsplit, List.filterMap_append,
        List.filterMap_cons_some (lookup_capturedBy_eq_some.mp hcaptured).2]
    · rintro ⟨other, text⟩ hother
      obtain ⟨own, hown, hcapture⟩ := List.mem_filterMap.mp hother
      have hname : own = other := by
        obtain ⟨_, -, heq⟩ := Option.map_eq_some_iff.mp hcapture
        exact congrArg Prod.fst heq
      subst hname
      have hmem : own ∈ definition.parameters := hsplit ▸ List.mem_append_left _ hown
      exact hbefore own hown text (lookup_capturedBy_eq_some.mpr ⟨hmem, hcapture⟩)
  · rintro ⟨before, after, hsplit, hbefore, hrefused⟩
    rw [hcaptures, List.filterMap_eq_append_iff] at hsplit
    obtain ⟨front, back, hparameters, hfront, hback⟩ := hsplit
    obtain ⟨skipped, own, rest, rfl, hskipped, hown, -⟩ := List.filterMap_eq_cons_iff.mp hback
    have hname : own = name := by
      obtain ⟨_, -, heq⟩ := Option.map_eq_some_iff.mp hown
      exact congrArg Prod.fst heq
    subst hname
    have hmem : own ∈ definition.parameters := by
      rw [hparameters]
      exact List.mem_append_right _ (List.mem_append_right _ List.mem_cons_self)
    refine ⟨⟨definition, front ++ skipped, rest, rfl, ?_, ?_⟩, lookup_capturedBy_eq_some.mpr ⟨hmem, hown⟩, hrefused⟩
    · rw [hparameters, List.append_assoc]
    · intro other hother text htext
      obtain ⟨-, hcapture⟩ := lookup_capturedBy_eq_some.mp htext
      rcases List.mem_append.mp hother with hin | hin
      · exact hbefore (other, text) (hfront ▸ List.mem_filterMap.mpr ⟨other, hin, hcapture⟩)
      · cases (hskipped other hin).symm.trans hcapture

theorem not_stumbles_none {name raw : String} {e : Error} : ¬mapping.Stumbles .none name raw e :=
  fun h ↦ nomatch h.captured

theorem stumbles_select_iff {regex : Regex} {name raw : String} {e : Error} :
    mapping.Stumbles (mapping.select regex path) name raw e ↔
      mapping.convert (mapping.select regex path).captured = .error (name, raw, e) := by
  rcases select_eq mapping regex path with hmiss | ⟨definition, -, t, hselect⟩
  · rw [hmiss]
    exact iff_of_false not_stumbles_none nofun
  · rw [hselect]
    exact stumbles_iff

/-- The end of a match is marked by the text that cannot be read or by the miss, and by neither if the view refuses a value
or a pattern has matched. -/
theorem marks_apply (mapping : Mapping) (regex : Regex) (path : String) (view : View) :
    let selection := mapping.select regex path
    let applied := mapping.apply selection view
    ∃ unconverted missed, applied.events = unconverted ++ missed ∧
      Marks (fun (name, raw, e) ↦ mapping.Stumbles selection name raw e)
        (fun (name, raw, _) ↦ .unconverted mapping.owner name raw) unconverted ∧
      (∀ name raw e, mapping.Stumbles selection name raw e → applied.result = .error e) ∧
      Marks (fun reroute ↦ applied.result = .ok (.notMatched reroute)) (.missed mapping.owner) missed := by
  intro selection applied
  have happlied : applied = mapping.apply (mapping.select regex path) view := rfl
  unfold apply applyWith at happlied
  cases hwinner : (mapping.select regex path).winner with
  | none =>
    have hsure : ∀ x : String × String × Error, ¬mapping.Stumbles selection x.1 x.2.1 x.2.2 := by
      rintro x ⟨⟨winner, before, after, h, -⟩, -, -⟩
      cases hwinner.symm.trans h
    rw [hwinner] at happlied
    dsimp only at happlied
    rcases hset : View.access.setEach view (mapping.parameters.map fun d ↦ (d.name, none)) with ⟨left, _ | e⟩
    · rw [hset] at happlied
      rw [happlied]
      exact ⟨[], _, rfl, .of_none hsure, fun name raw e h ↦ absurd h (hsure (name, raw, e)), .of_some rfl⟩
    · rw [hset] at happlied
      rw [happlied]
      exact ⟨[], [], rfl, .of_none hsure, fun name raw e h ↦ absurd h (hsure (name, raw, e)), .of_none nofun⟩
  | some winner =>
    rw [hwinner] at happlied
    dsimp only at happlied
    cases hconvert : mapping.convert (mapping.select regex path).captured with
    | error fault =>
      rw [hconvert] at happlied
      rw [happlied]
      refine ⟨[_], [], rfl, .of_some (x := fault) (stumbles_select_iff.mpr hconvert), fun name raw e h ↦ ?_,
        .of_none nofun⟩
      cases hconvert.symm.trans (stumbles_select_iff.mp h)
      rfl
    | ok values =>
      have hsure : ∀ x : String × String × Error, ¬mapping.Stumbles selection x.1 x.2.1 x.2.2 := fun x h ↦
        nomatch hconvert.symm.trans (stumbles_select_iff.mp h)
      rw [hconvert] at happlied
      dsimp only at happlied
      rcases hset : View.access.setEach view (writes mapping.parameters values) with ⟨left, _ | e⟩
      all_goals
        rw [hset] at happlied
        rw [happlied]
        exact ⟨[], [], rfl, .of_none hsure, fun name raw e h ↦ absurd h (hsure (name, raw, e)), .of_none nofun⟩

/-- What the events of a binding mark, part by part. -/
structure Narrates (mapping : Mapping) (producers : Producers) (view : View) (path : String) (result : Except Error Outcome)
    (assembled selected unconverted missed : List Event) : Prop where
  assembles : Marks (mapping.Assembles producers view) (.assembled mapping.owner) assembled
  selects : Marks (mapping.Hits producers view path)
    (fun t ↦ .selected mapping.owner (normalizePath path) ((mapping.choose t).winner.map (·.raw))) selected
  stumbles : Marks
    (fun (name, raw, e) ↦ ∃ t, mapping.Hits producers view path t ∧ mapping.Stumbles (mapping.choose t) name raw e)
    (fun (name, raw, _) ↦ .unconverted mapping.owner name raw) unconverted
  fails : ∀ t name raw e, mapping.Hits producers view path t → mapping.Stumbles (mapping.choose t) name raw e →
    result = .error e
  misses : Marks (fun reroute ↦ result = .ok (.notMatched reroute)) (.missed mapping.owner) missed
  single : unconverted = [] ∨ missed = []

theorem marks_assemblyEvents {assembled : Assembly} (h : mapping.assemble? producers view = .ok assembled) :
    Marks (mapping.Assembles producers view) (.assembled mapping.owner) (mapping.assemblyEvents assembled) := by
  cases assembled with
  | ready regex => exact .of_none fun text htext ↦ nomatch h.symm.trans (assembles_iff.mp htext)
  | text source => exact .of_some (assembles_iff.mpr h)

/-- A binding that does not come to a match of its expression marks the assembled text at most. -/
theorem narrates_of_error {e : Error} {assembled : List Event}
    (hassembled : Marks (mapping.Assembles producers view) (.assembled mapping.owner) assembled)
    (h : ∀ t, ¬mapping.Hits producers view path t) :
    mapping.Narrates producers view path (.error e) assembled [] [] [] where
  assembles := hassembled
  selects := .of_none h
  stumbles := .of_none fun _ ⟨t, ht, _⟩ ↦ h t ht
  fails t _ _ _ ht := absurd ht (h t)
  misses := .of_none nofun
  single := .inl rfl

theorem hits_iff {assembled : Assembly} {regex : Regex}
    (hassemble : mapping.assemble? producers view = .ok assembled) (hregex : mapping.regexOf assembled = .ok regex)
    (t : Regex.Thread) :
    mapping.Hits producers view path t ↔ regex.search (normalizePath path).toList = some t := by
  refine ⟨?_, fun ht ↦ ⟨assembled, regex, hassemble, hregex, ht⟩⟩
  rintro ⟨_, _, h, h', ht⟩
  cases hassemble.symm.trans h
  cases hregex.symm.trans h'
  exact ht

/-- What comes of a path is chosen from the match of the expression. -/
theorem select_of_search {regex : Regex} {t : Regex.Thread} (h : regex.search (normalizePath path).toList = some t) :
    mapping.select regex path = mapping.choose t := by
  rw [select, select?, h]
  rfl

theorem stumbles_iff_search {regex : Regex} {name raw : String} {e : Error} :
    mapping.Stumbles (mapping.select regex path) name raw e ↔
      ∃ t, regex.search (normalizePath path).toList = some t ∧ mapping.Stumbles (mapping.choose t) name raw e := by
  constructor
  · intro h
    cases hsearch : regex.search (normalizePath path).toList with
    | none =>
      rw [select, select?, hsearch] at h
      exact absurd h not_stumbles_none
    | some t => exact ⟨t, rfl, select_of_search hsearch ▸ h⟩
  · rintro ⟨t, ht, h⟩
    exact select_of_search ht ▸ h

theorem marks_selectionEvents (mapping : Mapping) (regex : Regex) (path : String) :
    Marks (fun t ↦ regex.search (normalizePath path).toList = some t)
      (fun t ↦ .selected mapping.owner (normalizePath path) ((mapping.choose t).winner.map (·.raw)))
      (mapping.selectionEvents path (mapping.select? regex path)) := by
  rw [select?]
  cases regex.search (normalizePath path).toList with
  | none => exact .of_none fun t ht ↦ by cases ht
  | some t => exact .of_some rfl

/-- The events of a binding mark the text assembled for it, the match, and how it ends. -/
theorem marks_bind (mapping : Mapping) (producers : Producers) (view : View) (path : String) :
    ∃ assembled selected unconverted missed,
      (mapping.bind producers view path).events = assembled ++ selected ++ unconverted ++ missed ∧
      mapping.Narrates producers view path (mapping.bind producers view path).result assembled selected unconverted
        missed := by
  cases hassemble : mapping.assemble? producers view with
  | error e =>
    rw [bind_of_unresolved hassemble]
    refine ⟨[], [], [], [], rfl, narrates_of_error (.of_none fun text htext ↦ ?_) ?_⟩
    · cases hassemble.symm.trans (assembles_iff.mp htext)
    · rintro t ⟨assembled, regex, h, -⟩
      cases hassemble.symm.trans h
  | ok assembled =>
    have hassembled := marks_assemblyEvents hassemble
    cases hregex : mapping.regexOf assembled with
    | error e =>
      rw [bind_of_rejected hassemble hregex]
      refine ⟨mapping.assemblyEvents assembled, [], [], [], by simp, narrates_of_error hassembled ?_⟩
      rintro t ⟨assembled', regex, h, h', -⟩
      cases hassemble.symm.trans h
      cases hregex.symm.trans h'
    | ok regex =>
      have hhits (t : Regex.Thread) : regex.search (normalizePath path).toList = some t ↔
          mapping.Hits producers view path t := (hits_iff hassemble hregex t).symm
      obtain ⟨unconverted, missed, hevents, hunconverted, hfails, hmissed⟩ := marks_apply mapping regex path view
      rw [bind_of_regexOf hassemble hregex]
      dsimp only
      rw [hevents]
      refine ⟨_, _, unconverted, missed, (List.append_assoc _ _ _).symm, hassembled,
        (marks_selectionEvents mapping regex path).congr hhits, hunconverted.congr fun x ↦ ?_,
        fun t name raw e ht h ↦ hfails name raw e (stumbles_iff_search.mpr ⟨t, (hhits t).mpr ht, h⟩), hmissed, ?_⟩
      · obtain ⟨name, raw, e⟩ := x
        simp only [stumbles_iff_search, hhits]
      · -- Text that cannot be read ends the match with an error, and a miss does not.
        rcases hunconverted with ⟨x, hx, -⟩ | ⟨-, hnone⟩
        · rcases hmissed with ⟨reroute, hmiss, -⟩ | ⟨-, hnone⟩
          · cases hmiss.symm.trans (hfails _ _ _ hx)
          · exact .inr hnone
        · exact .inl hnone

end Mapping

/-! ### Builds -/

/-- The entry of a build, which happens outside of matches. -/
def Mapping.builtEntry (mapping : Mapping) : TraceEntry :=
  ⟨.built mapping.owner mapping.patterns.length mapping.isDynamic, none⟩

def TraceEntry.isBuilt (entry : TraceEntry) : Bool :=
  match entry.event with
  | .built .. => true
  | _ => false

namespace Registry

/-- A type without a mapping has got one. -/
def Gains (registry next : Registry) (key : TypeKey) (mapping : Mapping) : Prop :=
  registry.isCached key = false ∧ next.mapping? key = some mapping

variable {registry : Registry} {key : TypeKey} {declaration : Declaration} {view : View} {path : String}

theorem not_gains_of_same {next : Registry} (h : next.mapping? key = registry.mapping? key) (mapping : Mapping) :
    ¬registry.Gains next key mapping := by
  rintro ⟨hcached, hmapping⟩
  rw [isCached, ← h, hmapping] at hcached
  cases hcached

theorem marks_mapping (registry : Registry) (key : TypeKey) (declaration : Declaration) :
    Marks (registry.Gains (registry.mapping key declaration).registry key) Mapping.builtEntry
      (registry.mapping key declaration).trace := by
  cases hcached : registry.mapping? key with
  | some mapping =>
    rw [mapping_of_cached hcached]
    exact .of_none (not_gains_of_same rfl)
  | none =>
    cases hbuild : Mapping.build declaration registry.settings with
    | error e =>
      rw [mapping_of_fault hcached hbuild]
      exact .of_none (not_gains_of_same rfl)
    | ok mapping =>
      have hgains : registry.Gains (registry.mapping key declaration).registry key mapping :=
        ⟨congrArg Option.isSome hcached, mapping?_of_result (congrArg Step.result (mapping_of_build hcached hbuild))⟩
      rw [mapping_of_build hcached hbuild] at hgains ⊢
      exact .of_some hgains

theorem filter_trace_mapping (registry : Registry) (key : TypeKey) (declaration : Declaration) :
    (registry.mapping key declaration).trace.filter TraceEntry.isBuilt = (registry.mapping key declaration).trace := by
  refine List.filter_eq_self.mpr fun entry hentry ↦ ?_
  obtain ⟨mapping, -, rfl⟩ := (registry.marks_mapping key declaration).exists_of_mem hentry
  rfl

theorem filter_trace_withMapping {α : Type} {next : Registry → Mapping → Step α}
    (hnext : ∀ registry mapping, (next registry mapping).trace.filter TraceEntry.isBuilt = []) (registry : Registry)
    (key : TypeKey) (declaration : Declaration) :
    (registry.withMapping key declaration next).trace.filter TraceEntry.isBuilt =
      (registry.mapping key declaration).trace := by
  have hfirst := registry.filter_trace_mapping key declaration
  cases hmapping : (registry.mapping key declaration).result with
  | error e =>
    rw [withMapping_of_fault hmapping]
    exact hfirst
  | ok mapping =>
    rw [withMapping_of_mapping hmapping]
    dsimp only
    rw [List.filter_append, hfirst, hnext, List.append_nil]

/-- The trace of a match. Without a mapping it is empty, since the declaration does not compile. Otherwise it marks the
build, if this match has built the mapping, and then the binding, in the span of the match. -/
inductive MatchTrace (registry : Registry) (key : TypeKey) (declaration : Declaration) (view : View) (path : String) :
    List TraceEntry → Except Error Outcome → Prop
  | faulty {e : Error} (h : (registry.mapping key declaration).result = .error e) :
    MatchTrace registry key declaration view path [] (.error e)
  | told {mapping : Mapping} (h : (registry.mapping key declaration).result = .ok mapping) {built : List TraceEntry}
      (hbuilt : Marks (registry.Gains (registry.matchPath key declaration view path).2.registry key) Mapping.builtEntry
        built) {assembled selected unconverted missed : List Event} {result : Except Error Outcome}
      (hbinding : mapping.Narrates (registry.producersOf key) view path result assembled selected unconverted missed) :
    MatchTrace registry key declaration view path
      (built ++ (assembled ++ selected ++ unconverted ++ missed).map (⟨·, some ⟨mapping.owner, path⟩⟩)) result

theorem matchTrace (registry : Registry) (key : TypeKey) (declaration : Declaration) (view : View) (path : String) :
    registry.MatchTrace key declaration view path (registry.matchPath key declaration view path).2.trace
      (registry.matchPath key declaration view path).2.result := by
  have hbuilt := registry.marks_mapping key declaration
  rw [← registry.registry_matchWith View.access key declaration view path] at hbuilt
  cases hmapping : (registry.mapping key declaration).result with
  | error e =>
    obtain ⟨hnone, hbuild⟩ := mapping_result_eq_error hmapping
    rw [registry.matchPath_of_fault hmapping, mapping_of_fault hnone hbuild]
    exact .faulty hmapping
  | ok mapping =>
    obtain ⟨assembled, selected, unconverted, missed, hevents, hnarrates⟩ :=
      mapping.marks_bind (registry.producersOf key) view path
    have htold := MatchTrace.told hmapping hbuilt hnarrates
    rw [← hevents] at htold
    rw [registry.matchPath_of_mapping hmapping]
    exact htold

/-- A match builds nothing but the mapping. -/
theorem filter_trace_matchPath (registry : Registry) (key : TypeKey) (declaration : Declaration) (view : View)
    (path : String) : (registry.matchPath key declaration view path).2.trace.filter TraceEntry.isBuilt =
      (registry.mapping key declaration).trace := by
  cases hmapping : (registry.mapping key declaration).result with
  | error e =>
    rw [registry.matchPath_of_fault hmapping]
    exact registry.filter_trace_mapping key declaration
  | ok mapping =>
    obtain ⟨assembled, selected, unconverted, missed, hevents, hnarrates⟩ :=
      mapping.marks_bind (registry.producersOf key) view path
    rw [registry.matchPath_of_mapping hmapping]
    dsimp only
    rw [List.filter_append, filter_trace_mapping, List.append_right_eq_self, List.filter_eq_nil_iff,
      List.forall_mem_map, hevents]
    intro event hevent
    rcases List.mem_append.mp hevent with hevent | hevent
    · rcases List.mem_append.mp hevent with hevent | hevent
      · rcases List.mem_append.mp hevent with hevent | hevent
        · obtain ⟨_, -, rfl⟩ := hnarrates.assembles.exists_of_mem hevent
          nofun
        · obtain ⟨_, -, rfl⟩ := hnarrates.selects.exists_of_mem hevent
          nofun
      · obtain ⟨_, -, rfl⟩ := hnarrates.stumbles.exists_of_mem hevent
        nofun
    · obtain ⟨_, -, rfl⟩ := hnarrates.misses.exists_of_mem hevent
      nofun

end Registry

/-! ### Runs -/

namespace Session

/-- All that the operations of a run on a type leave in the trace. -/
def told (session : Session) (key : TypeKey) (operations : List Operation) : List TraceEntry :=
  (session.reports key operations).flatMap fun report ↦ (report.2.map Prod.fst).getD []

variable {session : Session} {index : Nat} {inst : Instance} {spec : TypeSpec} {view : View} {key : TypeKey}
  {operation : Operation}

theorem told_cons (session : Session) (key : TypeKey) (operation : Operation) (rest : List Operation) :
    session.told key (operation :: rest) = session.told key [operation] ++ (session.next operation).told key rest := by
  unfold told
  rw [reports, reports]
  cases session.concerns key operation with
  | true => exact (congrArg (· ++ _) (List.append_nil _)).symm
  | false => rfl

theorem told_of_not_concerns (h : session.concerns key operation = false) : session.told key [operation] = [] := by
  rw [told, reports, if_neg (ne_true_of_eq_false h)]
  rfl

theorem told_of_concerns (h : session.concerns key operation = true) :
    session.told key [operation] = ((session.report? operation).map Prod.fst).getD [] := by
  rw [told, reports, if_pos h]
  exact List.append_nil _

/-- An action leaves the entry of a build only for the mapping that it needs. -/
theorem filter_trace_act (session : Session) (index : Nat) (inst : Instance) (spec : TypeSpec) (view : View)
    (action : Action) : (session.act index inst spec view action).trace.filter TraceEntry.isBuilt =
      if action.builds then (session.registry.mapping inst.type spec.declaration).trace else [] := by
  have hfirst := session.registry.filter_trace_mapping inst.type spec.declaration
  cases action with
  | matchPath path => exact session.registry.filter_trace_matchPath inst.type spec.declaration view path
  | format template arguments =>
    exact Registry.filter_trace_withMapping (fun _ _ ↦ rfl) session.registry inst.type spec.declaration
  | setDynamic name producer =>
    refine Registry.filter_trace_withMapping (fun registry mapping ↦ ?_) session.registry inst.type spec.declaration
    dsimp only
    cases mapping.find? name with
    | none => rfl
    | some descriptor =>
      dsimp only
      split <;> rfl
  | mapping => exact hfirst
  | set name value? =>
    rw [act, actWith]
    cases View.access.set view name value? <;> rfl
  | _ => rfl

/-- An operation leaves the entry of a build exactly if it gives the type its mapping. -/
theorem marks_built_next (session : Session) (key : TypeKey) (operation : Operation) :
    Marks (session.registry.Gains (session.next operation).registry key) Mapping.builtEntry
      ((session.told key [operation]).filter TraceEntry.isBuilt) := by
  cases hconcerns : session.concerns key operation with
  | false =>
    rw [told_of_not_concerns hconcerns]
    exact .of_none (Registry.not_gains_of_same (agree_next_of_ne hconcerns).registry.mapping?.symm)
  | true =>
    rw [told_of_concerns hconcerns]
    cases operation with
    | redeclare type spec => exact .of_none (Registry.not_gains_of_same rfl)
    | act index action =>
      rcases session.next_cases index action with ⟨hview, hnext⟩ | ⟨inst, spec, view, hview, hnext⟩
      · rw [hnext, report?, step?, hview]
        exact .of_none (Registry.not_gains_of_same rfl)
      · have hkey : inst.type = key := by
          obtain ⟨found, hfound, hkey⟩ := Option.map_eq_some_iff.mp (of_decide_eq_true hconcerns)
          cases hfound.symm.trans (view?_eq_some.mp hview).1
          exact hkey
        subst hkey
        have hmappings : (session.act index inst spec view action).session.registry.mappings = if action.builds then
            (session.registry.mapping inst.type spec.declaration).registry.mappings else session.registry.mappings :=
          (session.registry_actWith View.access inst.type spec.declaration view action).2
        rw [hnext, report?, step?_act hview]
        dsimp only [Option.map_some, Option.getD_some]
        rw [filter_trace_act]
        cases hbuilds : action.builds with
        | true =>
          rw [hbuilds, if_pos rfl] at hmappings
          have htold := session.registry.marks_mapping inst.type spec.declaration
          unfold Registry.Gains Registry.mapping? at htold ⊢
          rw [hmappings]
          exact htold
        | false =>
          rw [hbuilds] at hmappings
          exact .of_none (Registry.not_gains_of_same (congrArg (List.lookup inst.type) hmappings))

/-- A type gains a mapping in a run with the first operation or later. -/
theorem marks_built (session : Session) (key : TypeKey) (operations : List Operation) :
    Marks (session.registry.Gains (session.after operations).registry key) Mapping.builtEntry
      ((session.told key operations).filter TraceEntry.isBuilt) := by
  induction operations generalizing session with
  | nil => exact .of_none (Registry.not_gains_of_same rfl)
  | cons operation rest ih =>
    rw [told_cons, List.filter_append, after_cons]
    rcases session.marks_built_next key operation with ⟨mapping, ⟨hcached, hmapping⟩, hentries⟩ | ⟨hnone, hentries⟩
    · -- The mapping is there to stay, so nothing is built in the rest.
      have hkept := mapping?_after_of_some hmapping rest
      rcases ih (session.next operation) with ⟨-, ⟨huncached, -⟩, -⟩ | ⟨-, hlater⟩
      · rw [Registry.isCached, hmapping] at huncached
        cases huncached
      · rw [hentries, hlater]
        exact .of_some ⟨hcached, hkept⟩
    · rw [hentries, List.nil_append]
      refine (ih (session.next operation)).congr fun mapping ↦ and_congr_left fun _ ↦ ?_
      cases hcached : session.registry.mapping? key with
      | some cached =>
        rw [Registry.isCached, Registry.isCached, mapping?_next, hcached, Option.some_or]
      | none =>
        have huncached : session.registry.isCached key = false := congrArg Option.isSome hcached
        refine iff_of_true ?_ huncached
        cases hnext : (session.next operation).registry.mapping? key with
        | none => exact congrArg Option.isSome hnext
        | some gained => exact absurd ⟨huncached, hnext⟩ (hnone gained)

/-- The trace of a session tells what happens in it. Whatever has happened before, all operations of a run on a type leave
at most one entry of a build, and leave it exactly if the type gains its mapping in the run; for a run of one operation,
this is the operation that gains it. A match tells of its build, if any, of the text assembled for the view, of the match
of the expression, and then of the first captured text that cannot be read, of the miss that it reports, or of neither. -/
theorem trace_mirrors (session : Session) :
    (∀ key operations, Marks (session.registry.Gains (session.after operations).registry key) Mapping.builtEntry
      ((session.told key operations).filter TraceEntry.isBuilt)) ∧
    ∀ index inst spec view path, session.view? index = some (inst, spec, view) → ∃ step result,
      session.step? (.act index (.matchPath path)) = some step ∧ step.answer = result.map .outcome ∧
      session.registry.MatchTrace inst.type spec.declaration view path step.trace result :=
  ⟨session.marks_built, fun _ inst spec view path hview ↦
    ⟨_, _, step?_act hview (.matchPath path), rfl, session.registry.matchTrace inst.type spec.declaration view path⟩⟩

/-- The number of a page that is too large is reported behind the build and the selection. -/
theorem trace_mirrors_page :
    let type : ViewType := ⟨.anyExcept [], true⟩
    let session : Session := ⟨{ settings := {} }, [(.declared 0, ⟨drafts, type⟩)], [⟨.declared 0, [], none⟩]⟩
    session.view? 0 = some (⟨.declared 0, [], none⟩, ⟨drafts, type⟩, ⟨type, [], none⟩) ∧
    ∃ step result, session.step? (.act 0 (.matchPath "true/4000000000")) = some step ∧
      step.trace.map (·.event.message) = ["Built URL mapping", "Selected pattern", "Failed to convert URL parameter"] ∧
      session.registry.MatchTrace (.declared 0) drafts ⟨type, [], none⟩ "true/4000000000" step.trace result := by
  intro type session
  have hview : session.view? 0 = some (⟨.declared 0, [], none⟩, ⟨drafts, type⟩, ⟨type, [], none⟩) := by decide
  have hmessages : (session.step? (.act 0 (.matchPath "true/4000000000"))).map (·.trace.map (·.event.message)) =
      some ["Built URL mapping", "Selected pattern", "Failed to convert URL parameter"] := by
    decide +kernel
  obtain ⟨step, result, hstep, -, htrace⟩ := (trace_mirrors session).2 0 _ _ _ "true/4000000000" hview
  rw [hstep] at hmessages
  exact ⟨hview, step, result, hstep, Option.some.inj hmessages, htrace⟩

end Session

end PathBinding
