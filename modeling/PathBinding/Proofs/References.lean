import PathBinding.Proofs.DerivedViews
import PathBinding.Proofs.Findings
import PathBinding.Proofs.Rendering
import PathBinding.Proofs.Segment.Reading
import PathBinding.Proofs.WellFormed

/-!
Which parameters can be referenced. A declaration may name its parameters as it likes, but placeholders only have names of
word characters that are not all digits (`Segment.isReference_of_parse`). A parameter with such a name can be captured and
rendered. With any other name it is neither: no pattern has it, and what a template renders to does not depend on its value
(`Mapping.parameters_referenced`).
-/

set_option autoImplicit false
set_option relaxedAutoImplicit false

namespace PathBinding

namespace Segment

/-! ### Names of placeholders -/

/-- The name is one that placeholders can have. A name of digits would be a position. -/
def IsReference (name : String) : Prop :=
  IsName name ∧ name.toList.all Char.isDigit = false

instance (name : String) : Decidable (IsReference name) :=
  decidable_of_iff
    ((name.toList ≠ [] ∧ name.toList.all isWordChar = true) ∧ name.toList.all Char.isDigit = false)
    (by rw [IsReference, IsName, List.all_eq_true])

/-- A name that does not begin with a digit. -/
def IsIdentifier (name : String) : Prop :=
  IsName name ∧ ∀ c ∈ name.toList.head?, c.isDigit = false

theorem IsIdentifier.isReference {name : String} (h : IsIdentifier name) : IsReference name := by
  refine ⟨h.1, Bool.eq_false_iff.mpr fun hall ↦ ?_⟩
  obtain ⟨c, rest, hname⟩ := List.exists_cons_of_ne_nil h.1.1
  have hdigit : c.isDigit = false := h.2 c (by rw [hname]; rfl)
  rw [hname, List.all_cons, hdigit] at hall
  cases hall

theorem isReference_of_canonicalAll {segments : List Segment} (h : CanonicalAll segments) {p : String × Option String}
    (hp : p ∈ placeholdersAll segments) : IsReference p.1 := by
  match segments with
  | [] => cases hp
  | .literal _ :: rest | .positional _ :: rest => exact isReference_of_canonicalAll h.2.2 hp
  | .placeholder name regex :: rest =>
    rcases List.mem_cons.mp hp with rfl | hp
    · exact ⟨h.1.1, h.1.2.1⟩
    · exact isReference_of_canonicalAll h.2.2 hp
  | .optional inner :: rest =>
    rcases List.mem_append.mp hp with hp | hp
    · exact isReference_of_canonicalAll h.1 hp
    · exact isReference_of_canonicalAll h.2.2 hp
termination_by sizeOf segments

/-- The placeholders of a text have such names only. -/
theorem isReference_of_parse {pattern : String} {segments : List Segment} (h : parse pattern = .ok segments)
    {p : String × Option String} (hp : p ∈ placeholdersAll segments) : IsReference p.1 :=
  isReference_of_canonicalAll (parse_eq_ok_iff.mp h).1 hp

/-- A placeholder with such a name is a tree of its own. -/
theorem canonicalAll_placeholder {name : String} (h : IsReference name) : CanonicalAll [.placeholder name none] :=
  ⟨⟨h.1, h.2, nofun⟩, nofun, trivial⟩

theorem printAll_placeholder (name : String) : printAll [.placeholder name none] = ":" ++ name := by
  rw [printAll, print, printAll, String.append_empty]

/-- A colon and a name are a placeholder of the name exactly if placeholders can have it. -/
theorem parse_placeholder_iff {name : String} : parse (":" ++ name) = .ok [.placeholder name none] ↔ IsReference name := by
  constructor
  · intro h
    exact isReference_of_parse (p := (name, none)) h List.mem_cons_self
  · intro h
    rw [← printAll_placeholder]
    exact parse_eq_ok_iff.mpr ⟨canonicalAll_placeholder h, spells_printAll _⟩

end Segment

/-! ### Parameters of patterns -/

namespace Fragment

variable {declaration : Declaration} {pattern : PatternDeclaration} {index : Nat} {definition : Definition}
  {pieces : Pieces}

theorem isReference_of_queryPart? {query : String} {part : QueryPart} (h : queryPart? query = some part) :
    Segment.IsReference part.name := by
  unfold queryPart? at h
  split at h
  · cases h
  · split at h
    · next name inline? hparse =>
      cases h
      exact Segment.isReference_of_parse (p := (name, inline?)) hparse List.mem_cons_self
    · cases h

/-- What a pattern can capture are parameters that placeholders can name. -/
theorem isReference_of_compile (h : compile declaration pattern index = .ok (definition, pieces)) :
    ∀ name ∈ definition.parameters, Segment.IsReference name := by
  obtain ⟨path, parts, -, -, hpath, -, hparts, -, hparameters, -⟩ := compile_ok (fun _ ↦ "") h
  rw [hparameters, List.forall_mem_append, List.forall_mem_map, List.forall_mem_map]
  refine ⟨fun p hp ↦ Segment.isReference_of_parse hpath hp, fun part hpart ↦ ?_⟩
  have hsome : some part ∈ pattern.query.map queryPart? := hparts ▸ List.mem_map_of_mem hpart
  obtain ⟨query, -, hquery⟩ := List.mem_map.mp hsome
  exact isReference_of_queryPart? hquery

/-- A reference to a declared parameter is a pattern of its own. -/
theorem compile_reference (hkinds : HasKinds declaration) {d : Descriptor} (hd : d ∈ declaration.parameters)
    (hname : Segment.IsReference d.name) (index : Nat) : ∃ definition pieces,
      compile declaration ⟨":" ++ d.name, []⟩ index = .ok (definition, pieces) ∧ definition.parameters = [d.name] := by
  let path : List Segment := [.literal "/", .placeholder d.name none]
  have hpath : Segment.parse (rooted (":" ++ d.name)) = .ok path := by
    have hrooted : rooted (":" ++ d.name) = Segment.printAll path := by
      rw [rooted, String.toList_append, Segment.printAll, Segment.printAll_placeholder]
      rfl
    rw [hrooted]
    exact Segment.parse_eq_ok_iff.mpr
      ⟨⟨⟨by decide, rfl⟩, trivial, Segment.canonicalAll_placeholder hname⟩, Segment.spells_printAll _⟩
  have hoccurrences : occurrences ⟨":" ++ d.name, []⟩ = [(d.name, none)] := by
    rw [occurrences, hpath]
    rfl
  have hwell : IsWellFormed declaration ⟨":" ++ d.name, []⟩ := by
    refine ⟨⟨path, hpath, fun position ↦ ?_⟩, fun _ hquery ↦ absurd hquery List.not_mem_nil, ?_, ?_⟩
    · simp [path, itemsAll, items]
    · rw [hoccurrences, List.forall_mem_singleton]
      exact ⟨d, hd, rfl⟩
    · rw [hoccurrences]
      exact List.nodup_singleton _
  obtain ⟨⟨definition, pieces⟩, hok⟩ :=
    (tells_compile hkinds ⟨":" ++ d.name, []⟩ index).ok_iff.mpr (faults_eq_nil_iff.mpr hwell)
  refine ⟨definition, pieces, hok, ?_⟩
  obtain ⟨own, parts, -, -, hown, -, hparts, -, hparameters, -⟩ := compile_ok (fun _ ↦ "") hok
  cases hown.symm.trans hpath
  obtain rfl : parts = [] := List.map_eq_nil_iff.mp hparts.symm
  exact hparameters

end Fragment

/-! ### What templates render -/

namespace Template

variable {context : Context} {view : View}

mutual

theorem segment_congr {part : Segment} (h : ∀ p ∈ part.placeholders, view.get p.1 = context.view.get p.1)
    (inGroup : Bool) (draft : Draft) :
    segment { context with view } inGroup draft part = segment context inGroup draft part := by
  cases part with
  | literal text => rfl
  | placeholder name regex =>
    cases regex with
    | some regex => rfl
    | none =>
      rw [segment, segment, h _ List.mem_cons_self]
      rfl
  | positional index => rfl
  | optional inner =>
    rw [segment, segment, segments_congr h]

/-- Rendering asks for the values of the placeholders only. -/
theorem segments_congr {parts : List Segment}
    (h : ∀ p ∈ Segment.placeholdersAll parts, view.get p.1 = context.view.get p.1) (inGroup : Bool) (draft : Draft) :
    segments { context with view } inGroup draft parts = segments context inGroup draft parts := by
  cases parts with
  | nil => rfl
  | cons part rest =>
    obtain ⟨hpart, hrest⟩ := List.forall_mem_append.mp h
    rw [segments, segments, segment_congr hpart]
    exact bind_congr fun next ↦ segments_congr hrest inGroup next

end

/-- A parameter that placeholders cannot name makes no difference to any template. -/
theorem render_put {name : String} (hname : ¬Segment.IsReference name) (mapping : Mapping) (view : View)
    (value? : Option Value) (template : String) (arguments : List String) (settings : Settings) :
    render mapping (view.put name value?) template arguments settings =
      render mapping view template arguments settings := by
  unfold render
  cases hread : Segment.read template with
  | error fault => rfl
  | ok parts =>
    have hsame : ∀ p ∈ Segment.placeholdersAll parts, (view.put name value?).get p.1 = view.get p.1 := by
      intro p hp
      rw [View.get_put, if_neg]
      rintro rfl
      exact hname (Segment.isReference_of_parse (Segment.parse_eq_ok_iff_read.mpr hread) hp)
    let context : Context := ⟨mapping, view, template, arguments, settings⟩
    have hdraft : segments { context with view := view.put name value? } false {} parts =
        segments context false {} parts :=
      segments_congr hsame false {}
    exact congrArg (· >>= _) hdraft

/-- A reference alone renders to the value of its parameter. -/
theorem render_reference {mapping : Mapping} {name : String} (hname : Segment.IsReference name)
    (hfind : (mapping.find? name).isSome) {view : View} {value : Value} (hvalue : view.get name = some value)
    (arguments : List String) (settings : Settings) :
    render mapping view (":" ++ name) arguments settings = .ok value.render := by
  have hread : Segment.read (":" ++ name) = .ok [.placeholder name none] :=
    Segment.parse_eq_ok_iff_read.mp (Segment.parse_placeholder_iff.mpr hname)
  have hfills : Segment.FillsAll (fun _ _ _ ↦ True) view.textOf [.placeholder name none] value.render.toList := by
    refine ⟨value.render.toList, [], (List.append_nil _).symm, ⟨?_, trivial⟩, rfl⟩
    rw [View.textOf, hvalue]
    rfl
  rw [render_of_fills hread ⟨⟨rfl, hfind⟩, trivial⟩ ⟨trivial, trivial⟩ hfills, String.ofList_toList]

end Template

/-! ### Parameters of mappings -/

namespace Mapping

variable {declaration : Declaration} {settings : Settings} {mapping : Mapping}

theorem hasKinds_of_build (h : build declaration settings = .ok mapping) : Fragment.HasKinds declaration :=
  defaultRegex_of_checkDescriptors (build_parts h).1

theorem isReference_of_build (h : build declaration settings = .ok mapping) {definition : Definition}
    (hdefinition : definition ∈ mapping.patterns) : ∀ name ∈ definition.parameters, Segment.IsReference name := by
  obtain ⟨compiled, hcompiled, hpatterns, -⟩ := build_ok h
  rw [hpatterns] at hdefinition
  obtain ⟨c, hc, rfl⟩ := List.mem_map.mp hdefinition
  obtain ⟨i, hi⟩ := List.mem_iff_getElem?.mp hc
  obtain ⟨pattern, -, hok⟩ := compile_of_compileFrom hcompiled hi
  exact Fragment.isReference_of_compile hok

/-- Text is captured for such names only. -/
theorem captured?_eq_none (h : build declaration settings = .ok mapping) {name : String}
    (hname : ¬Segment.IsReference name) (regex : Regex) (path : String) :
    (mapping.select regex path).captured? name = none := by
  rcases select_eq mapping regex path with hmiss | ⟨definition, hdefinition, t, hselect⟩
  · rw [hmiss]
    rfl
  · rw [hselect, Selection.captured?, List.lookup_eq_none_iff]
    intro p hp
    rw [bne_iff_ne]
    rintro rfl
    have hmem : p.1 ∈ definition.parameters := (names_capturedBy t definition).subset (List.mem_map_of_mem hp)
    exact hname (isReference_of_build h hdefinition p.1 hmem)

/-- Assumes: a mapping has been built. Its parameters can be referenced if they have names that placeholders can have: the
colon and the name are read as a placeholder, which is a pattern that captures the parameter and a template that renders
its value. A parameter of another name is in no pattern, it gets no text from any match, and no template depends on its
value. The parameters of a derived binding are named like their fields unless an option names them, and then they can be
referenced if the fields have plain identifiers. -/
theorem parameters_referenced (hbuild : build declaration settings = .ok mapping) :
    (∀ d ∈ mapping.parameters,
      (Segment.parse (":" ++ d.name) = .ok [.placeholder d.name none] ↔ Segment.IsReference d.name) ∧
      (Segment.IsReference d.name →
        (∀ index, ∃ definition pieces, Fragment.compile declaration ⟨":" ++ d.name, []⟩ index = .ok (definition, pieces) ∧
          definition.parameters = [d.name]) ∧
        ∀ (view : View) (value : Value) (arguments : List String) (settings : Settings), view.get d.name = some value →
          Template.render mapping view (":" ++ d.name) arguments settings = .ok value.render) ∧
      (¬Segment.IsReference d.name →
        (∀ definition ∈ mapping.patterns, d.name ∉ definition.parameters) ∧
        (∀ regex path, (mapping.select regex path).captured? d.name = none) ∧
        ∀ (view : View) (value? : Option Value) (template : String) (arguments : List String) (settings : Settings),
          Template.render mapping (view.put d.name value?) template arguments settings =
            Template.render mapping view template arguments settings)) ∧
    ∀ (source : Derivation.Structure) (derived : Derivation.Derived) (kindOf : String → Kind),
      source.derive = .ok derived → declaration = derived.declaration kindOf →
      ∀ d ∈ mapping.parameters, ∃ field ∈ source.fields, ∃ items, field.parameter? = some items ∧
        let name? := (Derivation.ParameterOptions.read items).1.name?
        d.name = name?.getD field.name ∧
        (name? = none → Segment.IsIdentifier field.name → Segment.IsReference d.name) := by
  refine ⟨fun d hd ↦ ⟨Segment.parse_placeholder_iff, fun hname ↦ ?_, fun hname ↦ ?_⟩, ?_⟩
  · have hdeclared : d ∈ declaration.parameters := parameters_of_build hbuild ▸ hd
    have hfind : (mapping.find? d.name).isSome := by
      rw [find?_of_mem (nodup_names hbuild) hd]
      rfl
    refine ⟨Fragment.compile_reference (hasKinds_of_build hbuild) hdeclared hname,
      fun view value arguments own hvalue ↦ ?_⟩
    exact Template.render_reference hname hfind hvalue arguments own
  · refine ⟨fun definition hdefinition hmem ↦ ?_, captured?_eq_none hbuild hname,
      fun view value? template arguments own ↦ ?_⟩
    · exact hname (isReference_of_build hbuild hdefinition d.name hmem)
    · exact Template.render_put hname mapping view value? template arguments own
  · intro source derived kindOf hderive hdeclaration d hd
    rw [parameters_of_build hbuild, hdeclaration] at hd
    obtain ⟨p, hp, rfl⟩ := List.mem_map.mp hd
    obtain ⟨field, hfield, hdeclared⟩ := Derivation.Structure.exists_field_of_derive hderive hp
    obtain ⟨items, hitems, hparameter⟩ := Derivation.Field.declared?_eq_some_iff.mp hdeclared
    have hname := (Derivation.Field.declares hparameter).1
    refine ⟨field, hfield, items, hitems, hname, fun hnone hidentifier ↦ ?_⟩
    dsimp only
    rw [hname, hnone]
    exact hidentifier.isReference

/-- Accounts by number. Options name the user and the year as no placeholder can be named. -/
def account : Derivation.Structure where
  name := "Account"
  items := [.value "pattern" (.string "accounts/:id")]
  fields := [{ name := "id", type := "Option<i32>", parameter? := some [] },
    { name := "user", type := "Option<String>", parameter? := some [.value "name" (.string "user-id")] },
    { name := "year", type := "Option<i64>", parameter? := some [.value "name" (.string "2024")] }]

/-- What the binding of accounts declares. -/
def accounts : Declaration where
  owner := "Account"
  parameters := [{ name := "id", kind := .integer }, { name := "user-id", kind := .string },
    { name := "2024", kind := .long }]
  patterns := [{ pattern := "accounts/:id" }]

theorem exists_derive_account : ∃ derived, account.derive = .ok derived ∧
    accounts = derived.declaration Kind.ofTypeName := by
  refine ⟨{ cratePath := Derivation.defaultCrate, target := "Account", generics := "", conditions? := none
            owner := "Account"
            parameters := [⟨"id", "i32", none, false, "id"⟩, ⟨"user-id", "String", none, false, "user"⟩,
              ⟨"2024", "i64", none, false, "year"⟩]
            patterns := [⟨"accounts/:id", []⟩], noMatch := none, matched? := none }, ?_, ?_⟩
  · decide +kernel
  · decide

theorem exists_build_accounts : ∃ mapping, build accounts {} = .ok mapping := by
  have hsome : (staticBuild? accounts {}).isSome := by decide +kernel
  obtain ⟨⟨mapping, regex⟩, hfound⟩ := Option.isSome_iff_exists.mp hsome
  obtain ⟨text, hbuild, -⟩ := staticBuild?_eq_some hfound
  exact ⟨mapping, hbuild⟩

/-- The number of an account is referenced, while no account has its user captured or rendered. -/
theorem parameters_referenced_accounts : ∃ mapping, build accounts {} = .ok mapping ∧
    Segment.parse (":" ++ "id") = .ok [.placeholder "id" none] ∧
    (∀ regex path, (mapping.select regex path).captured? "user-id" = none) ∧
    (∀ (view : View) (value? : Option Value) (template : String),
      Template.render mapping (view.put "user-id" value?) template [] {} = Template.render mapping view template [] {}) ∧
    ∃ field ∈ account.fields, ∃ items, field.parameter? = some items ∧
      "user-id" = (Derivation.ParameterOptions.read items).1.name?.getD field.name := by
  obtain ⟨mapping, hbuild⟩ := exists_build_accounts
  have hparameters := parameters_of_build hbuild
  have hid : ⟨"id", .integer, none, false⟩ ∈ mapping.parameters := by
    rw [hparameters]
    decide
  have huser : ⟨"user-id", .string, none, false⟩ ∈ mapping.parameters := by
    rw [hparameters]
    decide
  have hname : Segment.IsReference "id" := by decide
  have hother : ¬Segment.IsReference "user-id" := by decide
  obtain ⟨hreferenced, hfields⟩ := parameters_referenced hbuild
  obtain ⟨hparse, -, -⟩ := hreferenced _ hid
  obtain ⟨-, -, hunreferenced⟩ := hreferenced _ huser
  obtain ⟨-, hcaptured, hrendered⟩ := hunreferenced hother
  obtain ⟨derived, hderive, hdeclares⟩ := exists_derive_account
  obtain ⟨field, hfield, items, hitems, hown, -⟩ := hfields account derived Kind.ofTypeName hderive hdeclares _ huser
  exact ⟨mapping, hbuild, hparse.mpr hname, hcaptured, fun view value? template ↦ hrendered view value? template [] {},
    field, hfield, items, hitems, hown⟩

/-- The mapping of accounts is built, but a colon and the name of the user or of the year are not read as placeholders of
these names. -/
theorem accounts_unreferenced : ∃ mapping, build accounts {} = .ok mapping ∧
    ∀ name ∈ ["user-id", "2024"], (∃ d ∈ mapping.parameters, d.name = name) ∧
      Segment.parse (":" ++ name) ≠ .ok [.placeholder name none] := by
  obtain ⟨mapping, hbuild⟩ := exists_build_accounts
  refine ⟨mapping, hbuild, ?_⟩
  rw [parameters_of_build hbuild]
  have huser : ¬Segment.IsReference "user-id" := by decide
  have hyear : ¬Segment.IsReference "2024" := by decide
  refine List.forall_mem_cons.mpr ⟨⟨⟨_, .tail _ (.head _), rfl⟩, mt Segment.parse_placeholder_iff.mp huser⟩, ?_⟩
  exact List.forall_mem_singleton.mpr ⟨⟨_, .tail _ (.tail _ (.head _)), rfl⟩, mt Segment.parse_placeholder_iff.mp hyear⟩

end Mapping

end PathBinding
