import PathBinding.Proofs.Accessors
import PathBinding.Proofs.Match

/-!
Matches for derived bindings. Names of parameters are different once the mapping has been built, so each parameter reaches
its own field, and the field takes whatever is read as its kind, be it that of a view (`accepts_ofFields`) or of a record of
the structure (`Derived.takes_access`). A match is therefore written as a whole or not at all (`matchPath_atomic`,
`matchWith_atomic`, `derived_match_atomic`), and for a record one that goes through records the pattern of its winner
(`Derived.matchWith_cases`).
-/

set_option autoImplicit false
set_option relaxedAutoImplicit false

namespace PathBinding

/-- Fields with names of their own accept what their parameters declare. -/
theorem accepts_ofFields {declaration : Declaration} (hnames : (declaration.parameters.map (·.name)).Nodup)
    (records : Bool) : ∀ d ∈ declaration.parameters, (TypeSpec.ofFields declaration records).viewType.Accepts d := by
  intro d hd
  have hkeys : (declaration.parameters.map fun d ↦ (d.name, d.kind)).map Prod.fst = declaration.parameters.map (·.name) :=
    List.map_map
  have hfield : (d.name, d.kind) ∈ declaration.parameters.map fun d ↦ (d.name, d.kind) :=
    List.mem_map.mpr ⟨d, hd, rfl⟩
  exact ViewType.accepts_of_fields rfl ((lookup_eq_some_iff_mem (hkeys ▸ hnames)).mpr hfield)

namespace Derivation.Derived

variable {α : Type} {derived : Derived} {kindOf : String → Kind} {settings : Settings} {mapping : Mapping}

/-- The setter takes what is read for a parameter, whatever a record holds. -/
theorem takes_access (hbuild : Mapping.build (derived.declaration kindOf) settings = .ok mapping) (selection : Selection) :
    ∀ d ∈ mapping.parameters, ∀ record : Record α, ∃ next,
      (derived.access kindOf).set record d.name (selection.value? d) = .ok next := by
  intro d hd record
  have hparameters : mapping.parameters = (derived.declaration kindOf).parameters := Mapping.parameters_of_build hbuild
  have hnames : (derived.parameters.map (·.name)).Nodup := by
    have hnodup := Mapping.nodup_names hbuild
    rwa [hparameters, declaration, List.map_map] at hnodup
  rw [hparameters] at hd
  obtain ⟨p, hp, rfl⟩ := List.mem_map.mp hd
  rcases set_cases derived kindOf record p.name (selection.value? ⟨p.name, kindOf p.type, p.regex, p.dynamic⟩) with
    ⟨hfind, -⟩ | ⟨q, value, hfind, hvalue, hkind, -⟩ | ⟨q, -, -, hset⟩
  · exact absurd rfl (find?_eq_none_iff.mp hfind p hp)
  · rw [← eq_of_find? hnames hfind hp rfl] at hkind
    exact absurd (Selection.kind_of_value? hvalue) hkind
  · refine ⟨record.put q.field (selection.value? ⟨p.name, kindOf p.type, p.regex, p.dynamic⟩), ?_⟩
    dsimp only [access]
    rw [hset]

/-- A selection is written to a record as a whole, and then its winner is on record if there is a field for it, or it is not
written at all. -/
theorem applyWith_cases (hbuild : Mapping.build (derived.declaration kindOf) settings = .ok mapping) (regex : Regex)
    (path : String) (record : Record α) : let selection := mapping.select regex path
    let applied := mapping.applyWith (derived.access kindOf) selection record
    (¬selection.IsReadable mapping.parameters ∧ applied.view = record ∧ ∃ e, applied.result = .error e) ∨
    (selection.IsReadable mapping.parameters ∧ applied.result = .ok (mapping.outcome selection) ∧
      (derived.matched?.isSome → derived.matched applied.view = selection.winner.map (·.raw))) := by
  intro selection applied
  rcases Mapping.applyWith_of_taken (Mapping.nodup_names hbuild) (Mapping.isProper_select hbuild regex path)
      (takes_access hbuild selection) record with ⟨hunreadable, _, _, e, happly⟩ | ⟨hreadable, written, happly⟩
  · have happlied : applied = _ := happly
    rw [happlied]
    exact .inl ⟨hunreadable, rfl, e, rfl⟩
  · have happlied : applied = _ := happly
    rw [happlied]
    refine .inr ⟨hreadable, rfl, fun hmatched ↦ ?_⟩
    exact (matched_setMatched derived written _).trans (if_pos hmatched)

/-- Assumes: the mapping comes from the binding. A match for a record goes through, and then the pattern of its winner is on
record if there is a field for it, or it fails and leaves the record as it was. -/
theorem matchWith_cases {registry : Registry} {key : TypeKey}
    (hbuilt : ∀ mapping, (registry.mapping key (derived.declaration kindOf)).result = .ok mapping →
      ∃ settings, Mapping.build (derived.declaration kindOf) settings = .ok mapping) (record : Record α) (path : String) :
    let found := registry.matchWith (derived.access kindOf) key (derived.declaration kindOf) record path
    (found.1 = record ∧ ∃ e, found.2.result = .error e) ∨
    ∃ mapping regex, registry.WorksWith key (derived.declaration kindOf) (derived.shown kindOf record) mapping regex ∧
      found.2.result = .ok (mapping.outcome (mapping.select regex path)) ∧
      (derived.matched?.isSome → derived.matched found.1 = (mapping.select regex path).winner.map (·.raw)) := by
  intro found
  rcases registry.worksWith_or_failsUnwritten (derived.access kindOf) key (derived.declaration kindOf) record path with
    ⟨mapping, regex, hworks⟩ | ⟨e, -, hsame, hresult⟩
  · obtain ⟨settings, hbuild⟩ := hbuilt mapping hworks.found
    obtain ⟨hleft, hresult⟩ := hworks.matchWith (derived.access kindOf) path
    rcases applyWith_cases hbuild regex path record with ⟨-, hsame, e, herror⟩ | ⟨-, hok, hmatched⟩
    · exact .inl ⟨hleft.trans hsame, e, hresult.trans herror⟩
    · exact .inr ⟨mapping, regex, hworks, hresult.trans hok,
        fun hsome ↦ (congrArg derived.matched hleft).trans (hmatched hsome)⟩
  · exact .inl ⟨hsame, e, hresult⟩

/-- Assumes: the mapping comes from the binding. A match for a record that fails leaves it as it was. Once the mapping and
its expression are there, the record takes the value of each parameter, so that the match goes through exactly if all
captured text can be read. -/
theorem matchWith_atomic {registry : Registry} {key : TypeKey}
    (hbuilt : ∀ mapping, (registry.mapping key (derived.declaration kindOf)).result = .ok mapping →
      ∃ settings, Mapping.build (derived.declaration kindOf) settings = .ok mapping) (record : Record α) (path : String) :
    let access := derived.access kindOf
    let found := registry.matchWith access key (derived.declaration kindOf) record path
    (∀ e, found.2.result = .error e → found.1 = record) ∧
    ∀ mapping regex, registry.WorksWith key (derived.declaration kindOf) (derived.shown kindOf record) mapping regex →
      let selection := mapping.select regex path
      (∀ d ∈ mapping.parameters, ∀ current : Record α,
        ∃ next, access.set current d.name (selection.value? d) = .ok next) ∧
      ((∃ outcome, found.2.result = .ok outcome) ↔ selection.IsReadable mapping.parameters) := by
  intro access found
  refine ⟨fun e herror ↦ ?_, fun mapping regex hworks ↦ ?_⟩
  · rcases derived.matchWith_cases hbuilt record path with ⟨hsame, -⟩ | ⟨mapping, regex, -, hok, -⟩
    · exact hsame
    · cases hok.symm.trans herror
  · obtain ⟨settings, hbuild⟩ := hbuilt mapping hworks.found
    have hresult : found.2.result = _ := (hworks.matchWith access path).2
    refine ⟨takes_access hbuild (mapping.select regex path), ?_⟩
    rw [hresult]
    rcases applyWith_cases hbuild regex path record with ⟨hunreadable, -, e, herror⟩ | ⟨hreadable, hok, -⟩
    · exact iff_of_false (fun ⟨_, houtcome⟩ ↦ nomatch herror.symm.trans houtcome) hunreadable
    · exact iff_of_true ⟨_, hok⟩ hreadable

end Derivation.Derived

/-- Assumes: the mapping comes from a declaration, and the view accepts what its parameters declare. A match that fails
leaves the view as it was. Once the mapping and its expression are there, the view takes the value of each parameter, so that
the match goes through exactly if all captured text can be read. -/
theorem Registry.matchPath_atomic {registry : Registry} {key : TypeKey} {declaration : Declaration} {settings : Settings}
    {view : View} (hbuilt : ∀ mapping, (registry.mapping key declaration).result = .ok mapping →
      Mapping.build declaration settings = .ok mapping)
    (haccepts : ∀ mapping, Mapping.build declaration settings = .ok mapping →
      ∀ d ∈ mapping.parameters, view.type.Accepts d) (path : String) :
    let found := registry.matchPath key declaration view path
    (∀ e, found.2.result = .error e → found.1 = view) ∧
    ∀ mapping regex, registry.WorksWith key declaration view mapping regex →
      let selection := mapping.select regex path
      (∀ d ∈ mapping.parameters, ∀ current : View, current.type = view.type →
        current.set d.name (selection.value? d) = .ok (current.put d.name (selection.value? d))) ∧
      ((∃ outcome, found.2.result = .ok outcome) ↔ selection.IsReadable mapping.parameters) := by
  intro found
  refine ⟨fun e herror ↦ ?_, fun mapping regex hworks ↦ ⟨fun d hd current hcurrent ↦ ?_, ?_⟩⟩
  · rcases registry.worksWith_or_failsUnwritten View.access key declaration view path with
      ⟨mapping, regex, hworks⟩ | ⟨fault, -, hsame, -⟩
    · have hbuild := hbuilt mapping hworks.found
      obtain ⟨hleft, hresult⟩ := hworks.matchPath path
      exact hleft.trans ((Mapping.apply_atomic hbuild (haccepts mapping hbuild) regex path).1 e (hresult.symm.trans herror))
    · exact hsame
  · exact View.set_of_accepted
      (hcurrent ▸ Selection.refusal?_of_accepts (haccepts mapping (hbuilt mapping hworks.found) d hd) _)
  · have hfound : found.2.result = (mapping.apply (mapping.select regex path) view).result := (hworks.matchPath path).2
    have hbuild := hbuilt mapping hworks.found
    rw [hfound]
    exact (Mapping.apply_atomic hbuild (haccepts mapping hbuild) regex path).2

/-- Assumes: a session begins with a new registry, in which a type has a derived binding, and the type is not declared
anew. A match that fails leaves the view as it was. Once the mapping and its expression are there, the view takes the value
of each parameter, so that the match goes through exactly if all captured text can be read. The same holds of a match for a
record of the structure, whatever its fields hold and also where a parameter is kept in the field of the matched pattern. -/
theorem derived_match_atomic {α : Type} (derived : Derivation.Derived) (kindOf : String → Kind) {start : Session}
    (hfresh : start.IsFresh) {key : TypeKey} (htype : start.types.lookup key = some (derived.typeSpec kindOf))
    {operations : List Operation} (hkept : ∀ spec, .redeclare key spec ∉ operations) {view : View}
    (hview : view.type = (derived.typeSpec kindOf).viewType) (path : String) :
    let registry := (start.after operations).registry
    let declaration := derived.declaration kindOf
    let found := registry.matchPath key declaration view path
    ((∀ e, found.2.result = .error e → found.1 = view) ∧
    ∀ mapping regex, registry.WorksWith key declaration view mapping regex →
      let selection := mapping.select regex path
      (∀ d ∈ mapping.parameters, ∀ current : View, current.type = view.type →
        current.set d.name (selection.value? d) = .ok (current.put d.name (selection.value? d))) ∧
      ((∃ outcome, found.2.result = .ok outcome) ↔ selection.IsReadable mapping.parameters)) ∧
    ∀ record : Derivation.Record α,
      let access := derived.access kindOf
      let found := registry.matchWith access key declaration record path
      (∀ e, found.2.result = .error e → found.1 = record) ∧
      ∀ mapping regex, registry.WorksWith key declaration (derived.shown kindOf record) mapping regex →
        let selection := mapping.select regex path
        (∀ d ∈ mapping.parameters, ∀ current : Derivation.Record α,
          ∃ next, access.set current d.name (selection.value? d) = .ok next) ∧
        ((∃ outcome, found.2.result = .ok outcome) ↔ selection.IsReadable mapping.parameters) := by
  intro registry declaration found
  have hbuilt (mapping : Mapping) (hmapping : (registry.mapping key declaration).result = .ok mapping) :
      Mapping.build declaration start.registry.settings = .ok mapping :=
    Session.build_of_kept hfresh htype hkept hmapping
  have haccepts (mapping : Mapping) (hbuild : Mapping.build declaration start.registry.settings = .ok mapping) :
      ∀ d ∈ mapping.parameters, view.type.Accepts d := by
    have hparameters := Mapping.parameters_of_build hbuild
    rw [hview, hparameters]
    exact accepts_ofFields (hparameters ▸ Mapping.nodup_names hbuild) derived.matched?.isSome
  exact ⟨registry.matchPath_atomic hbuilt haccepts path,
    fun record ↦ derived.matchWith_atomic (fun mapping hmapping ↦ ⟨_, hbuilt mapping hmapping⟩) record path⟩

/-- Invoices by number, whether they are paid or not. -/
def invoices : Derivation.Derived where
  cratePath := Derivation.defaultCrate
  target := "Invoice"
  generics := ""
  conditions? := none
  owner := "Invoice"
  parameters := [⟨"paid", "bool", none, false, "paid"⟩, ⟨"number", "i32", some "[0-9]+", false, "number"⟩]
  patterns := [{ pattern := ":paid/:number" }]
  noMatch := none
  matched? := some "pattern"

/-- The number is too large, so the invoice is not taken to be paid either, be it a view or a record. -/
theorem derived_match_overflow :
    let spec := invoices.typeSpec Kind.ofTypeName
    let start : Session := ⟨{ settings := {} }, [(.derived "Invoice", spec)], [⟨.derived "Invoice", [], none⟩]⟩
    let view : View := ⟨spec.viewType, [("paid", .boolean false), ("number", .integer 4)], some ":paid/:number"⟩
    let record : Derivation.Record Unit := ⟨fun field ↦ .slot (if field = "paid" then some (.boolean false) else none)⟩
    let found := (start.after [.act 0 .mapping]).registry.matchPath (.derived "Invoice")
      (invoices.declaration Kind.ofTypeName) view "true/99999999999"
    let kept := (start.after [.act 0 .mapping]).registry.matchWith (invoices.access Kind.ofTypeName) (.derived "Invoice")
      (invoices.declaration Kind.ofTypeName) record "true/99999999999"
    found.2.result = .error (.coercion "number" "99999999999" (.numeral .tooLarge)) ∧ found.1 = view ∧
      kept.2.result = .error (.coercion "number" "99999999999" (.numeral .tooLarge)) ∧ kept.1 = record := by
  intro spec start view record
  dsimp only
  have hfails : ((start.after [.act 0 .mapping]).registry.matchPath (.derived "Invoice")
      (invoices.declaration Kind.ofTypeName) view "true/99999999999").2.result =
        .error (.coercion "number" "99999999999" (.numeral .tooLarge)) := by
    decide +kernel
  have hfails' : ((start.after [.act 0 .mapping]).registry.matchWith (invoices.access Kind.ofTypeName)
      (.derived "Invoice") (invoices.declaration Kind.ofTypeName) record "true/99999999999").2.result =
        .error (.coercion "number" "99999999999" (.numeral .tooLarge)) := by
    decide +kernel
  have hfresh : start.IsFresh := ⟨rfl, rfl⟩
  have htype : start.types.lookup (.derived "Invoice") = some spec := rfl
  have hkept : ∀ other : TypeSpec, Operation.redeclare (.derived "Invoice") other ∉ [.act 0 .mapping] := nofun
  have hview : view.type = spec.viewType := rfl
  obtain ⟨⟨hsame, -⟩, hrecords⟩ :=
    derived_match_atomic invoices Kind.ofTypeName hfresh htype hkept hview "true/99999999999"
  exact ⟨hfails, hsame _ hfails, hfails', (hrecords record).1 _ hfails'⟩

end PathBinding
