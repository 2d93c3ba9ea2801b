import PathBinding.Proofs.Json.Restatement
import PathBinding.Mapping

/-!
Declarations in documents. Each record of a declaration is written with all of its fields, and is read from any restatement
that leaves out fields with their defaults and puts the others in any order. So a declaration comes back from its document
and from all that say the same (`Declaration.read_restated`), and the mapping that is built from it does not depend on the
way of writing it.
-/

set_option autoImplicit false
set_option relaxedAutoImplicit false

namespace PathBinding

open Json

/-- The members that may be left out of the documents of declarations: fields with their defaults. -/
def Declaration.spare : List (String × Json) :=
  [("parameters", .arr []), ("patterns", .arr []), ("query", .arr []), ("regex", .null), ("dynamic", .bool false),
    ("no_match", .null)]

/-! ### Texts and cases -/

variable {json : Json}

theorem string?_of_restates {text : String} (h : Restates Declaration.spare (.str text) json) : string? json = some text :=
  congrArg string? (h.eq_of_depth rfl)

theorem bool?_of_restates {truth : Bool} (h : Restates Declaration.spare (.bool truth) json) : bool? json = some truth :=
  congrArg bool? (h.eq_of_depth rfl)

theorem not_mem_spare_of_str {name text : String} : (name, .str text) ∉ Declaration.spare := by
  simp [Declaration.spare]

/-- A tag with a text has nothing to spare. -/
theorem eq_of_restates_case {tag text : String} (h : Restates Declaration.spare (.obj [(tag, .str text)]) json) :
    json = .obj [(tag, .str text)] :=
  h.eq_of_single not_mem_spare_of_str rfl

theorem Kind.ofJson?_of_restates {kind : Kind} (h : Restates Declaration.spare kind.toJson json) :
    Kind.ofJson? json = some kind := by
  have hsame : json = kind.toJson := by
    cases kind with
    | other name => exact eq_of_restates_case h
    | _ => exact h.eq_of_depth rfl
  rw [hsame]
  cases kind <;> rfl

theorem NoMatchPolicy.ofJson?_of_restates {policy : NoMatchPolicy} (h : Restates Declaration.spare policy.toJson json) :
    json ≠ .null ∧ NoMatchPolicy.ofJson? json = some policy := by
  have hsame : json = policy.toJson := by
    cases policy with
    | ignore => exact h.eq_of_depth rfl
    | _ => exact eq_of_restates_case h
  rw [hsame]
  cases policy <;> exact ⟨nofun, rfl⟩

/-! ### Records -/

theorem Descriptor.ofJson?_of_restates {descriptor : Descriptor} (h : Restates Declaration.spare descriptor.toJson json) :
    Descriptor.ofJson? json = some descriptor := by
  obtain ⟨members, rfl, hnodup, hmembers⟩ := h.exists_members (by simp)
  have hname : required? string? (members.lookup "name") = some descriptor.name :=
    required?_of_retells (hmembers "name") not_mem_spare_of_str fun _ ↦ string?_of_restates
  have hkind : required? Kind.ofJson? (members.lookup "kind") = some descriptor.kind :=
    required?_of_retells (hmembers "kind") (by simp [Declaration.spare]) fun _ ↦ Kind.ofJson?_of_restates
  have hregex : optional? none (option? string?) (members.lookup "regex") = some descriptor.regex := by
    refine optional?_of_retells (hmembers "regex") ?_ fun _ hother ↦
      option?_of_restates hother fun text htext ↦ ⟨?_, string?_of_restates htext⟩
    · cases descriptor.regex <;> simp [Declaration.spare, ofOption]
    · rw [htext.eq_of_depth rfl]
      exact fun hnull ↦ by cases hnull
  have hdynamic : optional? false bool? (members.lookup "dynamic") = some descriptor.dynamic :=
    optional?_of_retells (hmembers "dynamic") (by simp [Declaration.spare]) fun _ ↦ bool?_of_restates
  rw [Descriptor.ofJson?, fields?_obj hnodup]
  dsimp only [List.map, Option.bind_eq_bind, Option.bind_some]
  rw [hname, hkind, hregex, hdynamic]
  rfl

theorem PatternDeclaration.ofJson?_of_restates {pattern : PatternDeclaration}
    (h : Restates Declaration.spare pattern.toJson json) : PatternDeclaration.ofJson? json = some pattern := by
  obtain ⟨members, rfl, hnodup, hmembers⟩ := h.exists_members (by simp)
  have hpattern : required? string? (members.lookup "pattern") = some pattern.pattern :=
    required?_of_retells (hmembers "pattern") not_mem_spare_of_str fun _ ↦ string?_of_restates
  have hquery : optional? [] (list? string?) (members.lookup "query") = some pattern.query :=
    optional?_of_retells (hmembers "query") (by simp [Declaration.spare]) fun _ hother ↦
      list?_of_restates hother fun _ _ _ ↦ string?_of_restates
  rw [PatternDeclaration.ofJson?, fields?_obj hnodup]
  dsimp only [List.map, Option.bind_eq_bind, Option.bind_some]
  rw [hpattern, hquery]
  rfl

namespace Declaration

theorem ofJson?_of_restates {declaration : Declaration} (h : declaration.toJson.Restates spare json) :
    ofJson? json = some declaration := by
  obtain ⟨members, rfl, hnodup, hmembers⟩ := h.exists_members (by simp)
  have howner : required? string? (members.lookup "owner") = some declaration.owner :=
    required?_of_retells (hmembers "owner") not_mem_spare_of_str fun _ ↦ string?_of_restates
  have hparameters :
      optional? [] (list? Descriptor.ofJson?) (members.lookup "parameters") = some declaration.parameters :=
    optional?_of_retells (hmembers "parameters") (by simp [spare]) fun _ hother ↦
      list?_of_restates hother fun _ _ _ ↦ Descriptor.ofJson?_of_restates
  have hpatterns :
      optional? [] (list? PatternDeclaration.ofJson?) (members.lookup "patterns") = some declaration.patterns :=
    optional?_of_retells (hmembers "patterns") (by simp [spare]) fun _ hother ↦
      list?_of_restates hother fun _ _ _ ↦ PatternDeclaration.ofJson?_of_restates
  have hnoMatch :
      optional? none (option? NoMatchPolicy.ofJson?) (members.lookup "no_match") = some declaration.noMatch := by
    refine optional?_of_retells (hmembers "no_match") ?_ fun _ hother ↦
      option?_of_restates hother fun _ ↦ NoMatchPolicy.ofJson?_of_restates
    cases hpolicy : declaration.noMatch with
    | none => simp
    | some policy => cases policy <;> simp [spare, ofOption, NoMatchPolicy.toJson]
  rw [ofJson?, fields?_obj hnodup]
  dsimp only [List.map, Option.bind_eq_bind, Option.bind_some]
  rw [howner, hparameters, hpatterns, hnoMatch]
  rfl

/-! ### Plain documents -/

theorem isPlain_kind (kind : Kind) : kind.toJson.IsPlain := by
  cases kind <;> simp [Kind.toJson, IsPlain, HavePlain]

theorem isPlain_descriptor (descriptor : Descriptor) : descriptor.toJson.IsPlain := by
  refine ⟨trivial, isPlain_kind descriptor.kind, ?_, trivial, trivial⟩
  cases descriptor.regex <;> exact trivial

theorem isPlain_pattern (pattern : PatternDeclaration) : pattern.toJson.IsPlain := by
  refine ⟨trivial, arePlain_iff.mpr ?_, trivial⟩
  simp [IsPlain]

theorem isPlain_noMatch (policy? : Option NoMatchPolicy) : (ofOption NoMatchPolicy.toJson policy?).IsPlain := by
  rcases policy? with _ | policy
  · exact trivial
  · cases policy <;> simp [ofOption, NoMatchPolicy.toJson, IsPlain, HavePlain]

theorem isPlain_toJson (declaration : Declaration) : declaration.toJson.IsPlain := by
  refine ⟨trivial, arePlain_iff.mpr ?_, arePlain_iff.mpr ?_, isPlain_noMatch declaration.noMatch, trivial⟩
  · exact List.forall_mem_map.mpr fun descriptor _ ↦ isPlain_descriptor descriptor
  · exact List.forall_mem_map.mpr fun pattern _ ↦ isPlain_pattern pattern

/-- A declaration is read from its document, and from every document that says the same with its members in another order and
fields with their defaults left out. Either way it builds the same mapping, or fails with the same error. -/
theorem read_restated (declaration : Declaration) :
    (Json.read? declaration.toJson.write).bind ofJson? = some declaration ∧
    ∀ json, declaration.toJson.Restates spare json →
      Json.read? json.write = some json ∧ ofJson? json = some declaration ∧
      ∀ settings, ((Json.read? json.write).bind ofJson?).map (Mapping.build · settings) =
        some (Mapping.build declaration settings) := by
  have hrestated : ∀ json, declaration.toJson.Restates spare json →
      Json.read? json.write = some json ∧ ofJson? json = some declaration := fun json h ↦
    ⟨read?_write (h.isPlain (isPlain_toJson declaration)), ofJson?_of_restates h⟩
  refine ⟨?_, fun json h ↦ ?_⟩
  · obtain ⟨hread, hdecoded⟩ := hrestated _ (.same declaration.toJson)
    rw [hread, Option.bind_some, hdecoded]
  · obtain ⟨hread, hdecoded⟩ := hrestated json h
    refine ⟨hread, hdecoded, fun settings ↦ ?_⟩
    rw [hread, Option.bind_some, hdecoded, Option.map_some]

/-- The type of a parameter may have the name of a kind, which is no kind for that. -/
theorem read_restated_swapped :
    ∃ json, Json.read? ("\x7b\"parameters\":[\x7b\"kind\":\x7b\"other\":\"string\"\x7d,\"name\":\"status\"\x7d]," ++
        "\"owner\":\"Order\",\"patterns\":[\x7b\"pattern\":\"order/:status\"\x7d]\x7d") = some json ∧
      (toJson ⟨"Order", [⟨"status", .other "string", none, false⟩], [⟨"order/:status", []⟩], none⟩).Restates
        spare json ∧
      ofJson? json = some ⟨"Order", [⟨"status", .other "string", none, false⟩], [⟨"order/:status", []⟩], none⟩ := by
  have hdescriptor : (Descriptor.toJson ⟨"status", .other "string", none, false⟩).Restates spare
      (.obj [("kind", .obj [("other", .str "string")]), ("name", .str "status")]) :=
    .obj _ _ (.swap _ _ _) (by simp [spare, ofOption]) rfl (.cons (.same _) (.cons (.same _) .nil))
  have hpattern : (PatternDeclaration.toJson ⟨"order/:status", []⟩).Restates spare
      (.obj [("pattern", .str "order/:status")]) :=
    .obj _ _ (.refl _) (by simp [spare]) rfl (.cons (.same _) .nil)
  have hrestates : (toJson ⟨"Order", [⟨"status", .other "string", none, false⟩], [⟨"order/:status", []⟩], none⟩).Restates
      spare (.obj [("parameters", .arr [.obj [("kind", .obj [("other", .str "string")]), ("name", .str "status")]]),
        ("owner", .str "Order"), ("patterns", .arr [.obj [("pattern", .str "order/:status")]])]) :=
    .obj [("parameters", .arr [Descriptor.toJson _]), ("owner", _), ("patterns", .arr [PatternDeclaration.toJson _])]
      [("no_match", .null)] (.swap _ _ _) (by simp [spare]) rfl
      (.cons (.arr (.cons hdescriptor .nil)) (.cons (.same _) (.cons (.arr (.cons hpattern .nil)) .nil)))
  obtain ⟨hread, hdecoded, -⟩ := (read_restated _).2 _ hrestates
  refine ⟨_, hread ▸ congrArg Json.read? ?_, hrestates, hdecoded⟩
  decide +kernel

end Declaration

end PathBinding
