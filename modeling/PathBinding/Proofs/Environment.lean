import PathBinding.Proofs.Numeral
import PathBinding.Proofs.Settings
import PathBinding.Settings.Environment

/-!
Settings under an environment. A variable governs its own field: a text that spells a value of the field replaces it, any
other text leaves it alone, and no other variable has a say in it (`Environment.Governs`). Together with the documents
this makes three layers, the defaults, the document and the environment, of which each decides field by field
(`settings_layered`).
-/

set_option autoImplicit false
set_option relaxedAutoImplicit false

namespace PathBinding

namespace Environment

/-- The variable governs the field: it is replaced exactly by what the text of the variable spells, and depends on no other
variable. -/
structure Governs {α : Type} (key : String) (field : Settings → α) (Spells : String → α → Prop) : Prop where
  taken : ∀ (environment : Environment) settings text x, environment.lookup key = some text → Spells text x →
    field (environment.override settings) = x
  kept : ∀ (environment : Environment) settings,
    (∀ text x, environment.lookup key = some text → ¬Spells text x) →
    field (environment.override settings) = field settings
  alone : ∀ (environment other : Environment) settings, environment.lookup key = other.lookup key →
    field (environment.override settings) = field (other.override settings)

/-- The text is a number of 64 bits, with a plus sign or without. -/
def SpellsLimit (text : String) (limit : Nat) : Prop :=
  ∃ digits, digits ≠ [] ∧ (text.toList = digits ∨ text.toList = '+' :: digits) ∧ (∀ c ∈ digits, c.isDigit = true) ∧
    Nat.ofDigitChars 10 digits 0 = limit ∧ limit < Nat.pow 2 64

theorem limit?_eq_some_iff {text : String} {limit : Nat} : limit? text = some limit ↔ SpellsLimit text limit := by
  have hbound : limit < Nat.pow 2 64 ↔ limit ≤ Nat.pow 2 64 - 1 := by
    have hpos : 0 < Nat.pow 2 64 := by decide
    omega
  rw [SpellsLimit, limit?]
  simp only [hbound]
  rw [← Numeral.readNat_eq_ok_iff, ← Numeral.readWord]
  cases Numeral.readWord text.toList <;> simp [Except.toOption]

theorem policy?_eq_some_iff {text : String} {policy : SelectionPolicy} :
    policy? text = some policy ↔ text.toLower = policy.tag := by
  rw [policy?]
  split
  · next htext => cases policy <;> simp [htext, SelectionPolicy.tag]
  · next htext => cases policy <;> simp [htext, SelectionPolicy.tag]
  · next hfirst hsecond =>
    refine iff_of_false nofun fun htext ↦ ?_
    cases policy with
    | declarationOrder => exact hfirst htext
    | mostCaptured => exact hsecond htext

theorem isYes_eq_iff {text : String} {truth : Bool} :
    isYes text = truth ↔ (truth = true ↔ text.toLower = "true" ∨ text.toLower = "1" ∨ text.toLower = "yes") := by
  cases truth <;> simp [isYes]

/-- A field governs if it is read with a decoder from its variable. -/
theorem governs_of_decode {α : Type} {key : String} {field : Settings → α} {Spells : String → α → Prop}
    {decode : String → Option α} (hdecode : ∀ text x, decode text = some x ↔ Spells text x)
    (hfield : ∀ (environment : Environment) settings, field (environment.override settings) =
      ((environment.lookup key).bind decode).getD (field settings)) : Governs key field Spells where
  taken environment settings text x hlookup hspells := by
    rw [hfield, hlookup, Option.bind_some, (hdecode text x).mpr hspells, Option.getD_some]
  kept environment settings hnone := by
    have hundecoded : (environment.lookup key).bind decode = none := by
      refine Option.bind_eq_none_iff.mpr fun text hlookup ↦ Option.eq_none_iff_forall_ne_some.mpr fun x hx ↦ ?_
      exact hnone text x hlookup ((hdecode text x).mp hx)
    rw [hfield, hundecoded, Option.getD_none]
  alone environment other settings hsame := by
    rw [hfield, hfield, hsame]

theorem governs_debug : Governs "URLMAP_DEBUG" Settings.debug fun text truth ↦
    (truth = true ↔ text.toLower = "true" ∨ text.toLower = "1" ∨ text.toLower = "yes") :=
  governs_of_decode (fun _ _ ↦ (Option.some_inj (a := isYes _)).trans isYes_eq_iff) fun _ settings ↦
    congrArg (·.getD settings.debug) Option.map_eq_bind

theorem governs_logLevel : Governs "URLMAP_LOG_LEVEL" Settings.logLevel fun text level ↦ level = text :=
  governs_of_decode (fun _ _ ↦ Option.some_inj.trans eq_comm) fun _ settings ↦
    congrArg (·.getD settings.logLevel) (Option.bind_fun_some _).symm

theorem governs_regexSizeLimit : Governs "URLMAP_REGEX_SIZE_LIMIT" Settings.regexSizeLimit SpellsLimit :=
  governs_of_decode (fun _ _ ↦ limit?_eq_some_iff) fun _ _ ↦ rfl

theorem governs_selectionPolicy : Governs "URLMAP_SELECTION_POLICY" Settings.selectionPolicy fun text policy ↦
    text.toLower = policy.tag :=
  governs_of_decode (fun _ _ ↦ policy?_eq_some_iff) fun _ _ ↦ rfl

theorem governs_missingMarker : Governs "URLMAP_MISSING_MARKER" Settings.missingMarker fun text marker ↦ marker = text :=
  governs_of_decode (fun _ _ ↦ Option.some_inj.trans eq_comm) fun _ settings ↦
    congrArg (·.getD settings.missingMarker) (Option.bind_fun_some _).symm

theorem getD_getD {α : Type} (x? : Option α) (default : α) : x?.getD (x?.getD default) = x?.getD default := by
  cases x? <;> rfl

/-- What the environment has laid over settings it lays over them again. -/
theorem override_override (environment : Environment) (settings : Settings) :
    environment.override (environment.override settings) = environment.override settings := by
  simp only [override, getD_getD]

end Environment

namespace Settings

/-- A text that is an object is a tree of values if each of its literals denotes something and it is not nested too deep;
otherwise nothing is loaded from it. -/
theorem tree?_json {text : String} {members : List (String × Json)} (h : Json.read? text = some (.obj members)) :
    ((Json.obj members).representable = true ∧ (Json.obj members).depth ≤ Json.depthLimit →
      tree? .json text = some (Json.obj members).collapse) ∧
    (¬((Json.obj members).representable = true ∧ (Json.obj members).depth ≤ Json.depthLimit) →
      read .json text = .error (.configuration (.unparsable .json))) := by
  have hvalue : Json.readValue? text = (Json.obj members).value? := by rw [Json.readValue?, h, Option.bind_some]
  rw [tree?, read, readJson, hvalue, Json.value?]
  constructor
  · intro hfits
    rw [if_pos (by simpa using hfits)]
  · intro hfits
    rw [if_neg (by simpa using hfits)]

/-- Settings have three layers, and each decides field by field. An object in a document of either format is loaded if each
of the six keys in it stands for a value of its field: this value replaces the default as a whole, and a field without a
key stays at its default. Other members do not matter, and neither does the format or the order of members. Each variable
of the environment governs its own field, no variable changes what to do with unmatched paths, and the same environment
changes nothing when it is laid over settings again. Settings are loaded from what they are written as. -/
theorem settings_layered :
    (∀ format text members, tree? format text = some (.obj members) →
      Loads format (.obj members) (read format text) ∧
      ∀ other others, tree? format other = some (.obj others) →
        (∀ key ∈ keys, (Json.obj members).get? key = (Json.obj others).get? key) → read format text = read format other) ∧
    (∀ text members format other others, tree? .json text = some (.obj members) → tree? format other = some (.obj others) →
      (Json.obj members).Restates [] (.obj others) →
      ∀ settings, read .json text = .ok settings ↔ read format other = .ok settings) ∧
    (∀ text members, Json.read? text = some (.obj members) →
      ((Json.obj members).representable = true ∧ (Json.obj members).depth ≤ Json.depthLimit →
        tree? .json text = some (Json.obj members).collapse) ∧
      (¬((Json.obj members).representable = true ∧ (Json.obj members).depth ≤ Json.depthLimit) →
        read .json text = .error (.configuration (.unparsable .json)))) ∧
    (Environment.Governs "URLMAP_DEBUG" debug (fun text truth ↦
        (truth = true ↔ text.toLower = "true" ∨ text.toLower = "1" ∨ text.toLower = "yes")) ∧
      Environment.Governs "URLMAP_LOG_LEVEL" logLevel (fun text level ↦ level = text) ∧
      Environment.Governs "URLMAP_REGEX_SIZE_LIMIT" regexSizeLimit Environment.SpellsLimit ∧
      Environment.Governs "URLMAP_SELECTION_POLICY" selectionPolicy (fun text policy ↦ text.toLower = policy.tag) ∧
      Environment.Governs "URLMAP_MISSING_MARKER" missingMarker (fun text marker ↦ marker = text) ∧
      ∀ (environment : Environment) settings, (environment.override settings).defaultNoMatch = settings.defaultNoMatch ∧
        environment.override (environment.override settings) = environment.override settings) ∧
    ∀ settings : Settings, settings.regexSizeLimit < Nat.pow 2 64 → read .json settings.toJson.write = .ok settings := by
  refine ⟨fun format text members h ↦ ⟨?_, fun other others hother hagree ↦ ?_⟩,
    fun text members format other others h hother hrestates settings ↦ ?_, fun text members ↦ tree?_json,
    ⟨Environment.governs_debug, Environment.governs_logLevel, Environment.governs_regexSizeLimit,
      Environment.governs_selectionPolicy, Environment.governs_missingMarker,
      fun environment settings ↦ ⟨rfl, environment.override_override settings⟩⟩, fun settings ↦ readJson_write⟩
  · rw [read_of_tree h]
    exact loads_ofDocument format members
  · rw [read_of_tree h, read_of_tree hother, ofDocument_congr hagree]
  · rw [read_of_tree h, read_of_tree hother, ofDocument_eq_ok_iff, ofDocument_eq_ok_iff]
    exact laidOver_iff_of_restates (nodup_of_readValue? h) hrestates

/-- The same table as an object with its members from last to first, under an environment whose policy is unknown. -/
theorem settings_layered_backward :
    let json := "\x7b\"log_level\":\"debug\",\"selection_policy\":\"most_captured\",\"note\":1\x7d"
    let toml := "note = 1\nselection_policy = 'most_captured'\nlog_level = 'debug'"
    let settings : Settings := { logLevel := "debug", selectionPolicy := .mostCaptured }
    let environment : Environment := [("URLMAP_REGEX_SIZE_LIMIT", "+512"), ("URLMAP_SELECTION_POLICY", "any")]
    tree? .json json =
      some (.obj [("log_level", .str "debug"), ("selection_policy", .str "most_captured"), ("note", .int 1)]) ∧
    tree? .toml toml =
      some (.obj [("note", .int 1), ("selection_policy", .str "most_captured"), ("log_level", .str "debug")]) ∧
    read .json json = .ok settings ∧ read .toml toml = .ok settings ∧
    (environment.override settings).regexSizeLimit = 512 ∧
    (environment.override settings).selectionPolicy = .mostCaptured ∧
    read .json settings.toJson.write = .ok settings := by
  intro json toml settings environment
  obtain ⟨hloads, hsame, -, ⟨-, -, hlimit, hpolicy, -⟩, hwritten⟩ := settings_layered
  have hjson : tree? .json json =
      some (.obj [("log_level", .str "debug"), ("selection_policy", .str "most_captured"), ("note", .int 1)]) := by
    decide +kernel
  have htoml : tree? .toml toml =
      some (.obj [("note", .int 1), ("selection_policy", .str "most_captured"), ("log_level", .str "debug")]) := by
    decide +kernel
  have hlaid : read .json json = .ok settings :=
    ((hloads _ _ _ hjson).1.layered settings).mpr
      ⟨.kept, .replaced rfl, .kept, .kept, .replaced (.tag .mostCaptured), .kept⟩
  have hlimit : (environment.override settings).regexSizeLimit = 512 :=
    hlimit.taken environment settings "+512" 512 rfl
      ⟨['5', '1', '2'], by decide, .inr rfl, by simp, by decide, by decide⟩
  have hpolicy : (environment.override settings).selectionPolicy = .mostCaptured := by
    refine hpolicy.kept environment settings fun text policy htext ↦ ?_
    cases htext
    cases policy <;> decide +kernel
  refine ⟨hjson, htoml, hlaid, (hsame _ _ _ _ _ hjson htoml ?_ settings).mp hlaid, hlimit, hpolicy,
    hwritten settings (by decide)⟩
  exact .obj [("note", .int 1), ("selection_policy", .str "most_captured"), ("log_level", .str "debug")] []
    (List.reverse_perm [_, _, _]).symm (by simp) rfl (.cons (.same _) (.cons (.same _) (.cons (.same _) .nil)))

/-- An object is not loaded if an unknown key stands for a number beyond all range, or if it is nested too deep. -/
theorem settings_unparsable :
    (∃ number, Json.read? "\x7b\"note\":1e999\x7d" = some (.obj [("note", number)])) ∧
    read .json "\x7b\"note\":1e999\x7d" = .error (.configuration (.unparsable .json)) ∧
    read .json ("\x7b\"note\":" ++ String.ofList (List.replicate 127 '[' ++ List.replicate 127 ']') ++ "\x7d") =
      .error (.configuration (.unparsable .json)) ∧
    ¬∀ text members, Json.read? text = some (.obj members) → WellTyped (.obj members) →
      ∃ settings, read .json text = .ok settings := by
  have hread : Json.read? "\x7b\"note\":1e999\x7d" = some (.obj [("note", .unrepresentable)]) := by
    decide +kernel
  have hrefused : read .json "\x7b\"note\":1e999\x7d" = .error (.configuration (.unparsable .json)) := by
    decide +kernel
  refine ⟨⟨_, hread⟩, hrefused, by decide +kernel, fun hall ↦ ?_⟩
  have htyped : WellTyped (.obj [("note", .unrepresentable)]) := by
    constructor <;> rintro json ⟨⟩
  obtain ⟨settings, hloaded⟩ := hall _ _ hread htyped
  cases hrefused.symm.trans hloaded

end Settings

end PathBinding
