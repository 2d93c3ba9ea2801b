import PathBinding.Proofs.Json.Restatement
import PathBinding.Proofs.Json.Text
import PathBinding.Proofs.Json.Tree
import PathBinding.Settings.Document

/-!
Settings in layers. A document that is an object gives to each field what its key stands for, or leaves it at the default
(`LaidOver`); it is refused exactly if one of the six keys stands for something else, whatever its other members are
(`loads_ofDocument`). Objects of the same tree are laid over the defaults alike (`laidOver_iff_of_restates`), and settings
are loaded from what they are written as (`readJson_write`).
-/

set_option autoImplicit false
set_option relaxedAutoImplicit false

namespace PathBinding

open Json

/-! ### What stands for a value -/

inductive NoMatchPolicy.Denoted : Json → NoMatchPolicy → Prop
  | ignore : Denoted (.str "ignore") .ignore
  | ignoreNull : Denoted (.obj [("ignore", .null)]) .ignore
  | rerouteToError (kind : String) : Denoted (.obj [("reroute_to_error", .str kind)]) (.rerouteToError kind)
  | rerouteToView (kind : String) : Denoted (.obj [("reroute_to_view", .str kind)]) (.rerouteToView kind)

def SelectionPolicy.tag : SelectionPolicy → String
  | .declarationOrder => "declaration_order"
  | .mostCaptured => "most_captured"

inductive SelectionPolicy.Denoted : Json → SelectionPolicy → Prop
  | tag (policy : SelectionPolicy) : Denoted (.str policy.tag) policy
  | tagNull (policy : SelectionPolicy) : Denoted (.obj [(policy.tag, .null)]) policy

theorem bool?_eq_some_iff {json : Json} {truth : Bool} : json.bool? = some truth ↔ json = .bool truth := by
  cases json <;> simp [bool?]

theorem string?_eq_some_iff {json : Json} {text : String} : json.string? = some text ↔ json = .str text := by
  cases json <;> simp [string?]

theorem word?_eq_some_iff {json : Json} {n : Nat} : json.word? = some n ↔ json = .int n ∧ n < Nat.pow 2 64 := by
  cases json with
  | int number =>
    have hcast : ((Nat.pow 2 64 : Nat) : Int) = Int.pow 2 64 := by decide
    rw [word?, Json.int.injEq]
    constructor
    · intro h
      split at h
      · next hbounds =>
        cases h
        have hnumber : ((number.toNat : Nat) : Int) = number := Int.toNat_of_nonneg hbounds.1
        exact ⟨hnumber.symm, by omega⟩
      · cases h
    · rintro ⟨rfl, hbound⟩
      rw [if_pos ⟨Int.natCast_nonneg n, by omega⟩, Int.toNat_natCast]
  | _ => simp [word?]

theorem case?_eq_some_iff {json : Json} {tag : String} {content : Option Json} :
    json.case? = some (tag, content) ↔
      (json = .str tag ∧ content = none) ∨ ∃ inner, json = .obj [(tag, inner)] ∧ content = some inner := by
  cases json with
  | str text => simp [case?, eq_comm]
  | obj members =>
    match members with
    | [] => simp [case?]
    | [(name, inner)] => simp [case?, eq_comm, and_comm]
    | _ :: _ :: _ => simp [case?]
  | _ => simp [case?]

/-- A case without content is its tag, or has null for its content. -/
theorem eq_of_isBare {json : Json} {tag : String} {content : Option Json} (hcase : json.case? = some (tag, content))
    (hbare : isBare content = true) : json = .str tag ∨ json = .obj [(tag, .null)] := by
  rcases case?_eq_some_iff.mp hcase with ⟨rfl, -⟩ | ⟨inner, rfl, rfl⟩
  · exact .inl rfl
  · cases inner with
    | null => exact .inr rfl
    | _ => cases hbare

theorem eq_of_bind_string? {json : Json} {tag text : String} {content : Option Json}
    (hcase : json.case? = some (tag, content)) (htext : content.bind string? = some text) :
    json = .obj [(tag, .str text)] := by
  obtain ⟨inner, hinner, htext⟩ := Option.bind_eq_some_iff.mp htext
  rcases case?_eq_some_iff.mp hcase with ⟨-, rfl⟩ | ⟨inner', rfl, rfl⟩
  · cases hinner
  · cases hinner
    rw [string?_eq_some_iff.mp htext]

theorem NoMatchPolicy.ofJson?_eq_some_iff {json : Json} {policy : NoMatchPolicy} :
    NoMatchPolicy.ofJson? json = some policy ↔ NoMatchPolicy.Denoted json policy := by
  constructor
  · intro h
    obtain ⟨⟨tag, content⟩, hcase, h⟩ := Option.bind_eq_some_iff.mp h
    dsimp only at h
    split at h
    · split at h
      · next hbare =>
        cases h
        rcases eq_of_isBare hcase hbare with rfl | rfl
        · exact .ignore
        · exact .ignoreNull
      · cases h
    · obtain ⟨text, htext, rfl⟩ := Option.map_eq_some_iff.mp h
      exact eq_of_bind_string? hcase htext ▸ .rerouteToError text
    · obtain ⟨text, htext, rfl⟩ := Option.map_eq_some_iff.mp h
      exact eq_of_bind_string? hcase htext ▸ .rerouteToView text
    · cases h
  · rintro (_ | _ | _ | _) <;> rfl

theorem SelectionPolicy.ofJson?_eq_some_iff {json : Json} {policy : SelectionPolicy} :
    SelectionPolicy.ofJson? json = some policy ↔ SelectionPolicy.Denoted json policy := by
  constructor
  · intro h
    obtain ⟨⟨tag, content⟩, hcase, h⟩ := Option.bind_eq_some_iff.mp h
    dsimp only at h
    split at h
    · split at h
      · next hbare =>
        cases h
        rcases eq_of_isBare hcase hbare with rfl | rfl
        · exact .tag .declarationOrder
        · exact .tagNull .declarationOrder
      · cases h
    · split at h
      · next hbare =>
        cases h
        rcases eq_of_isBare hcase hbare with rfl | rfl
        · exact .tag .mostCaptured
        · exact .tagNull .mostCaptured
      · cases h
    · cases h
  · rintro (_ | _) <;> cases policy <;> rfl

/-! ### Documents over the defaults -/

/-- A field is left at its default, or replaced by what the document gives for it. -/
inductive Laid {α : Type} (Denotes : Json → α → Prop) (default : α) : Option Json → α → Prop
  | kept : Laid Denotes default none default
  | replaced {json : Json} {x : α} (h : Denotes json x) : Laid Denotes default (some json) x

namespace Settings

/-- The keys that concern a field. -/
def keys : List String :=
  ["debug", "log_level", "regex_size_limit", "default_no_match", "selection_policy", "missing_marker"]

/-- The settings are the defaults with the document laid over them. -/
structure LaidOver (document : Json) (settings : Settings) : Prop where
  debug : Laid (fun json truth ↦ json = .bool truth) true (document.get? "debug") settings.debug
  logLevel : Laid (fun json text ↦ json = .str text) "info" (document.get? "log_level") settings.logLevel
  regexSizeLimit : Laid (fun json (n : Nat) ↦ json = .int n ∧ n < Nat.pow 2 64) 10485760
    (document.get? "regex_size_limit") settings.regexSizeLimit
  defaultNoMatch : Laid NoMatchPolicy.Denoted (.rerouteToError "NotFound") (document.get? "default_no_match")
    settings.defaultNoMatch
  selectionPolicy : Laid SelectionPolicy.Denoted .declarationOrder (document.get? "selection_policy")
    settings.selectionPolicy
  missingMarker : Laid (fun json text ↦ json = .str text) "<missing:\x7b\x7d>" (document.get? "missing_marker")
    settings.missingMarker

/-- Each key that a document has stands for a value of its field. -/
structure WellTyped (document : Json) : Prop where
  debug : ∀ json, document.get? "debug" = some json → ∃ truth, json = .bool truth
  logLevel : ∀ json, document.get? "log_level" = some json → ∃ text, json = .str text
  regexSizeLimit : ∀ json, document.get? "regex_size_limit" = some json → ∃ n : Nat, json = .int n ∧ n < Nat.pow 2 64
  defaultNoMatch : ∀ json, document.get? "default_no_match" = some json → ∃ policy, NoMatchPolicy.Denoted json policy
  selectionPolicy : ∀ json, document.get? "selection_policy" = some json →
    ∃ policy, SelectionPolicy.Denoted json policy
  missingMarker : ∀ json, document.get? "missing_marker" = some json → ∃ text, json = .str text

end Settings

/-- A required field of the merged record is what the document or else the defaults say. -/
theorem required?_over {α : Type} {decode : Json → Option α} {Denotes : Json → α → Prop} {default x : α} {base : Json}
    (hdecode : ∀ json x, decode json = some x ↔ Denotes json x) (hbase : decode base = some default)
    (found : Option Json) : required? decode (found.or (some base)) = some x ↔ Laid Denotes default found x := by
  cases found with
  | none =>
    rw [Option.none_or, required?, Option.bind_some, hbase, Option.some.injEq]
    constructor
    · rintro rfl
      exact .kept
    · rintro ⟨⟩
      rfl
  | some json =>
    rw [Option.some_or, required?, Option.bind_some, hdecode]
    constructor
    · exact .replaced
    · rintro (_ | h)
      exact h

theorem exists_laid_iff {α : Type} {Denotes : Json → α → Prop} {default : α} {found : Option Json} :
    (∃ x, Laid Denotes default found x) ↔ ∀ json, found = some json → ∃ x, Denotes json x := by
  cases found with
  | none => exact iff_of_true ⟨default, .kept⟩ nofun
  | some json =>
    constructor
    · rintro ⟨x, h⟩ json' hjson
      cases hjson
      cases h with
      | replaced h => exact ⟨x, h⟩
    · intro h
      obtain ⟨x, hx⟩ := h json rfl
      exact ⟨x, .replaced hx⟩

namespace Settings

variable {members : List (String × Json)} {settings : Settings}

/-- The members of the default record. -/
def base : List (String × Json) :=
  [("debug", .bool true), ("log_level", .str "info"), ("regex_size_limit", .int (10485760 : Nat)),
    ("default_no_match", NoMatchPolicy.toJson (.rerouteToError "NotFound")),
    ("selection_policy", SelectionPolicy.toJson .declarationOrder), ("missing_marker", .str "<missing:\x7b\x7d>")]

theorem overDefaults_obj (members : List (String × Json)) :
    overDefaults (.obj members) = .obj (lastWins (base ++ members)) :=
  rfl

theorem lookup_over (members : List (String × Json)) (key : String) :
    (lastWins (base ++ members)).lookup key = ((Json.obj members).get? key).or (base.lookup key) := by
  have hbase : base.reverse.lookup key = base.lookup key := lookup_reverse (by decide) key
  rw [lookup_lastWins, List.reverse_append, List.lookup_append, hbase]
  rfl

theorem required?_key {α : Type} {decode : Json → Option α} {Denotes : Json → α → Prop} {default x : α} {json : Json}
    {key : String} (hlookup : base.lookup key = some json) (hdecode : ∀ json x, decode json = some x ↔ Denotes json x)
    (hbase : decode json = some default) :
    required? decode ((lastWins (base ++ members)).lookup key) = some x ↔
      Laid Denotes default ((Json.obj members).get? key) x := by
  rw [lookup_over, hlookup]
  exact required?_over hdecode hbase _

theorem ofJson?_over : ofJson? (overDefaults (.obj members)) = some settings ↔ LaidOver (.obj members) settings := by
  have hbool : ∀ json x, bool? json = some x ↔ json = .bool x := fun _ _ ↦ bool?_eq_some_iff
  have hstring : ∀ json x, string? json = some x ↔ json = .str x := fun _ _ ↦ string?_eq_some_iff
  have hword : ∀ json x, word? json = some x ↔ json = .int x ∧ x < Nat.pow 2 64 := fun _ _ ↦ word?_eq_some_iff
  have hnoMatch : ∀ json x, NoMatchPolicy.ofJson? json = some x ↔ NoMatchPolicy.Denoted json x :=
    fun _ _ ↦ NoMatchPolicy.ofJson?_eq_some_iff
  have hselection : ∀ json x, SelectionPolicy.ofJson? json = some x ↔ SelectionPolicy.Denoted json x :=
    fun _ _ ↦ SelectionPolicy.ofJson?_eq_some_iff
  rw [overDefaults_obj, ofJson?, fields?_obj (nodup_lastWins _)]
  dsimp only [List.map, Option.bind_eq_bind, Option.bind_some]
  constructor
  · intro h
    obtain ⟨debug, hdebug, h⟩ := Option.bind_eq_some_iff.mp h
    obtain ⟨logLevel, hlogLevel, h⟩ := Option.bind_eq_some_iff.mp h
    obtain ⟨regexSizeLimit, hregexSizeLimit, h⟩ := Option.bind_eq_some_iff.mp h
    obtain ⟨defaultNoMatch, hdefaultNoMatch, h⟩ := Option.bind_eq_some_iff.mp h
    obtain ⟨selectionPolicy, hselectionPolicy, h⟩ := Option.bind_eq_some_iff.mp h
    obtain ⟨missingMarker, hmissingMarker, h⟩ := Option.bind_eq_some_iff.mp h
    cases h
    exact ⟨(required?_key rfl hbool rfl).mp hdebug, (required?_key rfl hstring rfl).mp hlogLevel,
      (required?_key rfl hword rfl).mp hregexSizeLimit, (required?_key rfl hnoMatch rfl).mp hdefaultNoMatch,
      (required?_key rfl hselection rfl).mp hselectionPolicy, (required?_key rfl hstring rfl).mp hmissingMarker⟩
  · intro h
    rw [(required?_key rfl hbool rfl).mpr h.debug, (required?_key rfl hstring rfl).mpr h.logLevel,
      (required?_key rfl hword rfl).mpr h.regexSizeLimit, (required?_key rfl hnoMatch rfl).mpr h.defaultNoMatch,
      (required?_key rfl hselection rfl).mpr h.selectionPolicy, (required?_key rfl hstring rfl).mpr h.missingMarker]
    rfl

theorem exists_laidOver_iff {document : Json} : (∃ settings, LaidOver document settings) ↔ WellTyped document := by
  constructor
  · rintro ⟨settings, h⟩
    exact ⟨exists_laid_iff.mp ⟨_, h.debug⟩, exists_laid_iff.mp ⟨_, h.logLevel⟩, exists_laid_iff.mp ⟨_, h.regexSizeLimit⟩,
      exists_laid_iff.mp ⟨_, h.defaultNoMatch⟩, exists_laid_iff.mp ⟨_, h.selectionPolicy⟩,
      exists_laid_iff.mp ⟨_, h.missingMarker⟩⟩
  · intro h
    obtain ⟨debug, hdebug⟩ := exists_laid_iff.mpr h.debug
    obtain ⟨logLevel, hlogLevel⟩ := exists_laid_iff.mpr h.logLevel
    obtain ⟨regexSizeLimit, hregexSizeLimit⟩ := exists_laid_iff.mpr h.regexSizeLimit
    obtain ⟨defaultNoMatch, hdefaultNoMatch⟩ := exists_laid_iff.mpr h.defaultNoMatch
    obtain ⟨selectionPolicy, hselectionPolicy⟩ := exists_laid_iff.mpr h.selectionPolicy
    obtain ⟨missingMarker, hmissingMarker⟩ := exists_laid_iff.mpr h.missingMarker
    exact ⟨⟨debug, logLevel, regexSizeLimit, defaultNoMatch, selectionPolicy, missingMarker⟩, hdebug, hlogLevel,
      hregexSizeLimit, hdefaultNoMatch, hselectionPolicy, hmissingMarker⟩

theorem isSimple_of_noMatch {json : Json} {policy : NoMatchPolicy} (h : NoMatchPolicy.Denoted json policy) :
    json.IsSimple := by
  cases h with
  | ignore => exact .inl rfl
  | _ => exact .inr ⟨_, _, rfl, rfl⟩

theorem isSimple_of_selection {json : Json} {policy : SelectionPolicy} (h : SelectionPolicy.Denoted json policy) :
    json.IsSimple := by
  cases h with
  | tag => exact .inl rfl
  | tagNull => exact .inr ⟨_, _, rfl, rfl⟩

/-- What loading a document comes to: the defaults with the document laid over them if all of its keys stand for values of
their fields, and otherwise the error of the format. -/
structure Loads (format : DocumentFormat) (document : Json) (result : Except Error Settings) : Prop where
  succeeds : (∃ settings, result = .ok settings) ↔ WellTyped document
  layered : ∀ settings, result = .ok settings ↔ LaidOver document settings
  refused : ¬WellTyped document → result = .error (.configuration (.undecodable format))

theorem ofDocument_eq_ok_iff {format : DocumentFormat} :
    ofDocument format (.obj members) = .ok settings ↔ LaidOver (.obj members) settings := by
  rw [← ofJson?_over, ofDocument]
  cases ofJson? (overDefaults (.obj members)) <;> simp

theorem loads_ofDocument (format : DocumentFormat) (members : List (String × Json)) :
    Loads format (.obj members) (ofDocument format (.obj members)) where
  succeeds := (exists_congr fun _ ↦ ofDocument_eq_ok_iff).trans exists_laidOver_iff
  layered _ := ofDocument_eq_ok_iff
  refused h := by
    rw [← exists_laidOver_iff, not_exists] at h
    have hnone : ofJson? (overDefaults (.obj members)) = none :=
      Option.eq_none_iff_forall_ne_some.mpr fun settings hsome ↦ h settings (ofJson?_over.mp hsome)
    rw [ofDocument, hnone]

/-- A field is laid alike over what says the same of it. -/
theorem LaidOver.imp {document other : Json} (h : LaidOver document settings)
    (hlaid : ∀ key ∈ keys, ∀ {α : Type} (Denotes : Json → α → Prop) (default x : α),
      (∀ json y, Denotes json y → json.IsSimple) →
      Laid Denotes default (document.get? key) x → Laid Denotes default (other.get? key) x) : LaidOver other settings where
  debug := by
    refine hlaid "debug" (by decide) _ _ _ ?_ h.debug
    rintro _ _ rfl
    exact .inl rfl
  logLevel := by
    refine hlaid "log_level" (by decide) _ _ _ ?_ h.logLevel
    rintro _ _ rfl
    exact .inl rfl
  regexSizeLimit := by
    refine hlaid "regex_size_limit" (by decide) _ _ _ ?_ h.regexSizeLimit
    rintro _ _ ⟨rfl, -⟩
    exact .inl rfl
  defaultNoMatch := hlaid "default_no_match" (by decide) _ _ _ (fun _ _ ↦ isSimple_of_noMatch) h.defaultNoMatch
  selectionPolicy := hlaid "selection_policy" (by decide) _ _ _ (fun _ _ ↦ isSimple_of_selection) h.selectionPolicy
  missingMarker := by
    refine hlaid "missing_marker" (by decide) _ _ _ ?_ h.missingMarker
    rintro _ _ rfl
    exact .inl rfl

/-- Only what the six keys stand for matters. -/
theorem LaidOver.of_agree {document other : Json} (h : LaidOver document settings)
    (hagree : ∀ key ∈ keys, document.get? key = other.get? key) : LaidOver other settings :=
  h.imp fun key hkey _ _ _ _ _ hlaid ↦ hagree key hkey ▸ hlaid

theorem ofDocument_congr {format : DocumentFormat} {others : List (String × Json)}
    (h : ∀ key ∈ keys, (Json.obj members).get? key = (Json.obj others).get? key) :
    ofDocument format (.obj members) = ofDocument format (.obj others) := by
  have hsame : ofJson? (overDefaults (.obj members)) = ofJson? (overDefaults (.obj others)) := by
    refine Option.ext fun settings ↦ ofJson?_over.trans (Iff.trans ?_ ofJson?_over.symm)
    exact ⟨fun hlaid ↦ hlaid.of_agree h, fun hlaid ↦ hlaid.of_agree fun key hkey ↦ (h key hkey).symm⟩
  rw [ofDocument, ofDocument, hsame]

/-! ### Documents of the same tree -/

theorem laid_congr {α : Type} {Denotes : Json → α → Prop} {default x : α} {name : String} {found other : Option Json}
    (hsimple : ∀ json y, Denotes json y → json.IsSimple) (h : Retells [] name found other) :
    Laid Denotes default found x ↔ Laid Denotes default other x := by
  cases h with
  | absent => exact .rfl
  | missing h => cases h
  | kept h =>
    constructor
    · rintro (_ | hdenotes)
      exact .replaced (h.eq_of_isSimple (.inl (hsimple _ _ hdenotes)) ▸ hdenotes)
    · rintro (_ | hdenotes)
      exact .replaced (h.eq_of_isSimple (.inr (hsimple _ _ hdenotes)) ▸ hdenotes)

/-- Objects of the same tree are laid over the defaults alike. -/
theorem laidOver_iff_of_restates {others : List (String × Json)} (hnodup : (members.map Prod.fst).Nodup)
    (h : (Json.obj members).Restates [] (.obj others)) :
    LaidOver (.obj members) settings ↔ LaidOver (.obj others) settings := by
  obtain ⟨_, ⟨⟩, hothers, hmembers⟩ := h.exists_members hnodup
  have hget : ∀ key, Retells [] key ((Json.obj members).get? key) ((Json.obj others).get? key) := by
    intro key
    rw [get?, get?, lookup_reverse hnodup, lookup_reverse hothers]
    exact hmembers key
  constructor
  · exact fun hlaid ↦ hlaid.imp fun key _ _ _ _ _ hsimple ↦ (laid_congr hsimple (hget key)).mp
  · exact fun hlaid ↦ hlaid.imp fun key _ _ _ _ _ hsimple ↦ (laid_congr hsimple (hget key)).mpr

/-! ### Texts -/

/-- The tree that a text holds. -/
def tree? : DocumentFormat → String → Option Json
  | .json, text => Json.readValue? text
  | .toml, text => (Toml.read? text).map Toml.toJson

theorem read_of_tree {format : DocumentFormat} {text : String} {document : Json} (h : tree? format text = some document) :
    read format text = ofDocument format document := by
  cases format with
  | json =>
    have hread : Json.readValue? text = some document := h
    rw [read, readJson, hread]
  | toml =>
    obtain ⟨toml, hread, rfl⟩ := Option.map_eq_some_iff.mp h
    rw [read, readToml, hread]

theorem nodup_of_readValue? {text : String} (h : Json.readValue? text = some (.obj members)) :
    (members.map Prod.fst).Nodup := by
  obtain ⟨json, -, hvalue⟩ := Option.bind_eq_some_iff.mp h
  rw [value?] at hvalue
  split at hvalue
  · cases json with
    | obj own =>
      cases hvalue
      exact nodup_lastWins _
    | _ => cases hvalue
  · cases hvalue

/-! ### Serialization -/

theorem isPlain_toJson (h : settings.regexSizeLimit < Nat.pow 2 64) : settings.toJson.IsPlain := by
  have hword : IsWord settings.regexSizeLimit := by
    have hcast : ((Nat.pow 2 64 : Nat) : Int) = Int.pow 2 64 := by decide
    have hpos : (0 : Int) ≤ Int.pow 2 63 := by decide
    exact ⟨by omega, by omega⟩
  refine ⟨trivial, trivial, hword, ?_, ?_, trivial, trivial⟩
  · cases settings.defaultNoMatch <;> simp [NoMatchPolicy.toJson, IsPlain, HavePlain]
  · cases settings.selectionPolicy <;> exact trivial

theorem value?_toJson (settings : Settings) : settings.toJson.value? = some settings.toJson := by
  obtain ⟨debug, logLevel, regexSizeLimit, defaultNoMatch, selectionPolicy, missingMarker⟩ := settings
  cases defaultNoMatch <;> cases selectionPolicy <;> rfl

theorem laidOver_toJson (h : settings.regexSizeLimit < Nat.pow 2 64) : LaidOver settings.toJson settings where
  debug := .replaced rfl
  logLevel := .replaced rfl
  regexSizeLimit := .replaced ⟨rfl, h⟩
  defaultNoMatch := .replaced (NoMatchPolicy.ofJson?_eq_some_iff.mp (by cases settings.defaultNoMatch <;> rfl))
  selectionPolicy := .replaced (SelectionPolicy.ofJson?_eq_some_iff.mp (by cases settings.selectionPolicy <;> rfl))
  missingMarker := .replaced rfl

/-- Settings are loaded from what they are written as. -/
theorem readJson_write (h : settings.regexSizeLimit < Nat.pow 2 64) : readJson settings.toJson.write = .ok settings := by
  have hread : tree? .json settings.toJson.write = some settings.toJson := by
    rw [tree?, readValue?, read?_write (isPlain_toJson h), Option.bind_some, value?_toJson]
  exact (read_of_tree hread).trans (ofDocument_eq_ok_iff.mpr (laidOver_toJson h))

end Settings

end PathBinding
