import PathBinding.Proofs.DefaultTexts
import PathBinding.Proofs.Faults
import PathBinding.Proofs.SinglePattern

/-!
Which values can travel through a path. The expression of a kind takes in the canonical text of each truth value and of
each identifier, but of a number only if its digits are few enough for the expression, which leaves out numbers at both ends
of the range of the kind (`Value.fullyMatches_render`). So a mapping with one parameter matches the path with the text of a
value exactly if the value is short, and then the value comes back (`value_travels`).
-/

set_option autoImplicit false
set_option relaxedAutoImplicit false

namespace PathBinding

open Regex Mapping

/-! ### Canonical texts of numbers -/

namespace Numeral

/-- The canonical text of a number is the digits of its size, behind a sign if it is negative. -/
theorem toList_toString (z : Int) :
    (toString z).toList = Nat.toDigits 10 z.natAbs ∨ (toString z).toList = '-' :: Nat.toDigits 10 z.natAbs := by
  cases z with
  | ofNat n => exact .inl (toList_toString_ofNat n)
  | negSucc n => exact .inr (toList_toString_negSucc n)

theorem mem_toString {z : Int} {c : Char} (hc : c ∈ (toString z).toList) : c = '-' ∨ c.isDigit = true := by
  have hdigits {c : Char} (hc : c ∈ Nat.toDigits 10 z.natAbs) : c.isDigit = true :=
    Nat.isDigit_of_mem_toDigits (by decide) (by decide) hc
  rcases toList_toString z with hz | hz
  · exact .inr (hdigits (hz ▸ hc))
  · rw [hz] at hc
    exact (List.mem_cons.mp hc).imp_right hdigits

end Numeral

/-- The canonical text of a number is that of a bounded number of digits exactly if the size of the number is. -/
theorem Kind.isDecimal_toString {length bound : Nat} (hlength : 0 < length) (hbound : bound ≤ 10 ^ length) (z : Int) :
    IsDecimal length bound (toString z).toList ↔ z.natAbs < bound := by
  have hdigits : ∀ c ∈ Nat.toDigits 10 z.natAbs, c.isDigit = true := fun c ↦
    Nat.isDigit_of_mem_toDigits (by decide) (by decide)
  constructor
  · intro hs
    obtain ⟨hread, hlt⟩ := readInt_of_isDecimal (bound + z.natAbs) (bound + z.natAbs) (by omega) (by omega) hs
    rw [Numeral.readInt_toString (by omega) (by omega)] at hread
    rwa [← Except.ok.inj hread] at hlt
  · intro hlt
    refine ⟨Nat.toDigits 10 z.natAbs, Numeral.toList_toString z, Nat.toDigits_ne_nil, hdigits, ?_, ?_⟩
    · exact (Nat.length_toDigits_le_iff (by decide) hlength).mpr (Nat.lt_of_lt_of_le hlt hbound)
    · rwa [Nat.ofDigitChars_ten_toDigits]

/-! ### Values -/

namespace Value

/-- A number is short if it has few enough digits for the expression of its kind. Truth values and identifiers always
are. -/
def IsShort : Value → Prop
  | .integer number => number.toInt.natAbs < 2000000000
  | .long number => number.toInt.natAbs < 9000000000000000000
  | .string _ | .boolean _ | .uuid _ => True

/-- The expression of a kind matches the canonical texts of the short values. -/
theorem fullyMatches_render {value : Value} (hkind : value.kind ≠ .string) : ∃ regex,
    value.kind.defaultRegex? = some regex ∧ (FullyMatches regex value.render.toList ↔ value.IsShort) := by
  cases value with
  | string text => exact absurd rfl hkind
  | integer number =>
    exact ⟨_, rfl, (Kind.fullyMatches_integer _).trans (Kind.isDecimal_toString (by decide) (by decide) _)⟩
  | long number =>
    exact ⟨_, rfl, (Kind.fullyMatches_long _).trans (Kind.isDecimal_toString (by decide) (by decide) _)⟩
  | boolean truth =>
    refine ⟨_, rfl, (Kind.fullyMatches_boolean _).trans (iff_of_true ?_ trivial)⟩
    cases truth with
    | false => exact .inr rfl
    | true => exact .inl rfl
  | uuid id => exact ⟨_, rfl, (Kind.fullyMatches_uuid _).trans (iff_of_true ⟨id, rfl⟩ trivial)⟩

/-- The canonical text of a value that is no string has no question mark in it. -/
theorem question_notMem_render {value : Value} (hkind : value.kind ≠ .string) : '?' ∉ value.render.toList := by
  have hnumber (z : Int) : '?' ∉ (toString z).toList := fun hin ↦
    (Numeral.mem_toString hin).elim (by decide) (by decide)
  cases value with
  | string text => exact absurd rfl hkind
  | integer number => exact hnumber _
  | long number => exact hnumber _
  | boolean truth => cases truth <;> decide
  | uuid id => exact notMem_of_fullyMatches (by decide +kernel) ((Kind.fullyMatches_uuid _).mpr ⟨id, rfl⟩)

end Value

/-! ### The path with the text of a value -/

/-- One parameter of a kind in a path. -/
def carrier (kind : Kind) : Declaration :=
  { owner := "Carrier", parameters := [⟨"v", kind, none, false⟩], patterns := [⟨"x/:v", []⟩] }

/-- The segments of the path. -/
def carrierPath : List Segment :=
  [.literal "/x/", .placeholder "v" none]

theorem isStatic_carrier (kind : Kind) : Fragment.IsStatic (carrier kind) :=
  List.forall_mem_singleton.mpr rfl

/-- The expression for a path with an identifier. -/
def identifierPath : Regex :=
  joined [.group (some "p0") (sequence (characters "/x/".toList ++
    [.group (some "p0_v") (sequence (hexGroups Uuid.groupSizes))] ++ query []))]

/-- The size of the expression does not reduce in the kernel, because it merges ranges of characters. -/
theorem compile?_identifierPath : compile? 10485760 (expressionText (carrier .uuid)) = some identifierPath := by
  have hparse : parse? (expressionText (carrier .uuid)).toList = some identifierPath := by decide +kernel
  have hforwards : identifierPath.programBytes .forwards ≤ 10485760 := by decide_cbv
  have hbackwards : identifierPath.programBytes .backwards ≤ 10485760 := by decide_cbv
  simp [compile?, hparse, hforwards, hbackwards]

theorem carrier_builds {kind : Kind} {default : String} (h : kind.defaultRegex? = some default) :
    ∃ mapping, build (carrier kind) {} = .ok mapping := by
  refine (build_tells (carrier kind) {}).ok_iff.mpr ?_
  have hcompile : compile? 10485760 (expressionText (carrier kind)) ≠ none := by
    cases kind with
    | other name => cases h
    | uuid =>
      rw [compile?_identifierPath]
      exact nofun
    | _ => decide +kernel
  have hexpression : expressionFaults (carrier kind) 10485760 = [] := if_neg fun h ↦ hcompile h.2
  rw [faults, hexpression]
  cases kind with
  | other name => cases h
  | _ => decide +kernel

theorem carrier_declares (kind : Kind) : (carrier kind).Declares 0 ⟨"x/:v", []⟩ carrierPath [] :=
  ⟨rfl, rfl, rfl⟩

theorem carrier_pathRegex {kind : Kind} {regex : String} (h : kind.defaultRegex? = some regex) :
    ∀ p ∈ Segment.placeholdersAll carrierPath, (carrier kind).pathRegex p.1 p.2 = regex := by
  refine List.forall_mem_singleton.mpr ?_
  change (kind.defaultRegex?).getD "" = regex
  rw [h]
  rfl

theorem expandsAll_carrierPath {fits : String → Option String → List Char → Prop} (e : List Char) :
    Segment.ExpandsAll fits carrierPath e ↔ ∃ w, e = "/x/".toList ++ w ∧ fits "v" none w := by
  constructor
  · rintro ⟨_, _, rfl, rfl, w, _, rfl, hw, rfl⟩
    exact ⟨w, by rw [List.append_nil]; rfl, hw⟩
  · rintro ⟨w, rfl, hw⟩
    exact ⟨_, _, rfl, rfl, w, [], (List.append_nil w).symm, hw, rfl⟩

/-- Whether a value can travel through a path depends on how many digits it has. The expression of its kind matches the
canonical text of a value that is no string if and only if the value is short. The mapping with one parameter of the kind
builds, and it matches the path with the text of the value if and only if the value is short; then the parameter has the
value behind the match, in any view that accepts it. -/
theorem value_travels {value : Value} (hkind : value.kind ≠ .string) :
    (∃ regex, value.kind.defaultRegex? = some regex ∧ (FullyMatches regex value.render.toList ↔ value.IsShort)) ∧
    (∃ mapping, build (carrier value.kind) {} = .ok mapping) ∧
    ∀ (settings : Settings) (mapping : Mapping), build (carrier value.kind) settings = .ok mapping →
      ∃ text regex, mapping.source = .static text regex ∧
        ((mapping.select regex ("x/" ++ value.render)).winner.isSome ↔ value.IsShort) ∧
        (value.IsShort → ∀ (registry : Registry) (key : TypeKey) (declaration : Declaration) (view : View),
          (registry.mapping key declaration).result = .ok mapping → (∀ d ∈ mapping.parameters, view.type.Accepts d) →
          let found := registry.matchPath key declaration view ("x/" ++ value.render)
          found.2.result = .ok (.matched "x/:v") ∧ found.1.get "v" = some value) := by
  obtain ⟨default, hdefault, hmatches⟩ := Value.fullyMatches_render hkind
  refine ⟨⟨default, hdefault, hmatches⟩, carrier_builds hdefault, fun settings mapping hbuild ↦ ?_⟩
  obtain ⟨text, regex, hstatic⟩ := static_of_isGapless (isStatic_carrier value.kind).isGapless hbuild
  have hplain : Fragment.IsPlainPath carrierPath := by
    unfold Fragment.IsPlainPath
    decide +kernel
  have hregex := carrier_pathRegex hdefault
  have hpath : ∀ p ∈ Segment.placeholdersAll carrierPath, ∃ body,
      held? ((carrier value.kind).pathRegex p.1 p.2) = some body ∧ body.lookFree = true := by
    intro p hp
    rw [hregex p hp]
    exact Kind.lookFree_default hdefault
  -- The path in its normal form is an expansion of the pattern for the text of the value only.
  have hmark : '?' ∉ "/x/".toList ++ value.render.toList :=
    List.not_mem_append (by decide) (Value.question_notMem_render hkind)
  have hnormal : (normalizePath ("x/" ++ value.render)).toList = "/x/".toList ++ value.render.toList ++ ['?', '&'] := by
    have hpath : "x/" ++ value.render = .ofList ("x/".toList ++ value.render.toList) := by
      rw [← String.toList_append, String.ofList_toList]
    have hslash : "/x/".toList ++ value.render.toList = '/' :: 'x' :: '/' :: value.render.toList := rfl
    rw [hpath]
    exact normalizePath_rendered hslash (by simp) hmark (.inr rfl)
  have hexpands : Segment.ExpandsAll (fun name inline? ↦ FullyMatches ((carrier value.kind).pathRegex name inline?))
      carrierPath ("/x/".toList ++ value.render.toList) ↔ value.IsShort := by
    have hone := hregex ("v", none) List.mem_cons_self
    rw [expandsAll_carrierPath, ← hmatches, ← hone]
    constructor
    · rintro ⟨w, hw, hmatch⟩
      rwa [List.append_cancel_left hw]
    · exact fun hmatch ↦ ⟨_, rfl, hmatch⟩
  refine ⟨text, regex, hstatic, ?_, fun hshort registry key declaration view hmapping haccepts ↦ ?_⟩
  · rw [winner_iff_expansion hbuild hstatic rfl (carrier_declares _) hplain hpath, ← hexpands]
    constructor
    · rintro ⟨e, q, he, hexpansion⟩
      rwa [eq_of_one_mark hmark (by decide) (hnormal.symm.trans he)]
    · exact fun hexpansion ↦ ⟨_, ['&'], hnormal, hexpansion⟩
  · obtain ⟨definition, captured, hselect, hraw, -, hfills⟩ := fills_of_expands hbuild hstatic rfl
      (carrier_declares _) hplain hpath (fun _ _ _ ↦ True) (fun _ _ _ _ ↦ trivial) hnormal hmark (hexpands.mpr hshort)
    have hcaptured : captured.lookup "v" = some value.render := by
      obtain ⟨_, _, hsplit, rfl, w, _, rfl, ⟨hw, -⟩, rfl⟩ := hfills
      rw [List.append_nil] at hsplit
      obtain rfl : value.render.toList = w := List.append_cancel_left hsplit
      obtain ⟨word, hword, hsame⟩ := Option.map_eq_some_iff.mp hw
      rw [hword, String.toList_inj.mp hsame]
    have hread : ∀ d ∈ mapping.parameters, d = ⟨"v", value.kind, none, false⟩ := by
      rw [parameters_of_build hbuild]
      exact List.forall_mem_singleton.mpr rfl
    obtain ⟨hmatched, hleft⟩ := Registry.matchPath_of_select hbuild hstatic hmapping haccepts hselect fun d hd word hword ↦ by
      rw [hread d hd] at hword ⊢
      cases hcaptured.symm.trans hword
      exact ⟨value, value.read_render⟩
    rw [hraw] at hmatched
    refine ⟨hmatched, ?_⟩
    have hmem : (⟨"v", value.kind, none, false⟩ : Descriptor) ∈ mapping.parameters := by
      rw [parameters_of_build hbuild]
      exact List.mem_cons_self
    refine (hleft _ hmem).trans ?_
    rw [hcaptured, Option.bind_some, value.read_render]
    rfl

/-- The least number that is short comes back. -/
theorem value_travels_back :
    let found := Registry.matchPath { settings := {} } (.declared 0) (carrier .long) ⟨⟨.anyExcept [], false⟩, [], none⟩
      ("x/" ++ (Value.long (-8999999999999999999)).render)
    found.2.result = .ok (.matched "x/:v") ∧ found.1.get "v" = some (.long (-8999999999999999999)) := by
  have hkind : (Value.long (-8999999999999999999)).kind ≠ .string := nofun
  obtain ⟨-, ⟨mapping, hbuild⟩, htravels⟩ := value_travels hkind
  obtain ⟨text, regex, -, -, hfound⟩ := htravels {} mapping hbuild
  have hshort : (Value.long (-8999999999999999999)).IsShort := by
    rw [Value.IsShort]
    decide +kernel
  have hmapping : (Registry.mapping { settings := {} } (.declared 0) (carrier .long)).result = .ok mapping := by
    have hnone : Registry.mapping? { settings := {} } (.declared 0) = none := rfl
    change build (carrier .long) (Registry.settings { settings := {} }) = .ok mapping at hbuild
    rw [Registry.mapping_of_build hnone hbuild]
  exact hfound hshort { settings := {} } (.declared 0) (carrier .long) ⟨⟨.anyExcept [], false⟩, [], none⟩ hmapping
    fun d _ ↦ ViewType.accepts_of_anyExcept rfl List.not_mem_nil

/-- The greatest numbers of both sizes do not travel. -/
theorem extreme_values_stay :
    (∃ regex, Kind.integer.defaultRegex? = some regex ∧ ¬FullyMatches regex (Value.integer 2147483647).render.toList) ∧
    (∃ regex, Kind.long.defaultRegex? = some regex ∧
      ¬FullyMatches regex (Value.long 9223372036854775807).render.toList) ∧
    (∃ found, staticBuild? (carrier .integer) {} = some found ∧
      (found.1.select found.2 ("x/" ++ (Value.integer 2147483647).render)).winner = none) ∧
    ∃ found, staticBuild? (carrier .long) {} = some found ∧
      (found.1.select found.2 ("x/" ++ (Value.long 9223372036854775807).render)).winner = none := by
  have hstays (kind : Kind) (path : String) (h : (staticBuild? (carrier kind) {}).any fun found ↦
      decide ((found.1.select found.2 path).winner = none)) :
      ∃ found, staticBuild? (carrier kind) {} = some found ∧ (found.1.select found.2 path).winner = none := by
    obtain ⟨found, hfound, hnone⟩ := (Option.any_eq_true _ _).mp h
    exact ⟨found, hfound, of_decide_eq_true hnone⟩
  refine ⟨⟨_, rfl, ?_⟩, ⟨_, rfl, ?_⟩, hstays _ _ ?_, hstays _ _ ?_⟩
  all_goals decide +kernel

end PathBinding
