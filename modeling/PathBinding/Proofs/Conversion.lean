import PathBinding.Proofs.Match
import PathBinding.Proofs.Value

/-!
Conversion of text to values. The canonical text of a value is converted to the value again (`Value.parse_render`). The
text of an identifier may be written in other ways as well: with digits in either case, without its hyphens, in braces,
or as a resource name (`Uuid.OtherForm`). Each such text is converted to the identifier whose digits it has, and any other
text makes a match fail that has captured it for an identifier, before anything is written (`Kind.parse_identifier`).
-/

set_option autoImplicit false
set_option relaxedAutoImplicit false

namespace PathBinding

namespace Uuid

/-! ### Hexadecimal digits -/

/-- Hexadecimal digits in either case. -/
def IsHexDigit (c : Char) : Prop :=
  c.isDigit = true ∨ ('a' ≤ c ∧ c ≤ 'f') ∨ ('A' ≤ c ∧ c ≤ 'F')

instance : DecidablePred IsHexDigit :=
  fun _ ↦ inferInstanceAs (Decidable (_ ∨ _))

theorem isSome_hexValue? (c : Char) : (hexValue? c).isSome ↔ IsHexDigit c := by
  unfold hexValue? IsHexDigit
  split_ifs with hdigit hlower hupper <;> simp_all

theorem lt_of_isHexDigit {c : Char} (h : IsHexDigit c) : c.toNat < 128 := by
  have hlt {last : Char} (hlast : last.toNat < 128) (hle : c ≤ last) : c.toNat < 128 := Nat.lt_of_le_of_lt hle hlast
  rcases h with hdigit | ⟨-, hle⟩ | ⟨-, hle⟩
  · exact hlt (by decide) (of_decide_eq_true (Bool.and_eq_true_iff.mp hdigit).2 : c ≤ '9')
  · exact hlt (by decide) hle
  · exact hlt (by decide) hle

theorem hexValue?_ascii : ∀ (n : Fin 128) (d : Fin 16),
    hexValue? (Char.ofNat n) = some d ↔ (Char.ofNat n).toLower = hexChar d := by
  decide +kernel

/-- A character has the value of a digit if it is the digit in lower case. -/
theorem hexValue?_eq_some_iff {c : Char} {d : Fin 16} : hexValue? c = some d ↔ c.toLower = hexChar d := by
  by_cases hc : c.toNat < 128
  · have hascii := hexValue?_ascii ⟨c.toNat, hc⟩ d
    rwa [Char.ofNat_toNat] at hascii
  · -- Beyond ASCII there are no digits, and lowering changes nothing.
    have hnone : hexValue? c = none := by
      rw [← Option.not_isSome_iff_eq_none, isSome_hexValue?]
      exact mt lt_of_isHexDigit hc
    have hlower : c.toLower = c := by
      unfold Char.toLower
      refine dif_neg fun h ↦ ?_
      have hle : c.toNat ≤ 90 := h.2
      omega
    rw [hnone, hlower]
    refine iff_of_false nofun ?_
    rintro rfl
    exact hc (by decide +revert)

/-! ### Digits of identifiers -/

/-- The text consists of the digits of an identifier, each in either case. -/
def HasDigits (id : Uuid) (digits : List Char) : Prop :=
  digits.map Char.toLower = id.digits.map hexChar

theorem HasDigits.length_eq {id : Uuid} {digits : List Char} (h : id.HasDigits digits) : digits.length = 32 := by
  have hlength := congrArg List.length h
  rwa [List.length_map, List.length_map, id.length_digits] at hlength

theorem mapM_hexValue?_eq_some_iff {digits : List Char} {values : List (Fin 16)} :
    digits.mapM hexValue? = some values ↔ digits.map Char.toLower = values.map hexChar := by
  induction digits generalizing values with
  | nil => cases values <;> simp
  | cons c digits ih =>
    rw [List.mapM_cons, List.map_cons]
    constructor
    · intro h
      obtain ⟨d, hd, h⟩ := Option.bind_eq_some_iff.mp h
      obtain ⟨others, hothers, h⟩ := Option.bind_eq_some_iff.mp h
      cases h
      rw [List.map_cons, hexValue?_eq_some_iff.mp hd, ih.mp hothers]
    · cases values with
      | nil => exact nofun
      | cons d others =>
        intro h
        obtain ⟨hd, hothers⟩ := List.cons.inj h
        rw [hexValue?_eq_some_iff.mpr hd, ih.mpr hothers]
        rfl

theorem ofDigits?_eq_some_iff {text : List Char} {id : Uuid} : ofDigits? text = some id ↔ id.HasDigits text := by
  rw [HasDigits, ← mapM_hexValue?_eq_some_iff, ofDigits?]
  constructor
  · intro h
    obtain ⟨digits, hdigits, h⟩ := Option.bind_eq_some_iff.mp h
    obtain ⟨_, h⟩ := Option.dite_none_right_eq_some.mp h
    cases h
    exact hdigits
  · intro h
    rw [h]
    exact dif_pos id.length_digits

/-! ### Groups of digits -/

/-- Groups of hexadecimal digits of the given sizes with hyphens between them. -/
def AreGroups : List Nat → List Char → Prop
  | [], text => text = []
  | [size], text => text.length = size ∧ ∀ c ∈ text, IsHexDigit c
  | size :: sizes, text => ∃ first rest, text = first ++ '-' :: rest ∧ first.length = size ∧
    (∀ c ∈ first, IsHexDigit c) ∧ AreGroups sizes rest

theorem group_append {size : Nat} {sizes : List Nat} (hne : sizes ≠ []) {first : List Char} (h : first.length = size)
    (rest : List Char) : group (size :: sizes) (first ++ rest) = first ++ '-' :: group sizes rest := by
  rw [group, List.take_left' h, List.drop_left' h]
  exact hne

/-- Texts in groups are the digits that have been grouped. -/
theorem areGroups_iff {sizes : List Nat} (hne : sizes ≠ []) {text : List Char} : AreGroups sizes text ↔
    ∃ digits, digits.length = sizes.foldr (· + ·) 0 ∧ (∀ c ∈ digits, IsHexDigit c) ∧ text = group sizes digits := by
  induction sizes, text using AreGroups.induct with
  | case1 text => exact absurd rfl hne
  | case2 size text =>
    rw [AreGroups, List.foldr_cons, List.foldr_nil, Nat.add_zero]
    constructor
    · rintro ⟨hlength, hdigits⟩
      exact ⟨text, hlength, hdigits, rfl⟩
    · rintro ⟨digits, hlength, hdigits, rfl⟩
      exact ⟨hlength, hdigits⟩
  | case3 size sizes text hsizes ih =>
    have hne : sizes ≠ [] := fun h ↦ hsizes h
    rw [AreGroups, List.foldr_cons]
    · constructor
      · rintro ⟨first, rest, rfl, hlength, hfirst, hrest⟩
        obtain ⟨digits, hsum, hdigits, rfl⟩ := (ih rest hne).mp hrest
        exact ⟨first ++ digits, by rw [List.length_append, hlength, hsum], List.forall_mem_append.mpr ⟨hfirst, hdigits⟩,
          (group_append hne hlength digits).symm⟩
      · rintro ⟨digits, hsum, hdigits, rfl⟩
        have hlength : (digits.take size).length = size := List.length_take_of_le (by omega)
        have hrest : (digits.drop size).length = sizes.foldr (· + ·) 0 := by
          rw [List.length_drop]
          omega
        refine ⟨digits.take size, group sizes (digits.drop size), ?_, hlength,
          fun c hc ↦ hdigits c (List.mem_of_mem_take hc), (ih _ hne).mpr ⟨_, hrest,
            fun c hc ↦ hdigits c (List.mem_of_mem_drop hc), rfl⟩⟩
        rw [← group_append hne hlength, List.take_append_drop]
    · exact hsizes

/-- Thirty-two hexadecimal digits are those of an identifier. -/
theorem exists_hasDigits_iff {digits : List Char} : (∃ id : Uuid, id.HasDigits digits) ↔ AreGroups [32] digits := by
  constructor
  · rintro ⟨id, h⟩
    refine ⟨h.length_eq, fun c hc ↦ ?_⟩
    have hlower : c.toLower ∈ id.digits.map hexChar := h ▸ List.mem_map_of_mem hc
    obtain ⟨d, -, hd⟩ := List.mem_map.mp hlower
    rw [← isSome_hexValue?, hexValue?_eq_some_iff.mpr hd.symm]
    rfl
  · rintro ⟨hlength, hdigits⟩
    refine ⟨⟨digits.map fun c ↦ (hexValue? c).getD 0, by rwa [List.length_map]⟩, ?_⟩
    rw [HasDigits, List.map_map]
    refine List.map_congr_left fun c hc ↦ ?_
    obtain ⟨d, hd⟩ := Option.isSome_iff_exists.mp ((isSome_hexValue? c).mpr (hdigits c hc))
    rw [Function.comp_apply, hd]
    exact hexValue?_eq_some_iff.mp hd

/-- What comes apart into groups has been put together from them. -/
theorem eq_group_of_ungroup? {sizes : List Nat} {text digits : List Char} (h : ungroup? sizes text = some digits) :
    text = group sizes digits := by
  induction sizes, text using ungroup?.induct generalizing digits with
  | case1 text => exact Option.some.inj h
  | case2 size text => exact Option.some.inj h
  | case3 size sizes text hsizes rest hdrop ih =>
    rw [ungroup?, hdrop] at h
    · obtain ⟨others, hothers, rfl⟩ := Option.map_eq_some_iff.mp h
      have hlength : (text.take size).length = size := by
        refine List.length_take_of_le (Nat.le_of_lt (Nat.lt_of_not_le fun hle ↦ ?_))
        rw [List.drop_of_length_le hle] at hdrop
        cases hdrop
      rw [group_append (fun h ↦ hsizes h) hlength, ← ih hothers, ← hdrop, List.take_append_drop]
    · exact hsizes
  | case4 size sizes text hsizes hdrop =>
    rw [ungroup?] at h
    · split at h
      · next rest heq => exact (hdrop rest heq).elim
      · cases h
    · exact hsizes

theorem HasDigits.length_group {id : Uuid} {digits : List Char} (h : id.HasDigits digits) :
    (group groupSizes digits).length = 36 := by
  rw [groupSizes, Uuid.length_group, h.length_eq]
  rfl

theorem ofGroups?_eq_some_iff {text : List Char} {id : Uuid} :
    ofGroups? text = some id ↔ ∃ digits, id.HasDigits digits ∧ text = group groupSizes digits := by
  unfold ofGroups?
  constructor
  · intro h
    obtain ⟨-, h⟩ := Option.ite_none_right_eq_some.mp h
    obtain ⟨digits, hdigits, h⟩ := Option.bind_eq_some_iff.mp h
    exact ⟨digits, ofDigits?_eq_some_iff.mp h, eq_group_of_ungroup? hdigits⟩
  · rintro ⟨digits, hdigits, rfl⟩
    have hungroup : ungroup? groupSizes (group groupSizes digits) = some digits := by
      refine ungroup?_group _ _ ?_
      rw [hdigits.length_eq]
      decide
    rw [if_pos hdigits.length_group, hungroup, Option.bind_some, ofDigits?_eq_some_iff.mpr hdigits]

/-! ### Other forms -/

/-- The forms besides the groups: the digits alone, and the groups between braces or behind the scheme of a resource
name. -/
inductive OtherForm (digits : List Char) : List Char → Prop
  | bare : OtherForm digits digits
  | braced : OtherForm digits ('\x7b' :: (group groupSizes digits ++ ['\x7d']))
  | resource {scheme : List Char} (hscheme : scheme.map Char.toLower = urnScheme) :
    OtherForm digits (scheme ++ group groupSizes digits)

/-- A text of two or more characters is its ends and what stands between them. -/
theorem eq_between {text : List Char} {first last : Char} (hfirst : text.head? = some first)
    (hlast : text.getLast? = some last) (hlength : 1 < text.length) :
    text = first :: ((text.drop 1).dropLast ++ [last]) := by
  obtain ⟨rest, rfl⟩ := List.head?_eq_some_iff.mp hfirst
  have hne : rest ≠ [] := List.ne_nil_of_length_pos (Nat.lt_of_succ_lt_succ hlength)
  rw [List.getLast?_cons_of_ne_nil hne] at hlast
  rw [List.drop_one, List.tail_cons, List.dropLast_append_getLast? last hlast]

/-- A text is read as an identifier exactly if it is the digits of the identifier in groups or in another form. -/
theorem read?_eq_some_iff {text : List Char} {id : Uuid} : read? text = some id ↔
    ∃ digits, id.HasDigits digits ∧ (text = group groupSizes digits ∨ OtherForm digits text) := by
  constructor
  · intro h
    unfold read? at h
    split_ifs at h with hbare hhyphenated hbraced hends hresource
    · exact ⟨text, ofDigits?_eq_some_iff.mp h, .inr .bare⟩
    · obtain ⟨digits, hdigits, rfl⟩ := ofGroups?_eq_some_iff.mp h
      exact ⟨digits, hdigits, .inl rfl⟩
    · obtain ⟨digits, hdigits, hinner⟩ := ofGroups?_eq_some_iff.mp h
      refine ⟨digits, hdigits, ?_⟩
      rw [eq_between hends.1 hends.2 (by omega), hinner]
      exact .inr .braced
    · obtain ⟨digits, hdigits, hrest⟩ := ofGroups?_eq_some_iff.mp h
      refine ⟨digits, hdigits, ?_⟩
      rw [← List.take_append_drop 9 text, hrest]
      exact .inr (.resource hresource.2)
  · rintro ⟨digits, hdigits, hform⟩
    have hgroups : ofGroups? (group groupSizes digits) = some id := ofGroups?_eq_some_iff.mpr ⟨digits, hdigits, rfl⟩
    have hlength := hdigits.length_group
    -- The forms are of different lengths, so each text is tried as what it is.
    unfold read?
    rcases hform with rfl | hother
    · rw [hlength, if_neg (by decide), if_pos rfl, hgroups]
    cases hother with
    | bare => rw [if_pos hdigits.length_eq, ofDigits?_eq_some_iff.mpr hdigits]
    | braced =>
      have hbraced : ('\x7b' :: (group groupSizes digits ++ ['\x7d'])).length = 38 := by
        rw [List.length_cons, List.length_append, hlength]
        rfl
      have hends : ('\x7b' :: (group groupSizes digits ++ ['\x7d'])).getLast? = some '\x7d' := by
        rw [← List.cons_append, List.getLast?_concat]
      rw [hbraced, if_neg (by decide), if_neg (by decide), if_pos rfl, if_pos ⟨rfl, hends⟩, List.drop_one, List.tail_cons,
        List.dropLast_concat, hgroups]
    | @resource scheme hscheme =>
      have hnine : scheme.length = 9 := by
        rw [← List.length_map Char.toLower, hscheme]
        rfl
      have hresource : (scheme ++ group groupSizes digits).length = 45 := by
        rw [List.length_append, hlength, hnine]
      rw [hresource, if_neg (by decide), if_neg (by decide), if_neg (by decide), List.take_left' hnine,
        if_pos ⟨rfl, hscheme⟩, List.drop_left' hnine, hgroups]

/-- A text is read as some identifier exactly if it is hexadecimal digits in groups or in another form. -/
theorem exists_read?_iff {text : List Char} : (∃ id, read? text = some id) ↔
    AreGroups groupSizes text ∨ ∃ digits, AreGroups [32] digits ∧ OtherForm digits text := by
  have hgroups : AreGroups groupSizes text ↔ ∃ digits, AreGroups [32] digits ∧ text = group groupSizes digits := by
    rw [areGroups_iff (by decide)]
    exact exists_congr fun digits ↦ and_assoc.symm
  simp only [read?_eq_some_iff, hgroups, ← exists_hasDigits_iff]
  constructor
  · rintro ⟨id, digits, hdigits, hform | hform⟩
    · exact .inl ⟨digits, ⟨id, hdigits⟩, hform⟩
    · exact .inr ⟨digits, ⟨id, hdigits⟩, hform⟩
  · rintro (⟨digits, ⟨id, hdigits⟩, hform⟩ | ⟨digits, ⟨id, hdigits⟩, hform⟩)
    · exact ⟨id, digits, hdigits, .inl hform⟩
    · exact ⟨id, digits, hdigits, .inr hform⟩

/-! ### Canonical texts -/

theorem mem_group {sizes : List Nat} {digits : List Char} {c : Char} (h : c ∈ group sizes digits) :
    c = '-' ∨ c ∈ digits := by
  induction sizes, digits using group.induct with
  | case1 digits => exact .inr h
  | case2 digits size => exact .inr h
  | case3 size sizes digits hsizes ih =>
    rw [group] at h
    · rcases List.mem_append.mp h with h | h
      · exact .inr (List.mem_of_mem_take h)
      · rcases List.mem_cons.mp h with h | h
        · exact .inl h
        · exact (ih h).imp_right List.mem_of_mem_drop
    · exact hsizes

theorem toLower_hexChar : ∀ d, (hexChar d).toLower = hexChar d := by
  decide

theorem hasDigits_hexChar (id : Uuid) : id.HasDigits (id.digits.map hexChar) := by
  rw [HasDigits, List.map_map]
  exact List.map_congr_left fun d _ ↦ toLower_hexChar d

/-- The canonical text of an identifier is its groups in lower case. -/
theorem areGroups_hyphenated (id : Uuid) :
    AreGroups groupSizes id.hyphenated.toList ∧ ∀ c ∈ id.hyphenated.toList, c.toLower = c := by
  rw [hyphenated, String.toList_ofList]
  constructor
  · obtain ⟨hlength, hdigits⟩ := exists_hasDigits_iff.mp ⟨id, id.hasDigits_hexChar⟩
    exact (areGroups_iff (by decide)).mpr ⟨_, hlength, hdigits, rfl⟩
  · intro c hc
    rcases mem_group hc with rfl | hc
    · rfl
    · obtain ⟨d, -, rfl⟩ := List.mem_map.mp hc
      exact toLower_hexChar d

end Uuid

theorem Kind.parse_eq_ok_iff {kind : Kind} {parameter raw : String} {value : Value} :
    kind.parse parameter raw = .ok value ↔ kind.read raw = .ok value := by
  rw [Kind.parse]
  cases kind.read raw <;> simp

theorem Kind.parse_of_fault {kind : Kind} {raw : String} {fault : CoercionFault} (h : kind.read raw = .error fault)
    (parameter : String) : kind.parse parameter raw = .error (.coercion parameter raw fault) := by
  rw [Kind.parse, h]

/-- The canonical text of a value is converted to the value, whatever parameter it is given to. For an identifier this text
is its groups in lower case. -/
theorem Value.parse_render (value : Value) (parameter : String) :
    value.kind.parse parameter value.render = .ok value ∧
    ∀ id, value = .uuid id → Uuid.AreGroups Uuid.groupSizes value.render.toList ∧
      ∀ c ∈ value.render.toList, c.toLower = c := by
  refine ⟨?_, ?_⟩
  · exact Kind.parse_eq_ok_iff.mpr value.read_render
  · rintro id rfl
    exact id.areGroups_hyphenated

/-! ### Text that cannot be converted -/

theorem Kind.read_uuid (raw : String) : Kind.uuid.read raw = match Uuid.read? raw.toList with
    | some id => .ok (.uuid id)
    | none => .error .notUuid :=
  rfl

namespace Mapping

variable {mapping : Mapping} {regex : Regex}

/-- A selection that has captured a text which its parameter cannot take is not written at all. -/
theorem apply_of_unread {path name raw : String} (hcaptured : (name, raw) ∈ (mapping.select regex path).captured)
    {descriptor : Descriptor} (hfind : mapping.find? name = some descriptor) {fault : CoercionFault}
    (hread : descriptor.kind.read raw = .error fault) (view : View) :
    ∃ own text cause, mapping.apply (mapping.select regex path) view =
      ⟨view, [.unconverted mapping.owner own text], .error (.coercion own text cause)⟩ := by
  cases hconvert : mapping.convert (mapping.select regex path).captured with
  | ok values =>
    obtain ⟨value, hvalue⟩ := convert_eq_ok_iff.mp ⟨values, hconvert⟩ _ hcaptured descriptor hfind
    cases hread.symm.trans hvalue
  | error stop =>
    obtain ⟨own, text, e⟩ := stop
    obtain ⟨cause, rfl⟩ := coercion_of_convert hconvert
    refine ⟨own, text, cause, ?_⟩
    rcases select_eq mapping regex path with hmiss | ⟨definition, -, t, hselect⟩
    · rw [hmiss] at hcaptured
      cases hcaptured
    · rw [hselect] at hconvert ⊢
      rw [apply, applyWith]
      dsimp only
      rw [hconvert]

end Mapping

theorem Registry.worksWith_of_static {registry : Registry} {key : TypeKey} {declaration : Declaration} {mapping : Mapping}
    {text : String} {regex : Regex} (hmapping : (registry.mapping key declaration).result = .ok mapping)
    (hstatic : mapping.source = .static text regex) (view : View) :
    registry.WorksWith key declaration view mapping regex :=
  ⟨hmapping, _, Mapping.assemble?_of_static hstatic _ view, rfl⟩

/-- Which texts are converted to identifiers. Those are hexadecimal digits in groups, and besides them three other forms:
the digits alone, and the groups between braces or behind the scheme of a resource name. Each is converted to the
identifier with its digits. Every other text is an error of conversion, and a match that has captured it for an identifier
leaves the view as it was. -/
theorem Kind.parse_identifier (parameter raw : String) :
    let text := raw.toList
    let converts := ∃ value, Kind.uuid.parse parameter raw = .ok value
    (converts ↔ Uuid.AreGroups Uuid.groupSizes text ∨
      ∃ digits, Uuid.AreGroups [32] digits ∧ Uuid.OtherForm digits text) ∧
    (∀ id, Kind.uuid.parse parameter raw = .ok (.uuid id) ↔
      ∃ digits, id.HasDigits digits ∧ (text = Uuid.group Uuid.groupSizes digits ∨ Uuid.OtherForm digits text)) ∧
    (¬converts → Kind.uuid.parse parameter raw = .error (.coercion parameter raw .notUuid) ∧
      ∀ (registry : Registry) (key : TypeKey) (declaration : Declaration) (view : View) (mapping : Mapping) (regex : Regex)
        (path : String) (descriptor : Descriptor), registry.WorksWith key declaration view mapping regex →
        mapping.find? parameter = some descriptor → descriptor.kind = .uuid →
        (parameter, raw) ∈ (mapping.select regex path).captured →
        let found := registry.matchPath key declaration view path
        found.1 = view ∧ ∃ name own fault, found.2.result = .error (.coercion name own fault)) := by
  intro text converts
  have hok (id : Uuid) : Kind.uuid.parse parameter raw = .ok (.uuid id) ↔ Uuid.read? text = some id := by
    rw [Kind.parse_eq_ok_iff, Kind.read_uuid]
    cases Uuid.read? raw.toList <;> simp
  have hconverts : converts ↔ ∃ id, Uuid.read? text = some id := by
    constructor
    · rintro ⟨value, hvalue⟩
      have hkind := Kind.kind_of_read (Kind.parse_eq_ok_iff.mp hvalue)
      cases value with
      | uuid id => exact ⟨id, (hok id).mp hvalue⟩
      | _ => cases hkind
    · rintro ⟨id, hid⟩
      exact ⟨.uuid id, (hok id).mpr hid⟩
  refine ⟨hconverts.trans Uuid.exists_read?_iff, fun id ↦ (hok id).trans Uuid.read?_eq_some_iff, fun hfails ↦ ?_⟩
  have hread : Kind.uuid.read raw = .error .notUuid := by
    rw [Kind.read_uuid]
    cases hid : Uuid.read? raw.toList with
    | none => rfl
    | some id => exact absurd (hconverts.mpr ⟨id, hid⟩) hfails
  refine ⟨Kind.parse_of_fault hread parameter, ?_⟩
  intro registry key declaration view mapping regex path descriptor hworks hfind hkind hcaptured
  obtain ⟨name, own, fault, happly⟩ := Mapping.apply_of_unread hcaptured hfind (hkind ▸ hread) view
  obtain ⟨hview, hresult⟩ := hworks.matchPath path
  rw [happly] at hview hresult
  exact ⟨hview, name, own, fault, hresult⟩

/-- Orders by their identifiers, with any text in the place of one. -/
def orders : Declaration where
  owner := "Orders"
  parameters := [{ name := "order", kind := .uuid, regex := some "[^/]+" }]
  patterns := [{ pattern := "order/:order" }]

/-- The digits alone are converted, too. The number of an order is not, and the view of another order stays as it is. -/
theorem Kind.parse_identifier_orders :
    (∃ value, Kind.uuid.parse "order" "123e4567e89b12d3a456426655440000" = .ok value) ∧
    ¬Uuid.AreGroups Uuid.groupSizes "123e4567e89b12d3a456426655440000".toList ∧
    let view : View := ⟨⟨.anyExcept [], true⟩, [("order", .uuid ⟨.replicate 32 0, rfl⟩)], some "order/:order"⟩
    let found := Registry.matchPath { settings := {} } (.declared 0) orders view "order/17"
    found.1 = view ∧ ∃ name own fault, found.2.result = .error (.coercion name own fault) := by
  have hall : "123e4567e89b12d3a456426655440000".toList.all fun c ↦ decide (Uuid.IsHexDigit c) := by decide +kernel
  have hdigits : Uuid.AreGroups [32] "123e4567e89b12d3a456426655440000".toList :=
    ⟨by decide +kernel, fun c hc ↦ of_decide_eq_true (List.all_eq_true.mp hall c hc)⟩
  refine ⟨(Kind.parse_identifier "order" _).1.mpr (.inr ⟨_, hdigits, .bare⟩), ?_, ?_⟩
  · intro hgroups
    obtain ⟨digits, hlength, -, hgroup⟩ := (Uuid.areGroups_iff (by decide)).mp hgroups
    have hlengths := congrArg List.length hgroup
    rw [Uuid.groupSizes, Uuid.length_group, hlength] at hlengths
    exact absurd hlengths (by decide +kernel)
  intro view
  have hselect : (Mapping.staticBuild? orders {}).any fun found ↦
      decide ((found.1.select found.2 "order/17").captured = [("order", "17")]) := by
    decide +kernel
  obtain ⟨⟨mapping, regex⟩, hfound, hselect⟩ := (Option.any_eq_true _ _).mp hselect
  obtain ⟨text, hbuild, hstatic⟩ := Mapping.staticBuild?_eq_some hfound
  dsimp only at hselect hbuild hstatic
  have hcaptured : ("order", "17") ∈ (mapping.select regex "order/17").captured := by
    rw [of_decide_eq_true hselect]
    exact List.mem_cons_self
  have hfind : mapping.find? "order" = some { name := "order", kind := .uuid, regex := some "[^/]+" } := by
    rw [Mapping.find?, Mapping.parameters_of_build hbuild]
    rfl
  have hmapping : (Registry.mapping { settings := {} } (.declared 0) orders).result = .ok mapping := by
    have hnone : Registry.mapping? { settings := {} } (.declared 0) = none := rfl
    change Mapping.build orders (Registry.settings { settings := {} }) = .ok mapping at hbuild
    rw [Registry.mapping_of_build hnone hbuild]
  have hworks := Registry.worksWith_of_static hmapping hstatic view
  have hfails : ¬∃ value, Kind.uuid.parse "order" "17" = .ok value := by
    rintro ⟨value, hvalue⟩
    have hread : Kind.uuid.parse "order" "17" = .error (.coercion "order" "17" .notUuid) := by decide +kernel
    cases hread.symm.trans hvalue
  exact ((Kind.parse_identifier "order" "17").2.2 hfails).2 _ _ _ view _ _ _ _ hworks hfind rfl hcaptured

end PathBinding
