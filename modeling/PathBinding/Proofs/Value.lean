import PathBinding.Proofs.Numeral
import PathBinding.Value

/-!
Values and their texts. The canonical text of a value is read as the value again by the kind of the value
(`Value.read_render`): numbers of both sizes lie within the bounds that reading keeps to, and the groups of an identifier
come apart where they have been put together.
-/

set_option autoImplicit false
set_option relaxedAutoImplicit false

namespace PathBinding

/-! ### Numbers -/

namespace Numeral

theorem readInt32_toString (number : Int32) : readInt32 (toString number.toInt).toList = .ok number := by
  have hbelow : -((Nat.pow 2 31 : Nat) : Int) ≤ number.toInt := number.le_toInt
  have habove : number.toInt ≤ ((Nat.pow 2 31 - 1 : Nat) : Int) := number.toInt_le
  rw [readInt32, readInt_toString hbelow habove]
  exact congrArg Except.ok (Int32.ofInt_toInt number)

theorem readInt64_toString (number : Int64) : readInt64 (toString number.toInt).toList = .ok number := by
  have hbelow : -((Nat.pow 2 63 : Nat) : Int) ≤ number.toInt := number.le_toInt
  have habove : number.toInt ≤ ((Nat.pow 2 63 - 1 : Nat) : Int) := number.toInt_le
  rw [readInt64, readInt_toString hbelow habove]
  exact congrArg Except.ok (Int64.ofInt_toInt number)

end Numeral

/-! ### Identifiers -/

namespace Uuid

theorem hexValue?_hexChar (d : Fin 16) : hexValue? (hexChar d) = some d := by
  decide +revert +kernel

theorem length_group (size : Nat) (sizes : List Nat) (text : List Char) :
    (group (size :: sizes) text).length = text.length + sizes.length := by
  induction sizes generalizing size text with
  | nil => rfl
  | cons next sizes ih =>
    rw [group, List.length_append, List.length_cons, ih, List.length_take, List.length_drop, List.length_cons]
    · omega
    · exact List.cons_ne_nil _ _

/-- Groups come apart again if the text is long enough for them. -/
theorem ungroup?_group (sizes : List Nat) (text : List Char) (h : sizes.dropLast.foldr (· + ·) 0 ≤ text.length) :
    ungroup? sizes (group sizes text) = some text := by
  induction sizes, text using group.induct with
  | case1 text => rfl
  | case2 text size => rfl
  | case3 size sizes text hne ih =>
    obtain ⟨next, sizes, rfl⟩ := List.exists_cons_of_ne_nil hne
    rw [List.dropLast_cons_cons, List.foldr_cons] at h
    have hrest := ih (by rw [List.length_drop]; omega)
    have hlength : (text.take size).length = size := List.length_take_of_le (by omega)
    have hdrop : (text.take size ++ '-' :: group (next :: sizes) (text.drop size)).drop size =
        '-' :: group (next :: sizes) (text.drop size) := List.drop_left' hlength
    have htake : (text.take size ++ '-' :: group (next :: sizes) (text.drop size)).take size = text.take size :=
      List.take_left' hlength
    rw [group, ungroup?, hdrop, htake]
    · exact (congrArg (Option.map (text.take size ++ ·)) hrest).trans (congrArg some (List.take_append_drop size text))
    all_goals exact List.cons_ne_nil _ _

theorem ofDigits?_hexChar (id : Uuid) : ofDigits? (id.digits.map hexChar) = some id := by
  have hdigits : (id.digits.map hexChar).mapM hexValue? = some id.digits := by
    induction id.digits with
    | nil => rfl
    | cons d digits ih =>
      rw [List.map_cons, List.mapM_cons, hexValue?_hexChar, ih]
      rfl
  rw [ofDigits?, hdigits]
  exact dif_pos id.length_digits

theorem read?_hyphenated (id : Uuid) : read? id.hyphenated.toList = some id := by
  have hlength : (group groupSizes (id.digits.map hexChar)).length = 36 := by
    rw [groupSizes, length_group, List.length_map, id.length_digits]
    rfl
  have hungroup : ungroup? groupSizes (group groupSizes (id.digits.map hexChar)) = some (id.digits.map hexChar) := by
    refine ungroup?_group _ _ ?_
    rw [List.length_map, id.length_digits]
    decide
  rw [hyphenated, String.toList_ofList, read?, hlength, if_neg (by decide), if_pos rfl, ofGroups?, hlength, if_pos rfl,
    hungroup, Option.bind_some, ofDigits?_hexChar]

end Uuid

namespace Value

/-- The canonical text of a value reads back. -/
theorem read_render (value : Value) : value.kind.read value.render = .ok value := by
  cases value with
  | string text => rfl
  | integer number =>
    have hread := Numeral.readInt32_toString number
    simp only [kind, render, Kind.read, hread]
    rfl
  | long number =>
    have hread := Numeral.readInt64_toString number
    simp only [kind, render, Kind.read, hread]
    rfl
  | boolean truth =>
    cases truth with
    | false => rfl
    | true => rfl
  | uuid id =>
    have hread := Uuid.read?_hyphenated id
    simp only [kind, render, Kind.read, hread]

end Value

end PathBinding
