import PathBinding.Json.Codec
import PathBinding.Proofs.Json.Text
import PathBinding.Proofs.Value

/-!
Values in documents. The document of a value tells its text or its number, but not its kind. So an identifier is read as a
string, a long number as an integer if it is one, and every other value as itself (`Value.read_document`). What is read has
the canonical text of the value, from which the kind of the value restores it, but a slot of that kind takes it only if it
is the value itself.
-/

set_option autoImplicit false
set_option relaxedAutoImplicit false

namespace PathBinding.Value

/-- The number is within the bounds of 32 bits. -/
def IsSmall (number : Int) : Prop :=
  -Int.pow 2 31 ≤ number ∧ number < Int.pow 2 31

instance (number : Int) : Decidable (IsSmall number) :=
  inferInstanceAs (Decidable (_ ∧ _))

/-- What the document of a value tells of it. -/
def withoutKind : Value → Value
  | .long number => if IsSmall number.toInt then .integer (.ofInt number.toInt) else .long number
  | .uuid id => .string id.hyphenated
  | value => value

/-- The document of a value tells its kind, too: it is no identifier, and no long number of 32 bits. -/
def TellsKind : Value → Prop
  | .long number => ¬IsSmall number.toInt
  | .uuid _ => False
  | .string _ | .integer _ | .boolean _ => True

variable (value : Value)

theorem isSmall_toInt (number : Int32) : IsSmall number.toInt :=
  ⟨number.le_toInt, number.toInt_lt⟩

theorem toInt_ofInt {number : Int} (h : IsSmall number) : (Int32.ofInt number).toInt = number :=
  Int32.toInt_ofInt_of_le h.1 h.2

theorem isPlain_toJson : value.toJson.IsPlain := by
  have habove : Int.pow 2 63 < Int.pow 2 64 := by decide
  have hbelow : -Int.pow 2 63 < -Int.pow 2 31 := by decide
  have hsmall : Int.pow 2 31 < Int.pow 2 64 := by decide
  cases value with
  | string text => trivial
  | integer number =>
    have h := isSmall_toInt number
    exact ⟨Int.le_trans (Int.le_of_lt hbelow) h.1, Int.lt_trans h.2 hsmall⟩
  | long number => exact ⟨number.le_toInt, Int.lt_trans number.toInt_lt habove⟩
  | boolean truth => trivial
  | uuid id => trivial

theorem value?_toJson : value.toJson.value? = some value.toJson := by
  cases value <;> rfl

theorem ofJson?_int (number : Int) : ofJson? (.int number) =
    if IsSmall number then some (.integer (.ofInt number))
    else if -Int.pow 2 63 ≤ number ∧ number < Int.pow 2 63 then some (.long (.ofInt number)) else none :=
  rfl

theorem ofJson?_toJson : ofJson? value.toJson = some value.withoutKind := by
  cases value with
  | string text => rfl
  | integer number =>
    rw [toJson, ofJson?_int, if_pos (isSmall_toInt number), Int32.ofInt_toInt]
    rfl
  | long number =>
    have hlong : -Int.pow 2 63 ≤ number.toInt ∧ number.toInt < Int.pow 2 63 := ⟨number.le_toInt, number.toInt_lt⟩
    rw [toJson, ofJson?_int, withoutKind]
    by_cases hsmall : IsSmall number.toInt
    · rw [if_pos hsmall, if_pos hsmall]
    · rw [if_neg hsmall, if_neg hsmall, if_pos hlong, Int64.ofInt_toInt]
  | boolean truth => rfl
  | uuid id => rfl

theorem render_withoutKind : value.withoutKind.render = value.render := by
  cases value with
  | long number =>
    rw [withoutKind]
    split
    · next hsmall => rw [render, toInt_ofInt hsmall, render]
    · rfl
  | _ => rfl

/-- Without its kind a value is the same, or else of another kind. -/
theorem withoutKind_cases : (value.TellsKind ∧ value.withoutKind = value) ∨
    (¬value.TellsKind ∧ value.withoutKind.kind ≠ value.kind) := by
  cases value with
  | long number =>
    rw [TellsKind, withoutKind]
    by_cases hsmall : IsSmall number.toInt
    · rw [if_pos hsmall]
      exact .inr ⟨not_not.mpr hsmall, nofun⟩
    · rw [if_neg hsmall]
      exact .inl ⟨hsmall, rfl⟩
  | uuid id => exact .inr ⟨not_false, nofun⟩
  | _ => exact .inl ⟨trivial, rfl⟩

/-- What is read from the document of a value is the value without its kind. It has the canonical text of the value, which
the kind of the value reads as the value. It is the value itself exactly if the document tells the kind. Then a slot of that
kind takes it, and otherwise it refuses it and names the two kinds. -/
theorem read_document (value : Value) (parameter : String) :
    (Json.readValue? value.toJson.write).bind ofJson? = some value.withoutKind ∧
    value.withoutKind.render = value.render ∧ value.kind.read value.withoutKind.render = .ok value ∧
    (value.withoutKind = value ↔ value.TellsKind) ∧ (value.withoutKind.kind = value.kind ↔ value.TellsKind) ∧
    (value.TellsKind → value.kind.assign parameter (some value.withoutKind) = .ok (some value)) ∧
    (¬value.TellsKind → value.kind.assign parameter (some value.withoutKind) =
      .error (.coercion parameter value.render (.mismatch value.kind.typeName value.withoutKind.kind.typeName))) := by
  have hread : (Json.readValue? value.toJson.write).bind ofJson? = some value.withoutKind := by
    rw [Json.readValue?, Json.read?_write (isPlain_toJson value), Option.bind_some, value?_toJson, Option.bind_some,
      ofJson?_toJson]
  have hrender := render_withoutKind value
  refine ⟨hread, hrender, hrender ▸ read_render value, ?_⟩
  rcases withoutKind_cases value with ⟨htells, hsame⟩ | ⟨htells, hkind⟩
  · rw [hsame]
    exact ⟨iff_of_true rfl htells, iff_of_true rfl htells, fun _ ↦ if_pos rfl, fun h ↦ absurd htells h⟩
  · refine ⟨iff_of_false (fun hsame ↦ hkind (congrArg kind hsame)) htells, iff_of_false hkind htells,
      fun h ↦ absurd h htells, fun _ ↦ ?_⟩
    rw [Kind.assign, if_neg hkind, hrender]

/-- A long number comes back as an integer, which its slot refuses, and an identifier as a string. -/
theorem read_document_differs :
    (Json.readValue? (long 7).toJson.write).bind ofJson? = some (integer 7) ∧
    Kind.long.assign "number" (some (integer 7)) = .error (.coercion "number" "7" (.mismatch "Long" "Integer")) ∧
    (Json.readValue? (uuid ⟨.replicate 32 0, rfl⟩).toJson.write).bind ofJson? =
      some (string "00000000-0000-0000-0000-000000000000") ∧
    ¬∀ value : Value, (Json.readValue? value.toJson.write).bind ofJson? = some value := by
  have hseven : (Json.readValue? (long 7).toJson.write).bind ofJson? = some (integer 7) := by decide +kernel
  refine ⟨hseven, by decide +kernel, by decide +kernel, fun h ↦ ?_⟩
  cases hseven.symm.trans (h (long 7))

end PathBinding.Value
