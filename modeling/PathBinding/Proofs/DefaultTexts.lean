import Mathlib
import PathBinding.Proofs.Expansion
import PathBinding.Proofs.Regex.Repetition
import PathBinding.Proofs.Value

/-!
The texts that the expressions of kinds match. The expressions of numbers bound how many digits there are and the first of
the longest row of them, which is as much as a bound of the number itself (`accepts_numeral`); that of identifiers matches
their canonical texts (`accepts_hexGroups`). So whatever the expression of a kind matches is read as a value of the kind,
and for numbers it is the number that the text denotes (`Kind.read_default`).
-/

set_option autoImplicit false
set_option relaxedAutoImplicit false

namespace PathBinding

/-! ### Numbers of bounded length -/

namespace Numeral

/-- The number that digits with an optional minus sign denote. -/
def denoted : List Char → Int
  | '-' :: digits => -(Nat.ofDigitChars 10 digits 0 : Int)
  | digits => Nat.ofDigitChars 10 digits 0

variable {digits : List Char}

theorem ofDigitChars_lead (c : Char) (rest : List Char) : Nat.ofDigitChars 10 (c :: rest) 0 =
    10 ^ rest.length * (c.toNat - '0'.toNat) + Nat.ofDigitChars 10 rest 0 := by
  rw [Nat.ofDigitChars_cons, Nat.mul_zero, Nat.zero_add, Nat.ofDigitChars_eq_ofDigitChars_zero]

/-- The first digit and the number of digits behind it bound the number. -/
theorem ofDigitChars_lt_lead (c : Char) {rest : List Char} (h : Nat.ofDigitChars 10 rest 0 < 10 ^ rest.length) :
    Nat.ofDigitChars 10 (c :: rest) 0 < 10 ^ rest.length * (c.toNat - '0'.toNat + 1) := by
  rw [ofDigitChars_lead, Nat.mul_succ]
  exact Nat.add_lt_add_left h _

theorem ofDigitChars_lt (hdigits : ∀ c ∈ digits, c.isDigit = true) :
    Nat.ofDigitChars 10 digits 0 < 10 ^ digits.length := by
  induction digits with
  | nil => exact Nat.one_pos
  | cons c rest ih =>
    obtain ⟨hc, hrest⟩ := List.forall_mem_cons.mp hdigits
    calc Nat.ofDigitChars 10 (c :: rest) 0
        < 10 ^ rest.length * (c.toNat - '0'.toNat + 1) := ofDigitChars_lt_lead c (ih hrest)
      _ ≤ 10 ^ rest.length * 10 := Nat.mul_le_mul_left _ (lt_ten_of_isDigit hc)
      _ = 10 ^ (c :: rest).length := (Nat.pow_succ ..).symm

theorem denoted_digits {c : Char} (hc : c.isDigit = true) (rest : List Char) :
    denoted (c :: rest) = Nat.ofDigitChars 10 (c :: rest) 0 := by
  unfold denoted
  split
  · next heq => exact absurd (List.cons.inj heq).1 (ne_of_isDigit hc rfl)
  · rfl

/-- Digits with an optional minus sign are read as the number that they denote if its size is within both bounds. -/
theorem readInt_denoted {below above : Nat} {s : List Char} (hs : s = digits ∨ s = '-' :: digits) (hne : digits ≠ [])
    (hdigits : ∀ c ∈ digits, c.isDigit = true) (hbelow : Nat.ofDigitChars 10 digits 0 ≤ below)
    (habove : Nat.ofDigitChars 10 digits 0 ≤ above) : readInt below above s = .ok (denoted s) := by
  obtain ⟨c, rest, rfl⟩ := List.exists_cons_of_ne_nil hne
  have hread {limit : Nat} (overflow : NumeralFault) (h : Nat.ofDigitChars 10 (c :: rest) 0 ≤ limit) :
      accumulate limit overflow 0 (c :: rest) = .ok (Nat.ofDigitChars 10 (c :: rest) 0) :=
    (accumulate_eq_ok_iff (Nat.zero_le limit)).mpr ⟨hdigits, rfl, h⟩
  have hc := hdigits c List.mem_cons_self
  rcases hs with rfl | rfl
  · rw [readInt_of_digits hc, hread _ habove, denoted_digits hc]
    rfl
  · rw [readInt, magnitude, hread _ hbelow]
    · rfl
    · exact hne

end Numeral

namespace Regex

theorem range_contains (first last c : Char) : (CharSet.range first last).contains c = true ↔ first ≤ c ∧ c ≤ last := by
  rw [CharSet.contains, Bool.and_eq_true, decide_eq_true_iff, decide_eq_true_iff]

theorem isDigit_iff (c : Char) : c.isDigit = true ↔ '0' ≤ c ∧ c ≤ '9' := by
  rw [Char.isDigit, Bool.and_eq_true, decide_eq_true_iff, decide_eq_true_iff]
  exact Iff.rfl

/-- A sign, a digit up to some digit and further digits up to some number. The first two may be left out. -/
def numeral (high : Char) (count : Nat) : Regex :=
  sequence [.repeat 0 (some 1) true (.set (.single '-')), .repeat 0 (some 1) true (.set (.range '0' high)),
    .repeat 1 (some count) true (.set (.range '0' '9'))]

/-- Digits with a bound for their number and for the first of the longest row of them are those of the numbers below a
bound. -/
theorem exists_lead_iff {high : Char} (hlow : '0' ≤ high) (hhigh : high ≤ '9') {count : Nat} (hcount : 1 ≤ count)
    (digits : List Char) :
    (∃ lead tail, digits = lead ++ tail ∧ ((∃ c, lead = [c] ∧ '0' ≤ c ∧ c ≤ high) ∨ lead = []) ∧
      1 ≤ tail.length ∧ tail.length ≤ count ∧ ∀ c ∈ tail, c.isDigit = true) ↔
    digits ≠ [] ∧ (∀ c ∈ digits, c.isDigit = true) ∧ digits.length ≤ count + 1 ∧
      Nat.ofDigitChars 10 digits 0 < (high.toNat - '0'.toNat + 1) * 10 ^ count := by
  constructor
  · rintro ⟨lead, tail, rfl, ⟨c, rfl, hzero, hc⟩ | rfl, hmin, hmax, htail⟩
    · have hpow : 10 ^ tail.length ≤ 10 ^ count := Nat.pow_le_pow_right (by decide) hmax
      have hlead : c.toNat - '0'.toNat ≤ high.toNat - '0'.toNat := Nat.sub_le_sub_right hc _
      refine ⟨List.cons_ne_nil _ _, List.forall_mem_cons.mpr ⟨(isDigit_iff c).mpr ⟨hzero, Char.le_trans hc hhigh⟩, htail⟩,
        Nat.succ_le_succ hmax, ?_⟩
      calc Nat.ofDigitChars 10 (c :: tail) 0
          < 10 ^ tail.length * (c.toNat - '0'.toNat + 1) :=
            Numeral.ofDigitChars_lt_lead c (Numeral.ofDigitChars_lt htail)
        _ ≤ 10 ^ count * (high.toNat - '0'.toNat + 1) := Nat.mul_le_mul hpow (Nat.succ_le_succ hlead)
        _ = (high.toNat - '0'.toNat + 1) * 10 ^ count := Nat.mul_comm _ _
    · refine ⟨List.ne_nil_of_length_pos hmin, htail, Nat.le_succ_of_le hmax, ?_⟩
      calc Nat.ofDigitChars 10 tail 0
          < 10 ^ tail.length := Numeral.ofDigitChars_lt htail
        _ ≤ 10 ^ count := Nat.pow_le_pow_right (by decide) hmax
        _ ≤ (high.toNat - '0'.toNat + 1) * 10 ^ count := Nat.le_mul_of_pos_left _ (Nat.succ_pos _)
  · rintro ⟨hne, hdigits, hlength, hlt⟩
    rcases Nat.le_or_eq_of_le_succ hlength with hlength | hlength
    · exact ⟨[], digits, rfl, .inr rfl, List.length_pos_iff.mpr hne, hlength, hdigits⟩
    · obtain ⟨c, tail, rfl⟩ := List.exists_cons_of_ne_nil hne
      obtain ⟨hc, htail⟩ := List.forall_mem_cons.mp hdigits
      obtain rfl : tail.length = count := Nat.succ.inj hlength
      have hlead : c.toNat - '0'.toNat < high.toNat - '0'.toNat + 1 := by
        refine Nat.lt_of_mul_lt_mul_left (a := 10 ^ tail.length) ?_
        rw [Nat.mul_comm _ (high.toNat - _ + 1)]
        exact Nat.lt_of_le_of_lt (Nat.le_add_right _ _) (Numeral.ofDigitChars_lead c tail ▸ hlt)
      have hzero := ((isDigit_iff c).mp hc).1
      have hlow : '0'.toNat ≤ high.toNat := hlow
      have hle : c.toNat ≤ high.toNat := by omega
      exact ⟨[c], tail, rfl, .inl ⟨c, rfl, hzero, hle⟩, hcount, Nat.le_refl _, htail⟩

/-- A numeral accepts the digits of the numbers below a bound, with a sign or without. -/
theorem accepts_numeral {high : Char} (hlow : '0' ≤ high) (hhigh : high ≤ '9') {count : Nat} (hcount : 1 ≤ count)
    (s : List Char) :
    (numeral high count).Accepts s ↔ ∃ digits, (s = digits ∨ s = '-' :: digits) ∧ digits ≠ [] ∧
      (∀ c ∈ digits, c.isDigit = true) ∧ digits.length ≤ count + 1 ∧
      Nat.ofDigitChars 10 digits 0 < (high.toNat - '0'.toNat + 1) * 10 ^ count := by
  let first : Regex := .repeat 0 (some 1) true (.set (.range '0' high))
  let further : Regex := .repeat 1 (some count) true (.set (.range '0' '9'))
  have hfurther : ∀ r ∈ [further], r.lookFree = true := List.forall_mem_singleton.mpr rfl
  have hboth : ∀ r ∈ [first, further], r.lookFree = true := List.forall_mem_cons.mpr ⟨rfl, hfurther⟩
  have hfirst (u : List Char) : first.Accepts u ↔ (∃ c, u = [c] ∧ '0' ≤ c ∧ c ≤ high) ∨ u = [] := by
    rw [accepts_optional rfl, accepts_set]
    simp only [range_contains]
  have hdigits (u : List Char) : (sequence [further]).Accepts u ↔
      1 ≤ u.length ∧ u.length ≤ count ∧ ∀ c ∈ u, c.isDigit = true := by
    simp only [isDigit_iff, ← range_contains]
    exact accepts_repeat_set _ hcount u
  have hsign (u : List Char) : (Regex.repeat 0 (some 1) true (.set (.single '-'))).Accepts u ↔ u = ['-'] ∨ u = [] := by
    rw [accepts_optional rfl, accepts_set]
    simp only [single_contains, exists_eq_right]
  rw [numeral, accepts_sequence_cons rfl hboth]
  simp only [accepts_sequence_cons (r := first) rfl hfurther, hsign, hfirst, hdigits,
    ← exists_lead_iff hlow hhigh hcount]
  constructor
  · rintro ⟨_, v, rfl, rfl | rfl, lead, tail, h⟩
    · exact ⟨v, .inr rfl, lead, tail, h⟩
    · exact ⟨v, .inl rfl, lead, tail, h⟩
  · rintro ⟨digits, rfl | rfl, lead, tail, h⟩
    · exact ⟨[], _, rfl, .inr rfl, lead, tail, h⟩
    · exact ⟨['-'], digits, rfl, .inl rfl, lead, tail, h⟩

/-! ### Identifiers -/

/-- Hexadecimal digits in lower case. -/
def hexSet : CharSet :=
  .union (.range '0' '9') (.range 'a' 'f')

theorem hexSet_contains (c : Char) : hexSet.contains c = true ↔ ∃ d, c = Uuid.hexChar d := by
  constructor
  · intro h
    rw [hexSet, CharSet.contains, Bool.or_eq_true, range_contains, range_contains] at h
    have hcode (first : Char) (hfirst : first ≤ c) : first.toNat + (c.toNat - first.toNat) = c.toNat :=
      Nat.add_sub_cancel' hfirst
    rcases h with ⟨hlow, hhigh⟩ | ⟨hlow, hhigh⟩
    · have hle : c.toNat ≤ 57 := hhigh
      have hge : 48 ≤ c.toNat := hlow
      refine ⟨⟨c.toNat - 48, by omega⟩, ?_⟩
      rw [Uuid.hexChar, if_pos (by simp only; omega)]
      exact (Char.ofNat_toNat c).symm.trans (congrArg Char.ofNat (hcode '0' hlow).symm)
    · have hle : c.toNat ≤ 102 := hhigh
      have hge : 97 ≤ c.toNat := hlow
      refine ⟨⟨c.toNat - 97 + 10, by omega⟩, ?_⟩
      rw [Uuid.hexChar, if_neg (by simp only; omega)]
      refine (Char.ofNat_toNat c).symm.trans (congrArg Char.ofNat ?_)
      have hletter : 'a'.toNat = 97 := rfl
      simp only
      omega
  · rintro ⟨d, rfl⟩
    revert d
    decide

/-- Groups of digits of the given sizes with hyphens between them. -/
def hexGroups : List Nat → List Regex
  | [] => []
  | [size] => [.repeat size (some size) true (.set hexSet)]
  | size :: sizes => .repeat size (some size) true (.set hexSet) :: .set (.single '-') :: hexGroups sizes

theorem lookFree_hexGroups (sizes : List Nat) : ∀ r ∈ hexGroups sizes, r.lookFree = true := by
  induction sizes using hexGroups.induct with
  | case1 => exact List.forall_mem_nil _
  | case2 size => exact List.forall_mem_singleton.mpr rfl
  | case3 size sizes hne ih =>
    rw [hexGroups]
    · exact List.forall_mem_cons.mpr ⟨rfl, List.forall_mem_cons.mpr ⟨rfl, ih⟩⟩
    · exact hne

theorem accepts_hexGroup (size : Nat) (s : List Char) : (Regex.repeat size (some size) true (.set hexSet)).Accepts s ↔
    ∃ digits : List (Fin 16), digits.length = size ∧ s = digits.map Uuid.hexChar := by
  rw [accepts_repeat_set _ (Nat.le_refl size)]
  simp only [hexSet_contains]
  constructor
  · rintro ⟨hmin, hmax, hs⟩
    have hrange : s ∈ Set.range (List.map Uuid.hexChar) := by
      rw [Set.range_list_map]
      exact fun c hc ↦ (hs c hc).imp fun _ h ↦ h.symm
    obtain ⟨digits, rfl⟩ := hrange
    rw [List.length_map] at hmin hmax
    exact ⟨digits, Nat.le_antisymm hmax hmin, rfl⟩
  · rintro ⟨digits, rfl, rfl⟩
    rw [List.length_map]
    exact ⟨Nat.le_refl _, Nat.le_refl _, List.forall_mem_map.mpr fun d _ ↦ ⟨d, rfl⟩⟩

/-- Groups accept the digits that are grouped in the same way. -/
theorem accepts_hexGroups {sizes : List Nat} (hne : sizes ≠ []) (s : List Char) :
    (sequence (hexGroups sizes)).Accepts s ↔ ∃ digits : List (Fin 16), digits.length = sizes.sum ∧
      s = Uuid.group sizes (digits.map Uuid.hexChar) := by
  induction sizes using hexGroups.induct generalizing s with
  | case1 => exact absurd rfl hne
  | case2 size =>
    refine (accepts_hexGroup size s).trans ?_
    rw [List.sum_singleton]
    rfl
  | case3 size sizes hrest ih =>
    have hsizes : sizes ≠ [] := fun hnil ↦ hrest hnil
    have hhyphen : ∀ r ∈ Regex.set (.single '-') :: hexGroups sizes, r.lookFree = true :=
      List.forall_mem_cons.mpr ⟨rfl, lookFree_hexGroups sizes⟩
    rw [hexGroups, accepts_sequence_cons rfl hhyphen]
    · simp only [accepts_sequence_cons (r := .set (.single '-')) rfl (lookFree_hexGroups sizes), accepts_hexGroup,
        accepts_set, single_contains, ih hsizes, Uuid.group, List.sum_cons]
      constructor
      · rintro ⟨_, _, rfl, ⟨first, rfl, rfl⟩, _, _, rfl, ⟨_, rfl, rfl⟩, others, hothers, rfl⟩
        refine ⟨first ++ others, by rw [List.length_append, hothers], ?_⟩
        have hlength : (first.map Uuid.hexChar).length = first.length := List.length_map _
        rw [List.map_append, List.take_left' hlength, List.drop_left' hlength]
        rfl
      · rintro ⟨digits, hlength, rfl⟩
        refine ⟨_, _, rfl, ⟨digits.take size, ?_, ?_⟩, ['-'], _, rfl, ⟨'-', rfl, rfl⟩, digits.drop size, ?_, ?_⟩
        · rw [List.length_take]
          omega
        · rw [List.map_take]
        · rw [List.length_drop]
          omega
        · rw [List.map_drop]
    · exact hrest

end Regex

open Regex

/-! ### What the expressions of kinds match -/

namespace Kind

/-- The expressions of kinds can be held together and are without conditions on positions. -/
theorem lookFree_default {kind : Kind} {regex : String} (h : kind.defaultRegex? = some regex) :
    ∃ body, held? regex = some body ∧ body.lookFree = true := by
  refine (Option.any_eq_true _ _).mp ?_
  cases kind with
  | other name => cases h
  | _ =>
    cases h
    decide +kernel

/-- The digits of a number below a bound, with a sign or without. -/
def IsDecimal (length bound : Nat) (s : List Char) : Prop :=
  ∃ digits, (s = digits ∨ s = '-' :: digits) ∧ digits ≠ [] ∧ (∀ c ∈ digits, c.isDigit = true) ∧
    digits.length ≤ length ∧ Nat.ofDigitChars 10 digits 0 < bound

theorem fullyMatches_integer (s : List Char) :
    FullyMatches "-?[0-1]?[0-9]\x7b1,9\x7d" s ↔ IsDecimal 10 2000000000 s := by
  have hbody : held? "-?[0-1]?[0-9]\x7b1,9\x7d" = some (numeral '1' 9) := rfl
  exact (fullyMatches_of_held hbody s).trans (accepts_numeral (by decide) (by decide) (by decide) s)

theorem fullyMatches_long (s : List Char) :
    FullyMatches "-?[0-8]?[0-9]\x7b1,18\x7d" s ↔ IsDecimal 19 9000000000000000000 s := by
  have hbody : held? "-?[0-8]?[0-9]\x7b1,18\x7d" = some (numeral '8' 18) := rfl
  exact (fullyMatches_of_held hbody s).trans (accepts_numeral (by decide) (by decide) (by decide) s)

theorem fullyMatches_boolean (s : List Char) :
    FullyMatches "true|false" s ↔ s = "true".toList ∨ s = "false".toList := by
  have hbody : held? "true|false" =
      some (.alt (sequence (characters "true".toList)) (sequence (characters "false".toList))) := rfl
  rw [fullyMatches_of_held hbody, accepts_alt (lookFree_sequence (lookFree_characters _))
    (lookFree_sequence (lookFree_characters _)), accepts_characters, accepts_characters]

theorem fullyMatches_uuid (s : List Char) :
    FullyMatches "[0-9a-f]\x7b8\x7d-[0-9a-f]\x7b4\x7d-[0-9a-f]\x7b4\x7d-[0-9a-f]\x7b4\x7d-[0-9a-f]\x7b12\x7d" s ↔
      ∃ id : Uuid, s = id.hyphenated.toList := by
  have hbody : held?
      "[0-9a-f]\x7b8\x7d-[0-9a-f]\x7b4\x7d-[0-9a-f]\x7b4\x7d-[0-9a-f]\x7b4\x7d-[0-9a-f]\x7b12\x7d" =
        some (sequence (hexGroups Uuid.groupSizes)) := rfl
  rw [fullyMatches_of_held hbody, accepts_hexGroups (by decide)]
  constructor
  · rintro ⟨digits, hlength, rfl⟩
    exact ⟨⟨digits, hlength⟩, String.toList_ofList.symm⟩
  · rintro ⟨id, rfl⟩
    exact ⟨id.digits, id.length_digits, String.toList_ofList⟩

theorem readInt_of_isDecimal {length bound : Nat} (below above : Nat) (hbelow : bound ≤ below + 1)
    (habove : bound ≤ above + 1) {s : List Char} (hs : IsDecimal length bound s) :
    Numeral.readInt below above s = .ok (Numeral.denoted s) ∧ (Numeral.denoted s).natAbs < bound := by
  obtain ⟨digits, hs, hne, hdigits, -, hlt⟩ := hs
  refine ⟨Numeral.readInt_denoted hs hne hdigits (by omega) (by omega), ?_⟩
  obtain ⟨c, rest, rfl⟩ := List.exists_cons_of_ne_nil hne
  rcases hs with rfl | rfl
  · rw [Numeral.denoted_digits (hdigits c List.mem_cons_self)]
    exact hlt
  · rw [Numeral.denoted, Int.natAbs_neg]
    exact hlt

end Kind

/-- The number that a value is. -/
def Value.number? : Value → Option Int
  | .integer number => some number.toInt
  | .long number => some number.toInt
  | .string _ | .boolean _ | .uuid _ => none

namespace Kind

/-- What the expression of a kind matches in full is read as a value of the kind, and as the number that it denotes if it
is one. -/
theorem read_default {kind : Kind} {regex : String} (h : kind.defaultRegex? = some regex) {s : List Char}
    (hs : FullyMatches regex s) : ∃ value, kind.read (.ofList s) = .ok value ∧ value.kind = kind ∧
      ∀ number ∈ value.number?, number = Numeral.denoted s := by
  cases kind with
  | string => exact ⟨.string (.ofList s), rfl, rfl, fun _ h ↦ absurd h (Option.not_mem_none _)⟩
  | integer =>
    cases h
    obtain ⟨hread, hlt⟩ := readInt_of_isDecimal (Nat.pow 2 31) (Nat.pow 2 31 - 1) (by decide) (by decide)
      ((fullyMatches_integer s).mp hs)
    have hnumber : (Int32.ofInt (Numeral.denoted s)).toInt = Numeral.denoted s :=
      Int32.toInt_ofInt_of_le (by omega) (by omega)
    refine ⟨.integer (.ofInt (Numeral.denoted s)), ?_, rfl, fun _ heq ↦ (Option.some.inj heq).symm.trans hnumber⟩
    rw [read, String.toList_ofList, Numeral.readInt32, hread]
    rfl
  | long =>
    cases h
    obtain ⟨hread, hlt⟩ := readInt_of_isDecimal (Nat.pow 2 63) (Nat.pow 2 63 - 1) (by decide) (by decide)
      ((fullyMatches_long s).mp hs)
    have hnumber : (Int64.ofInt (Numeral.denoted s)).toInt = Numeral.denoted s :=
      Int64.toInt_ofInt_of_le (by omega) (by omega)
    refine ⟨.long (.ofInt (Numeral.denoted s)), ?_, rfl, fun _ heq ↦ (Option.some.inj heq).symm.trans hnumber⟩
    rw [read, String.toList_ofList, Numeral.readInt64, hread]
    rfl
  | boolean =>
    cases h
    rcases (fullyMatches_boolean s).mp hs with rfl | rfl
    · exact ⟨.boolean true, rfl, rfl, fun _ h ↦ absurd h (Option.not_mem_none _)⟩
    · exact ⟨.boolean false, rfl, rfl, fun _ h ↦ absurd h (Option.not_mem_none _)⟩
  | uuid =>
    cases h
    obtain ⟨id, rfl⟩ := (fullyMatches_uuid s).mp hs
    refine ⟨.uuid id, ?_, rfl, fun _ h ↦ absurd h (Option.not_mem_none _)⟩
    rw [String.ofList_toList]
    exact Value.read_render (.uuid id)
  | other name => cases h

end Kind

end PathBinding
