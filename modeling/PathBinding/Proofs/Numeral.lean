import PathBinding.Numeral

/-!
Numerals and the numbers that they denote. Reading digits succeeds exactly if they are digits of a number within the limit
(`accumulate_eq_ok_iff`), so the decimal text of a number reads back (`readInt_toString`), and the digits of a positive
number are its decimal text with zeros in front (`exists_zeros`).
-/

set_option autoImplicit false
set_option relaxedAutoImplicit false

namespace PathBinding.Numeral

variable {limit value n : Nat} {overflow : NumeralFault} {digits : List Char}

theorem le_ofDigitChars (digits : List Char) (value : Nat) : value ≤ Nat.ofDigitChars 10 digits value := by
  rw [Nat.ofDigitChars_eq_ofDigitChars_zero]
  exact Nat.le_trans (Nat.le_mul_of_pos_left value (Nat.pow_pos (Nat.succ_pos 9))) (Nat.le_add_right _ _)

/-- Digits are read onto a value if they are digits and the number that they denote behind it is within the limit. -/
theorem accumulate_eq_ok_iff (hvalue : value ≤ limit) : accumulate limit overflow value digits = .ok n ↔
    (∀ c ∈ digits, c.isDigit = true) ∧ Nat.ofDigitChars 10 digits value = n ∧ n ≤ limit := by
  induction digits generalizing value with
  | nil =>
    simp only [accumulate, Except.ok.injEq, Nat.ofDigitChars_nil, List.not_mem_nil, false_imp_iff, implies_true,
      true_and]
    exact ⟨fun h ↦ ⟨h, h ▸ hvalue⟩, And.left⟩
  | cons c rest ih =>
    have hnext : value * 10 + digitValue c = 10 * value + (c.toNat - '0'.toNat) := by
      rw [digitValue, Nat.mul_comm]
    rw [accumulate, List.forall_mem_cons, Nat.ofDigitChars_cons, ← hnext]
    by_cases hc : c.isDigit = true
    · rw [if_pos hc]
      by_cases hle : value * 10 + digitValue c ≤ limit
      · rw [if_pos hle, ih hle]
        simp only [hc, true_and]
      · rw [if_neg hle]
        refine iff_of_false nofun ?_
        rintro ⟨-, rfl, hlimit⟩
        exact hle (Nat.le_trans (le_ofDigitChars rest _) hlimit)
    · rw [if_neg hc]
      exact iff_of_false nofun fun h ↦ hc h.1.1

theorem accumulate_toDigits (h : n ≤ limit) : accumulate limit overflow 0 (Nat.toDigits 10 n) = .ok n := by
  rw [accumulate_eq_ok_iff (Nat.zero_le limit)]
  exact ⟨fun c ↦ Nat.isDigit_of_mem_toDigits (by decide) (by decide), Nat.ofDigitChars_ten_toDigits, h⟩

/-! ### Signs -/

theorem ne_of_isDigit {c d : Char} (hc : c.isDigit = true) (hd : d.isDigit = false) : c ≠ d := by
  rintro rfl
  exact Bool.noConfusion (hc.symm.trans hd)

theorem readInt_of_digits {below above : Nat} {c : Char} (hc : c.isDigit = true) (rest : List Char) :
    readInt below above (c :: rest) = (accumulate above .tooLarge 0 (c :: rest)).map Int.ofNat := by
  unfold readInt
  split
  · next heq => cases heq
  · next heq => exact absurd (List.cons.inj heq).1 (ne_of_isDigit hc rfl)
  · next heq => exact absurd (List.cons.inj heq).1 (ne_of_isDigit hc rfl)
  · rfl

theorem readNat_of_digits {c : Char} (hc : c.isDigit = true) (rest : List Char) :
    readNat limit (c :: rest) = accumulate limit .tooLarge 0 (c :: rest) := by
  unfold readNat
  split
  · next heq => cases heq
  · next heq => exact absurd (List.cons.inj heq).1 (ne_of_isDigit hc rfl)
  · rfl

/-- A natural number is read from its digits, with a plus sign in front of them or without. -/
theorem readNat_eq_ok_iff {text : List Char} : readNat limit text = .ok n ↔ ∃ digits, digits ≠ [] ∧
    (text = digits ∨ text = '+' :: digits) ∧ (∀ c ∈ digits, c.isDigit = true) ∧ Nat.ofDigitChars 10 digits 0 = n ∧
    n ≤ limit := by
  have hsigned (digits : List Char) : ¬∀ c ∈ '+' :: digits, c.isDigit = true := fun h ↦
    Bool.noConfusion (h '+' List.mem_cons_self)
  unfold readNat
  split
  · refine iff_of_false nofun ?_
    rintro ⟨digits, hne, rfl | h, -⟩
    · exact hne rfl
    · cases h
  · next digits =>
    cases digits with
    | nil =>
      refine iff_of_false nofun ?_
      rintro ⟨digits, hne, rfl | h, hdigits, -⟩
      · exact hsigned [] hdigits
      · exact hne (List.cons.inj h).2.symm
    | cons c rest =>
      rw [magnitude, accumulate_eq_ok_iff (Nat.zero_le limit)]
      · constructor
        · exact fun h ↦ ⟨c :: rest, nofun, .inr rfl, h⟩
        · rintro ⟨digits, -, rfl | h, hdigits⟩
          · exact absurd hdigits.1 (hsigned _)
          · exact (List.cons.inj h).2 ▸ hdigits
      · nofun
  · next hne hplus =>
    rw [accumulate_eq_ok_iff (Nat.zero_le limit)]
    constructor
    · exact fun h ↦ ⟨text, hne, .inl rfl, h⟩
    · rintro ⟨digits, -, rfl | rfl, hdigits⟩
      · exact hdigits
      · exact absurd rfl (hplus digits)

theorem exists_cons_toDigits (n : Nat) : ∃ c rest, Nat.toDigits 10 n = c :: rest ∧ c.isDigit = true := by
  obtain ⟨c, rest, h⟩ := List.exists_cons_of_ne_nil (Nat.toDigits_ne_nil (n := n) (b := 10))
  exact ⟨c, rest, h, Nat.isDigit_of_mem_toDigits (by decide) (by decide) (h ▸ List.mem_cons_self)⟩

theorem toList_toString_ofNat (n : Nat) : (toString (Int.ofNat n)).toList = Nat.toDigits 10 n :=
  Nat.toList_repr

theorem toList_toString_negSucc (n : Nat) : (toString (Int.negSucc n)).toList = '-' :: Nat.toDigits 10 (n + 1) := by
  have happend : toString (Int.negSucc n) = "-" ++ (n + 1).repr := rfl
  rw [happend, String.toList_append, Nat.toList_repr]
  rfl

/-- The decimal text of an integer reads back. -/
theorem readInt_toString {below above : Nat} {z : Int} (hbelow : -(below : Int) ≤ z) (habove : z ≤ above) :
    readInt below above (toString z).toList = .ok z := by
  cases z with
  | ofNat n =>
    have hle : n ≤ above := Int.ofNat_le.mp habove
    obtain ⟨c, rest, hdigits, hc⟩ := exists_cons_toDigits n
    have hread : accumulate above .tooLarge 0 (Nat.toDigits 10 n) = .ok n := accumulate_toDigits hle
    rw [toList_toString_ofNat]
    rw [hdigits] at hread ⊢
    rw [readInt_of_digits hc, hread]
    rfl
  | negSucc n =>
    have hle : n + 1 ≤ below := by omega
    obtain ⟨c, rest, hdigits, -⟩ := exists_cons_toDigits (n + 1)
    have hread : accumulate below .tooSmall 0 (Nat.toDigits 10 (n + 1)) = .ok (n + 1) := accumulate_toDigits hle
    rw [toList_toString_negSucc]
    rw [hdigits] at hread ⊢
    rw [readInt, magnitude, hread]
    · rfl
    · exact nofun

/-! ### Zeros in front -/

theorem ofDigitChars_zeros (count : Nat) (digits : List Char) :
    Nat.ofDigitChars 10 (List.replicate count '0' ++ digits) 0 = Nat.ofDigitChars 10 digits 0 := by
  rw [Nat.ofDigitChars_append, Nat.ofDigitChars_replicate_zero]
  simp

theorem lt_ten_of_isDigit {c : Char} (hc : c.isDigit = true) : c.toNat - '0'.toNat < 10 := by
  have hhigh : c.toNat ≤ 57 := of_decide_eq_true (Bool.and_eq_true_iff.mp hc).2
  have hzero : '0'.toNat = 48 := rfl
  omega

theorem digitChar_of_isDigit {c : Char} (hc : c.isDigit = true) : Nat.digitChar (c.toNat - '0'.toNat) = c := by
  have hlow : 48 ≤ c.toNat := of_decide_eq_true (Bool.and_eq_true_iff.mp hc).1
  refine Char.toNat_inj.mp ?_
  rw [Nat.toNat_digitChar_of_lt_ten (lt_ten_of_isDigit hc)]
  exact Nat.add_sub_cancel' hlow

/-- Digits behind the decimal text of a positive number continue it. -/
theorem toDigits_ofDigitChars (hvalue : 0 < value) (hdigits : ∀ c ∈ digits, c.isDigit = true) :
    Nat.toDigits 10 (Nat.ofDigitChars 10 digits value) = Nat.toDigits 10 value ++ digits := by
  induction digits generalizing value with
  | nil => rw [Nat.ofDigitChars_nil, List.append_nil]
  | cons c rest ih =>
    obtain ⟨hc, hrest⟩ := List.forall_mem_cons.mp hdigits
    have hlt := lt_ten_of_isDigit hc
    rw [Nat.ofDigitChars_cons, ih (by omega) hrest, ← Nat.toDigits_append_toDigits (by decide) hvalue hlt,
      Nat.toDigits_of_lt_base hlt, digitChar_of_isDigit hc, List.append_assoc, List.singleton_append]

/-- The digits of a positive number are its decimal text with zeros in front. -/
theorem exists_zeros (hdigits : ∀ c ∈ digits, c.isDigit = true) (hpos : 0 < Nat.ofDigitChars 10 digits 0) :
    ∃ count, digits = List.replicate count '0' ++ Nat.toDigits 10 (Nat.ofDigitChars 10 digits 0) := by
  induction digits with
  | nil => exact absurd hpos (Nat.lt_irrefl 0)
  | cons c rest ih =>
    obtain ⟨hc, hrest⟩ := List.forall_mem_cons.mp hdigits
    have hcons : Nat.ofDigitChars 10 (c :: rest) 0 = Nat.ofDigitChars 10 rest (c.toNat - '0'.toNat) := by
      rw [Nat.ofDigitChars_cons, Nat.mul_zero, Nat.zero_add]
    rw [hcons] at hpos ⊢
    rcases Nat.eq_zero_or_pos (c.toNat - '0'.toNat) with hzero | hvalue
    · rw [hzero] at hpos ⊢
      obtain ⟨count, hcount⟩ := ih hrest hpos
      have hsame : c = '0' := by
        rw [← digitChar_of_isDigit hc, hzero]
        rfl
      refine ⟨count + 1, ?_⟩
      rw [List.replicate_succ, List.cons_append, ← hcount, hsame]
    · refine ⟨0, ?_⟩
      rw [toDigits_ofDigitChars hvalue hrest, Nat.toDigits_of_lt_base (lt_ten_of_isDigit hc), digitChar_of_isDigit hc]
      rfl

end PathBinding.Numeral
