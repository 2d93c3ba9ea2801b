import Mathlib.Data.List.TakeDrop
import Mathlib.Data.List.TakeWhile
import PathBinding.Json.Reader
import PathBinding.Json.Writer
import PathBinding.Proofs.Numeral

/-!
Documents and their texts. What is written for a document is read as the document again (`read?_write`), if its numbers are
integers of 64 bits and it has no literals that denote nothing. Escaped text comes apart into the characters it was put
together from, and the digits of a number end where something else begins, so each part is read up to its end and no
further, whatever stands behind it.
-/

set_option autoImplicit false
set_option relaxedAutoImplicit false

namespace PathBinding.Json

/-! ### Strings -/

theorem hexValue?_hexDigit {n : Nat} (h : n < 16) : hexValue? (hexDigit n) = some n := by
  have hall : ∀ d : Fin 16, hexValue? (hexDigit d.val) = some d.val := by decide
  exact hall ⟨n, h⟩

theorem readUnit_code {n : Nat} (h : n < 256) (rest : List Char) :
    readUnit ('0' :: '0' :: hexDigit (n / 16) :: hexDigit (n % 16) :: rest) = some (n, rest) := by
  have hzero : hexValue? '0' = some 0 := rfl
  have hvalue : ((0 * 16 + 0) * 16 + n / 16) * 16 + n % 16 = n := by omega
  rw [readUnit, hzero, hexValue?_hexDigit (by omega), hexValue?_hexDigit (by omega)]
  exact congrArg (fun value ↦ some (value, rest)) hvalue

/-- A unit that is no surrogate is a character. -/
theorem ofUnits?_inl {unit : Nat} (h : unit < 0xD800) (units : List (Nat ⊕ Char)) :
    ofUnits? (.inl unit :: units) = (ofUnits? units).map (Char.ofNat unit :: ·) := by
  have hlead : isLead unit = false := by
    rw [isLead, Bool.and_eq_false_iff, decide_eq_false_iff_not]
    omega
  have htrail : isTrail unit = false := by
    rw [isTrail, Bool.and_eq_false_iff, decide_eq_false_iff_not]
    omega
  cases units with
  | nil => simp [ofUnits?, hlead, htrail]
  | cons next units =>
    cases next with
    | inl next => simp [ofUnits?, hlead, htrail]
    | inr c => simp [ofUnits?, hlead, htrail]

/-- A character is written as a letter behind a backslash, by its code, or as it is. -/
theorem escapeChar_cases (c : Char) :
    (∃ letter, escapeChar c = ['\\', letter] ∧ letter ≠ 'u' ∧ simpleEscape? letter = some c) ∨
      (escapeChar c = ['\\', 'u', '0', '0', hexDigit (c.toNat / 16), hexDigit (c.toNat % 16)] ∧ c.toNat < 32) ∨
      (escapeChar c = [c] ∧ 32 ≤ c.toNat ∧ c ≠ '"' ∧ c ≠ '\\') := by
  by_cases hcode : c.toNat < 32
  · by_cases hletter : c ∈ ['\x08', '\x0c', '\n', '\r', '\t']
    · simp only [List.mem_cons, List.not_mem_nil, or_false] at hletter
      rcases hletter with rfl | rfl | rfl | rfl | rfl
      · exact .inl ⟨'b', rfl, by decide, rfl⟩
      · exact .inl ⟨'f', rfl, by decide, rfl⟩
      · exact .inl ⟨'n', rfl, by decide, rfl⟩
      · exact .inl ⟨'r', rfl, by decide, rfl⟩
      · exact .inl ⟨'t', rfl, by decide, rfl⟩
    · have hquote : c ≠ '"' := by
        rintro rfl
        exact absurd hcode (by decide)
      have hslash : c ≠ '\\' := by
        rintro rfl
        exact absurd hcode (by decide)
      simp only [List.mem_cons, List.not_mem_nil, or_false, not_or] at hletter
      obtain ⟨h1, h2, h3, h4, h5⟩ := hletter
      refine .inr (.inl ⟨?_, hcode⟩)
      rw [escapeChar, if_neg hquote, if_neg hslash, if_neg h1, if_neg h2, if_neg h3, if_neg h4, if_neg h5, if_pos hcode]
  · by_cases hquote : c = '"'
    · subst hquote
      exact .inl ⟨ '"', rfl, by decide, rfl⟩
    by_cases hslash : c = '\\'
    · subst hslash
      exact .inl ⟨ '\\', rfl, by decide, rfl⟩
    have hne (d : Char) (hd : d.toNat < 32) : c ≠ d := by
      rintro rfl
      exact hcode hd
    refine .inr (.inr ⟨?_, Nat.le_of_not_lt hcode, hquote, hslash⟩)
    rw [escapeChar, if_neg hquote, if_neg hslash, if_neg (hne _ (by decide)), if_neg (hne _ (by decide)),
      if_neg (hne _ (by decide)), if_neg (hne _ (by decide)), if_neg (hne _ (by decide)), if_neg hcode]

/-- What is written for a character is read as one unit, which denotes the character. -/
theorem exists_unit (c : Char) : ∃ unit,
    (∀ {bound : Nat} {rest behind : List Char} {units : List (Nat ⊕ Char)}, readUnits bound rest = some (units, behind) →
      readUnits (bound + 1) (escapeChar c ++ rest) = some (unit :: units, behind)) ∧
    ∀ units, ofUnits? (unit :: units) = (ofUnits? units).map (c :: ·) := by
  rcases escapeChar_cases c with ⟨letter, hc, hu, hletter⟩ | ⟨hc, hcode⟩ | ⟨hc, hcode, hquote, hslash⟩
  · refine ⟨.inr c, fun {bound rest behind units} hrest ↦ ?_, fun units ↦ rfl⟩
    rw [hc, List.cons_append, List.singleton_append]
    have hread : readUnits (bound + 1) ('\\' :: letter :: rest) = (simpleEscape? letter).bind fun c ↦
        (readUnits bound rest).bind fun p ↦ some (.inr c :: p.1, p.2) := by
      rw [readUnits]
      · rfl
      · exact hu
    rw [hread, hletter, hrest]
    rfl
  · refine ⟨.inl c.toNat, fun {bound rest behind units} hrest ↦ ?_, fun units ↦ ?_⟩
    · have hread (text : List Char) : readUnits (bound + 1) ('\\' :: 'u' :: text) = (readUnit text).bind fun p ↦
          (readUnits bound p.2).bind fun q ↦ some (.inl p.1 :: q.1, q.2) := rfl
      have hcode' : c.toNat < 256 := by omega
      rw [hc]
      exact (hread _).trans (Option.bind_eq_some_iff.mpr ⟨_, readUnit_code hcode' rest,
        Option.bind_eq_some_iff.mpr ⟨_, hrest, rfl⟩⟩)
    · rw [ofUnits?_inl (by omega), Char.ofNat_toNat]
  · refine ⟨.inr c, fun {bound rest behind units} hrest ↦ ?_, fun units ↦ rfl⟩
    have hguard : ¬(c.toNat < 32 ∨ c = '\\') := by
      rintro (hlt | rfl)
      · omega
      · exact hslash rfl
    rw [hc, List.singleton_append]
    have hread : readUnits (bound + 1) (c :: rest) = if c.toNat < 32 ∨ c = '\\' then none else
        (readUnits bound rest).bind fun p ↦ some (.inr c :: p.1, p.2) := by
      rw [readUnits]
      · rfl
      · exact hquote
      · exact fun _ heq _ ↦ hslash heq
      · exact fun _ _ heq _ ↦ hslash heq
    rw [hread, if_neg hguard, hrest]
    rfl

theorem exists_units (text : List Char) : ∃ units,
    (∀ (bound : Nat) (rest : List Char),
      readUnits (bound + text.length + 1) (text.flatMap escapeChar ++ '"' :: rest) = some (units, rest)) ∧
    ofUnits? units = some text := by
  induction text with
  | nil => exact ⟨[], fun _ _ ↦ rfl, rfl⟩
  | cons c text ih =>
    obtain ⟨units, hread, hunits⟩ := ih
    obtain ⟨unit, hunit, hdenotes⟩ := exists_unit c
    refine ⟨unit :: units, fun bound rest ↦ ?_, ?_⟩
    · rw [List.flatMap_cons, List.append_assoc]
      exact hunit (hread bound rest)
    · rw [hdenotes, hunits]
      rfl

theorem length_le_flatMap (text : List Char) : text.length ≤ (text.flatMap escapeChar).length := by
  induction text with
  | nil => exact Nat.le_refl 0
  | cons c text ih =>
    have hc : 0 < (escapeChar c).length := by
      rcases escapeChar_cases c with ⟨letter, hc, -⟩ | ⟨hc, -⟩ | ⟨hc, -⟩
      all_goals
        rw [hc]
        exact Nat.succ_pos _
    rw [List.flatMap_cons, List.length_append, List.length_cons]
    omega

/-- The text between quotes is read up to the closing quote. -/
theorem readString_quoted (text : String) (rest : List Char) :
    readString (text.toList.flatMap escapeChar ++ '"' :: rest) = some (some text, rest) := by
  obtain ⟨units, hread, hunits⟩ := exists_units text.toList
  have hlength : text.toList.length ≤ (text.toList.flatMap escapeChar ++ '"' :: rest).length :=
    Nat.le_trans (length_le_flatMap text.toList) (List.sublist_append_left _ _).length_le
  obtain ⟨bound, hbound⟩ := Nat.exists_eq_add_of_le' hlength
  rw [readString, hbound, hread, Option.map_some]
  dsimp only
  rw [hunits, Option.map_some, String.ofList_toList]

/-! ### Numbers -/

/-- The text does not continue a number. -/
def Stops (rest : List Char) : Prop :=
  ∀ c ∈ rest.head?, c.isDigit = false ∧ c ≠ '.' ∧ c ≠ 'e' ∧ c ≠ 'E'

theorem stops_nil : Stops [] :=
  nofun

theorem stops_cons {c : Char} {rest : List Char} (h : c.isDigit = false ∧ c ≠ '.' ∧ c ≠ 'e' ∧ c ≠ 'E') :
    Stops (c :: rest) := by
  rintro d hd
  cases hd
  exact h

theorem ofDigits_toDigits (n : Nat) : Decimal.ofDigits (Nat.toDigits 10 n) = n := by
  have hfoldl (digits : List Char) (value : Nat) :
      digits.foldl (fun n c ↦ n * 10 + (c.toNat - '0'.toNat)) value = Nat.ofDigitChars 10 digits value := by
    induction digits generalizing value with
    | nil => rfl
    | cons c digits ih => rw [List.foldl_cons, ih, Nat.ofDigitChars_cons, Nat.mul_comm]
  rw [Decimal.ofDigits, hfoldl, Nat.ofDigitChars_ten_toDigits]

/-- The digits of a number begin with a zero only if there are no others. -/
theorem eq_nil_of_toDigits {n : Nat} {digits : List Char} (h : Nat.toDigits 10 n = '0' :: digits) : digits = [] := by
  have hall : ∀ c ∈ '0' :: digits, c.isDigit = true := fun c hc ↦
    Nat.isDigit_of_mem_toDigits (by decide) (by decide) (h ▸ hc)
  have hvalue : Nat.ofDigitChars 10 digits 0 = n := by
    rw [← Nat.ofDigitChars_ten_toDigits (n := n), h, Nat.ofDigitChars_cons]
    rfl
  rcases Nat.eq_zero_or_pos n with rfl | hpos
  · exact (List.cons.inj h).2.symm
  · obtain ⟨count, hcount⟩ := Numeral.exists_zeros (fun c hc ↦ hall c (List.mem_cons_of_mem _ hc)) (hvalue.symm ▸ hpos)
    rw [hvalue, h] at hcount
    have hlength := congrArg List.length hcount
    rw [List.length_append, List.length_cons] at hlength
    omega

theorem span_toDigits (n : Nat) {rest : List Char} (hrest : Stops rest) :
    (Nat.toDigits 10 n ++ rest).span Char.isDigit = (Nat.toDigits 10 n, rest) := by
  have hdigits : ∀ c ∈ Nat.toDigits 10 n, c.isDigit = true := fun c ↦ Nat.isDigit_of_mem_toDigits (by decide) (by decide)
  have htake : rest.takeWhile Char.isDigit = [] ∧ rest.dropWhile Char.isDigit = rest := by
    cases rest with
    | nil => exact ⟨rfl, rfl⟩
    | cons c rest =>
      obtain ⟨hc, -⟩ := hrest c rfl
      simp [hc]
  rw [List.span_eq_takeWhile_dropWhile, List.takeWhile_append_of_pos hdigits, List.dropWhile_append_of_pos hdigits,
    htake.1, htake.2, List.append_nil]

/-- The digits of a number are read up to their end. -/
theorem read_toDigits (negative : Bool) (n : Nat) {rest : List Char} (hrest : Stops rest) :
    Number.read negative (Nat.toDigits 10 n ++ rest) = some (Number.ofInteger negative (Nat.toDigits 10 n), rest) := by
  obtain ⟨c, digits, hdigits, hc⟩ := Numeral.exists_cons_toDigits n
  have hspan := span_toDigits n hrest
  rw [hdigits] at hspan ⊢
  unfold Number.read
  split
  next whole behind heq =>
  have hwhole : c :: digits = whole ∧ rest = behind := by
    split at heq
    · next hzero =>
      obtain ⟨rfl, rfl⟩ := List.cons.inj hzero
      obtain rfl := eq_nil_of_toDigits hdigits
      exact Prod.mk.inj heq
    · exact Prod.mk.inj (hspan.symm.trans heq)
  obtain ⟨rfl, rfl⟩ := hwhole
  clear heq
  have hguard : (!(c :: digits).isEmpty) = true ∧ ¬(c :: digits = ['0'] ∧ rest.head?.any Char.isDigit = true) := by
    refine ⟨rfl, fun h ↦ ?_⟩
    obtain ⟨d, hd, hdigit⟩ := (Option.any_eq_true _ _).mp h.2
    exact Bool.false_ne_true ((hrest d hd).1.symm.trans hdigit)
  rw [guard, if_pos hguard]
  cases rest with
  | nil => rfl
  | cons d rest =>
    obtain ⟨-, hpoint, hlower, hupper⟩ := hrest d rfl
    simp only [Option.pure_def, Option.bind_eq_bind, Option.bind_some]
    split
    · next heq => exact absurd (List.cons.inj heq).1 hpoint
    · split
      · next heq => exact absurd (List.cons.inj heq).1 hlower
      · next heq => exact absurd (List.cons.inj heq).1 hupper
      · rfl

theorem ofInteger_nonneg {n : Nat} (h : n < Nat.pow 2 64) : Number.ofInteger false (Nat.toDigits 10 n) = .int n := by
  rw [Number.ofInteger]
  simp [ofDigits_toDigits, h]

theorem ofInteger_neg {n : Nat} (hpos : n ≠ 0) (h : n ≤ Nat.pow 2 63) :
    Number.ofInteger true (Nat.toDigits 10 n) = .int (-(n : Int)) := by
  rw [Number.ofInteger]
  simp [ofDigits_toDigits, hpos, h]

theorem readValue_of_isDigit {c : Char} (hc : c.isDigit = true) (bound : Nat) (rest : List Char) :
    readValue (bound + 1) (c :: rest) = Number.read false (c :: rest) := by
  unfold readValue
  split
  · next heq => exact absurd (List.cons.inj heq).1 (Numeral.ne_of_isDigit hc rfl)
  · next heq => exact absurd (List.cons.inj heq).1 (Numeral.ne_of_isDigit hc rfl)
  · next heq => exact absurd (List.cons.inj heq).1 (Numeral.ne_of_isDigit hc rfl)
  · next heq => exact absurd (List.cons.inj heq).1 (Numeral.ne_of_isDigit hc rfl)
  · next heq => exact absurd (List.cons.inj heq).1 (Numeral.ne_of_isDigit hc rfl)
  · next heq => exact absurd (List.cons.inj heq).1 (Numeral.ne_of_isDigit hc rfl)
  · next heq => exact absurd (List.cons.inj heq).1 (Numeral.ne_of_isDigit hc rfl)
  · rfl

/-- The number fits in 64 bits, with a sign or without. -/
def IsWord (number : Int) : Prop :=
  -Int.pow 2 63 ≤ number ∧ number < Int.pow 2 64

theorem readValue_int {number : Int} (h : IsWord number) (bound : Nat) {rest : List Char} (hrest : Stops rest) :
    readValue (bound + 1) ((toString number).toList ++ rest) = some (.int number, rest) := by
  cases number with
  | ofNat n =>
    have habove : Int.pow 2 64 = ((Nat.pow 2 64 : Nat) : Int) := rfl
    have hn : n < Nat.pow 2 64 := Int.ofNat_lt.mp (habove ▸ h.2)
    obtain ⟨c, digits, hdigits, hc⟩ := Numeral.exists_cons_toDigits n
    rw [Numeral.toList_toString_ofNat]
    have hread := read_toDigits false n hrest
    rw [ofInteger_nonneg hn] at hread
    rw [hdigits] at hread ⊢
    exact (readValue_of_isDigit hc bound _).trans hread
  | negSucc n =>
    have hbelow : Int.pow 2 63 = ((Nat.pow 2 63 : Nat) : Int) := rfl
    have hn : n + 1 ≤ Nat.pow 2 63 := by
      have hlow := h.1
      rw [hbelow] at hlow
      omega
    rw [Numeral.toList_toString_negSucc, List.cons_append]
    have hread := read_toDigits true (n + 1) hrest
    rw [ofInteger_neg (Nat.succ_ne_zero n) hn] at hread
    exact hread


/-! ### Documents -/

mutual

/-- Numbers are integers of 64 bits, and every literal denotes something. -/
def IsPlain : Json → Prop
  | .int number => IsWord number
  | .fraction | .unrepresentable => False
  | .null | .bool _ | .str _ => True
  | .arr items => ArePlain items
  | .obj members => HavePlain members

def ArePlain : List Json → Prop
  | [] => True
  | item :: rest => IsPlain item ∧ ArePlain rest

def HavePlain : List (String × Json) → Prop
  | [] => True
  | (_, value) :: rest => IsPlain value ∧ HavePlain rest

end

theorem isBlank_of_isDigit {c : Char} (hc : c.isDigit = true) : isBlank c = false := by
  have h1 := Numeral.ne_of_isDigit hc (d := ' ') rfl
  have h2 := Numeral.ne_of_isDigit hc (d := '\n') rfl
  have h3 := Numeral.ne_of_isDigit hc (d := '\t') rfl
  have h4 := Numeral.ne_of_isDigit hc (d := '\r') rfl
  simp [isBlank, h1, h2, h3, h4]

theorem skipBlanks_cons {c : Char} (hc : isBlank c = false) (rest : List Char) : skipBlanks (c :: rest) = c :: rest :=
  List.dropWhile_cons_of_neg (Bool.not_eq_true _ ▸ hc)

/-- What is written for a value begins neither with a blank nor with a closing bracket. -/
theorem exists_first (json : Json) : ∃ c rest, writeChars json = c :: rest ∧ isBlank c = false ∧ c ≠ ']' := by
  cases json with
  | null => exact ⟨'n', _, rfl, rfl, by decide⟩
  | bool truth =>
    cases truth with
    | false => exact ⟨'f', _, rfl, rfl, by decide⟩
    | true => exact ⟨'t', _, rfl, rfl, by decide⟩
  | int number =>
    rw [writeChars]
    cases number with
    | ofNat n =>
      obtain ⟨c, digits, hdigits, hc⟩ := Numeral.exists_cons_toDigits n
      exact ⟨c, digits, (Numeral.toList_toString_ofNat n).trans hdigits, isBlank_of_isDigit hc,
        Numeral.ne_of_isDigit hc rfl⟩
    | negSucc n => exact ⟨'-', _, Numeral.toList_toString_negSucc n, rfl, by decide⟩
  | fraction => exact ⟨'n', _, rfl, rfl, by decide⟩
  | unrepresentable => exact ⟨'n', _, rfl, rfl, by decide⟩
  | str text => exact ⟨'"', _, rfl, rfl, by decide⟩
  | arr items => exact ⟨'[', _, rfl, rfl, by decide⟩
  | obj members => exact ⟨'\x7b', _, rfl, rfl, by decide⟩

theorem skipBlanks_writeChars (json : Json) (rest : List Char) :
    skipBlanks (writeChars json ++ rest) = writeChars json ++ rest := by
  obtain ⟨c, tail, hc, hblank, -⟩ := exists_first json
  rw [hc, List.cons_append, skipBlanks_cons hblank]

theorem ofMembers_some (members : List (String × Json)) :
    ofMembers (members.map fun m ↦ (some m.1, m.2)) = .obj members := by
  have hmembers : ((members.map fun m ↦ ((some m.1, m.2) : Option String × Json)).mapM fun p ↦
      p.1.map (·, p.2)) = some members := by
    induction members with
    | nil => rfl
    | cons m members ih =>
      rw [List.map_cons, List.mapM_cons, ih]
      rfl
  unfold ofMembers
  split
  · next found heq =>
    cases heq.symm.trans hmembers
    rfl
  · next heq => cases heq.symm.trans hmembers

/-- What is written for items begins neither with a blank nor with a closing bracket. -/
theorem exists_first_item (item : Json) (items : List Json) :
    ∃ c rest, writeItems (item :: items) = c :: rest ∧ isBlank c = false ∧ c ≠ ']' := by
  obtain ⟨c, tail, hc, hblank, hclose⟩ := exists_first item
  cases items with
  | nil => exact ⟨c, tail, hc, hblank, hclose⟩
  | cons next more =>
    refine ⟨c, tail ++ ',' :: writeItems (next :: more), ?_, hblank, hclose⟩
    rw [← List.cons_append, ← hc]
    rfl

theorem readValue_open (item : Json) (items : List Json) (bound : Nat) (text : List Char) :
    readValue (bound + 1) ('[' :: writeItems (item :: items) ++ text) =
      (readItems bound (writeItems (item :: items) ++ text)).map fun p ↦ (.arr p.1, p.2) := by
  obtain ⟨c, tail, hc, hblank, hclose⟩ := exists_first_item item items
  rw [List.cons_append, hc, List.cons_append, readValue, skipBlanks_cons hblank]
  split
  · next heq => exact absurd (List.cons.inj heq).1 hclose
  · rfl

theorem skipBlanks_writeItems (item : Json) (items : List Json) (rest : List Char) :
    skipBlanks (writeItems (item :: items) ++ rest) = writeItems (item :: items) ++ rest := by
  obtain ⟨c, tail, hc, hblank, -⟩ := exists_first_item item items
  rw [hc, List.cons_append, skipBlanks_cons hblank]

/-- The item in front of a comma. -/
theorem readItems_comma {bound : Nat} {text rest : List Char} {item : Json}
    (h : readValue bound text = some (item, ',' :: rest)) :
    readItems (bound + 1) text = (readItems bound (skipBlanks rest)).map fun p ↦ (item :: p.1, p.2) := by
  rw [readItems, h]
  rfl

theorem quote_append (name : String) (rest : List Char) :
    quote name ++ rest = '"' :: (name.toList.flatMap escapeChar ++ '"' :: rest) := by
  simp [quote]

theorem exists_first_member (m : String × Json) (members : List (String × Json)) :
    ∃ rest, writeMembers (m :: members) = '"' :: rest := by
  cases members with
  | nil => exact ⟨_, rfl⟩
  | cons next more => exact ⟨_, rfl⟩

theorem readValue_brace (m : String × Json) (members : List (String × Json)) (bound : Nat) (text : List Char) :
    readValue (bound + 1) ('\x7b' :: writeMembers (m :: members) ++ text) =
      (readMembers bound (writeMembers (m :: members) ++ text)).map fun p ↦ (ofMembers p.1, p.2) := by
  obtain ⟨rest, hrest⟩ := exists_first_member m members
  rw [hrest]
  rfl

theorem skipBlanks_writeMembers (m : String × Json) (members : List (String × Json)) (rest : List Char) :
    skipBlanks (writeMembers (m :: members) ++ rest) = writeMembers (m :: members) ++ rest := by
  obtain ⟨tail, htail⟩ := exists_first_member m members
  rw [htail]
  rfl

/-- A name between quotes, and a colon in front of its value. -/
theorem readMembers_quote (name : String) (bound : Nat) (text : List Char) :
    readMembers (bound + 1) (quote name ++ ':' :: text) =
      (readValue bound (skipBlanks text)).bind fun p ↦
        match skipBlanks p.2 with
        | ',' :: rest => (readMembers bound (skipBlanks rest)).map fun q ↦ ((some name, p.1) :: q.1, q.2)
        | '\x7d' :: rest => some ([(some name, p.1)], rest)
        | _ => none := by
  rw [quote_append, readMembers, readString_quoted]
  rfl

mutual

/-- What is written for a value is read as the value, whatever stands behind it. -/
theorem readValue_writeChars {json : Json} (h : json.IsPlain) {bound : Nat} (hbound : (writeChars json).length ≤ bound)
    {rest : List Char} (hrest : Stops rest) : readValue bound (writeChars json ++ rest) = some (json, rest) := by
  obtain ⟨bound, rfl⟩ : ∃ b, bound = b + 1 := by
    obtain ⟨c, tail, hc, -⟩ := exists_first json
    rw [hc, List.length_cons] at hbound
    exact ⟨bound - 1, by omega⟩
  cases json with
  | null => rfl
  | bool truth => cases truth <;> rfl
  | int number => exact readValue_int h bound hrest
  | fraction => exact h.elim
  | unrepresentable => exact h.elim
  | str text =>
    rw [writeChars, quote_append, readValue, readString_quoted]
    rfl
  | arr items =>
    cases items with
    | nil => rfl
    | cons item items =>
      have hlength : (writeItems (item :: items)).length < bound := by
        rw [writeChars, List.length_append, List.length_cons, List.length_singleton] at hbound
        omega
      have hitems := readItems_writeItems h (List.cons_ne_nil _ _) hlength rest
      rw [writeChars, List.append_assoc]
      exact (readValue_open item items bound _).trans (Option.map_eq_some_iff.mpr ⟨_, hitems, rfl⟩)
  | obj members =>
    cases members with
    | nil => rfl
    | cons m members =>
      have hlength : (writeMembers (m :: members)).length < bound := by
        rw [writeChars, List.length_append, List.length_cons, List.length_singleton] at hbound
        omega
      have hmembers := readMembers_writeMembers h (List.cons_ne_nil _ _) hlength rest
      rw [writeChars, List.append_assoc]
      refine (readValue_brace m members bound _).trans (Option.map_eq_some_iff.mpr ⟨_, hmembers, ?_⟩)
      dsimp only
      rw [ofMembers_some]

theorem readItems_writeItems {items : List Json} (h : ArePlain items) (hne : items ≠ []) {bound : Nat}
    (hbound : (writeItems items).length < bound) (rest : List Char) :
    readItems bound (writeItems items ++ ']' :: rest) = some (items, rest) := by
  obtain ⟨bound, rfl⟩ : ∃ b, bound = b + 1 := ⟨bound - 1, by omega⟩
  cases items with
  | nil => exact absurd rfl hne
  | cons item items =>
    cases items with
    | nil =>
      have hitem := readValue_writeChars h.1 (Nat.le_of_lt_succ hbound) (stops_cons (by decide) : Stops (']' :: rest))
      rw [writeItems, readItems, hitem]
      rfl
    | cons next more =>
      have htext : writeItems (item :: next :: more) = writeChars item ++ ',' :: writeItems (next :: more) := rfl
      rw [htext, List.length_append, List.length_cons] at hbound
      have hitem : (writeChars item).length ≤ bound := by omega
      have hitems : (writeItems (next :: more)).length < bound := by omega
      have hread := readValue_writeChars h.1 hitem
        (stops_cons (by decide) : Stops (',' :: (writeItems (next :: more) ++ ']' :: rest)))
      rw [htext, List.append_assoc, List.cons_append, readItems_comma hread, skipBlanks_writeItems,
        readItems_writeItems h.2 (List.cons_ne_nil next more) hitems rest]
      rfl

theorem readMembers_writeMembers {members : List (String × Json)} (h : HavePlain members) (hne : members ≠ []) {bound : Nat}
    (hbound : (writeMembers members).length < bound) (rest : List Char) :
    readMembers bound (writeMembers members ++ '\x7d' :: rest) =
      some (members.map fun m ↦ (some m.1, m.2), rest) := by
  obtain ⟨bound, rfl⟩ : ∃ b, bound = b + 1 := ⟨bound - 1, by omega⟩
  cases members with
  | nil => exact absurd rfl hne
  | cons m members =>
    obtain ⟨name, value⟩ := m
    cases members with
    | nil =>
      have htext : writeMembers [(name, value)] = quote name ++ ':' :: writeChars value := rfl
      rw [htext, List.length_append, List.length_cons] at hbound
      have hvalue : (writeChars value).length ≤ bound := by omega
      have hread := readValue_writeChars h.1 hvalue (stops_cons (by decide) : Stops ('\x7d' :: rest))
      rw [htext, List.append_assoc, List.cons_append, readMembers_quote, skipBlanks_writeChars, hread]
      rfl
    | cons next more =>
      have htext : writeMembers ((name, value) :: next :: more) =
          quote name ++ ':' :: writeChars value ++ ',' :: writeMembers (next :: more) := rfl
      rw [htext, List.length_append, List.length_append, List.length_cons, List.length_cons] at hbound
      have hvalue : (writeChars value).length ≤ bound := by omega
      have hmembers : (writeMembers (next :: more)).length < bound := by omega
      have hread := readValue_writeChars h.1 hvalue
        (stops_cons (by decide) : Stops (',' :: (writeMembers (next :: more) ++ '\x7d' :: rest)))
      rw [htext, List.append_assoc, List.append_assoc, List.cons_append, List.cons_append, readMembers_quote,
        skipBlanks_writeChars, hread]
      have hmore := readMembers_writeMembers h.2 (List.cons_ne_nil next more) hmembers rest
      rw [← skipBlanks_writeMembers] at hmore
      exact Option.map_eq_some_iff.mpr ⟨_, hmore, rfl⟩

end

/-- What is written for a plain document is read as the document. -/
theorem read?_write {json : Json} (h : json.IsPlain) : read? (write json) = some json := by
  have hbound : (writeChars json).length ≤ (writeChars json).length + 1 := Nat.le_succ _
  have hread := readValue_writeChars h hbound stops_nil
  have hskip := skipBlanks_writeChars json []
  rw [List.append_nil] at hread hskip
  rw [read?, write, String.toList_ofList]
  rw [hskip, hread]
  rfl

end PathBinding.Json
