import PathBinding.Proofs.Placeholders

/-!
Trees that patterns denote, and the texts that denote them. In a canonical tree no segment takes in what stands behind it:
a literal is not followed by another one, a name is not followed by more letters or by a colon, and what would have a
meaning in a literal is escaped (`CanonicalAll`). A text spells a tree if it is the printed tree, except that a position
may have zeros in front (`SpellsAll`).
-/

set_option autoImplicit false
set_option relaxedAutoImplicit false

namespace PathBinding.Segment

/-! ### Canonical trees -/

/-- Whether text stands for itself in a pattern: brackets are escaped, no escape is left open, and no other colon has a
word character behind it. -/
def isLiteral : List Char → Bool
  | [] => true
  | ['\\'] => false
  | '\\' :: _ :: rest => isLiteral rest
  | ':' :: c :: rest => !isWordChar c && isLiteral (c :: rest)
  | c :: rest => c != '[' && c != ']' && isLiteral rest

/-- The text behind a segment is not read as a part of it. -/
def Parted : Segment → List Segment → Prop
  | .literal _, .literal _ :: _ => False
  | .placeholder _ none, rest => ∀ c ∈ (printAll rest).toList.head?, isWordChar c = false ∧ c ≠ ':'
  | .positional _, rest => ∀ c ∈ (printAll rest).toList.head?, isWordChar c = false
  | _, _ => True

mutual

def Canonical : Segment → Prop
  | .literal text => text.toList ≠ [] ∧ isLiteral text.toList = true
  | .placeholder name regex => IsName name ∧ name.toList.all Char.isDigit = false ∧
    ∀ expression ∈ regex, expression.toList ≠ [] ∧ ':' ∉ expression.toList
  | .positional index => 1 ≤ index ∧ index ≤ maxPositional
  | .optional inner => CanonicalAll inner

def CanonicalAll : List Segment → Prop
  | [] => True
  | segment :: rest => Canonical segment ∧ Parted segment rest ∧ CanonicalAll rest

end

/-! ### Spelling -/

mutual

/-- A text is the printed segment, up to zeros in front of positions. -/
def Spells : Segment → List Char → Prop
  | .literal text, s => s = text.toList
  | .placeholder name regex, s => s = (print (.placeholder name regex)).toList
  | .positional index, s => ∃ zeros, s = ':' :: (List.replicate zeros '0' ++ (toString index).toList)
  | .optional inner, s => ∃ u, s = '[' :: (u ++ [']']) ∧ SpellsAll inner u

def SpellsAll : List Segment → List Char → Prop
  | [], s => s = []
  | segment :: rest, s => ∃ u v, s = u ++ v ∧ Spells segment u ∧ SpellsAll rest v

end

mutual

/-- The printed segment is one of its spellings. -/
theorem spells_print (segment : Segment) : Spells segment (print segment).toList := by
  cases segment with
  | literal text => rfl
  | placeholder name regex => rfl
  | positional index =>
    refine ⟨0, ?_⟩
    rw [print, String.toList_append]
    rfl
  | optional inner =>
    refine ⟨(printAll inner).toList, ?_, spells_printAll inner⟩
    rw [print, String.toList_append, String.toList_append]
    rfl

theorem spells_printAll (segments : List Segment) : SpellsAll segments (printAll segments).toList := by
  cases segments with
  | nil => rfl
  | cons segment rest =>
    refine ⟨_, _, ?_, spells_print segment, spells_printAll rest⟩
    rw [printAll, String.toList_append]

end

theorem toList_print_placeholder (name : String) (regex : Option String) : (print (.placeholder name regex)).toList =
    ':' :: (name.toList ++ (regex.map fun expression ↦ ':' :: (expression.toList ++ [':'])).getD []) := by
  cases regex with
  | none =>
    rw [print, String.toList_append]
    simp
  | some expression =>
    simp only [print, String.toList_append]
    simp

theorem head?_spells {segment : Segment} {s : List Char} (h : Spells segment s) :
    s.head? = (print segment).toList.head? := by
  cases segment with
  | literal text => rw [h, print]
  | placeholder name regex => rw [h]
  | positional index =>
    obtain ⟨zeros, rfl⟩ := h
    rw [print, String.toList_append]
    rfl
  | optional inner =>
    obtain ⟨u, rfl, -⟩ := h
    rw [print, String.toList_append, String.toList_append]
    rfl

/-- Spellings of a tree begin with the same character. -/
theorem head?_spellsAll {segments : List Segment} {s : List Char} (h : SpellsAll segments s) :
    s.head? = (printAll segments).toList.head? := by
  induction segments generalizing s with
  | nil =>
    rw [h]
    rfl
  | cons segment rest ih =>
    obtain ⟨u, v, rfl, hu, hv⟩ := h
    rw [printAll, String.toList_append, List.head?_append, List.head?_append, head?_spells hu, ih hv]

/-! ### Where a segment begins -/

/-- Whether a literal cannot go on here, since a group or a placeholder begins or the sequence ends. -/
def startsPart : List Char → Bool
  | [] => true
  | '[' :: _ | ']' :: _ => true
  | ':' :: c :: _ => isWordChar c
  | _ => false

theorem startsPart_of_canonical {segment : Segment} (hcanonical : Canonical segment)
    (hliteral : ∀ text, segment ≠ .literal text) {u : List Char} (hu : Spells segment u) (rest : List Char) :
    startsPart (u ++ rest) = true := by
  cases segment with
  | literal text => exact absurd rfl (hliteral text)
  | placeholder name regex =>
    obtain ⟨⟨hne, hletters⟩, -⟩ := hcanonical
    obtain ⟨c, letters, hname⟩ := List.exists_cons_of_ne_nil hne
    obtain rfl : u = _ := hu
    rw [toList_print_placeholder, hname]
    exact hletters c (hname ▸ List.mem_cons_self)
  | positional index =>
    obtain ⟨zeros, rfl⟩ := hu
    cases zeros with
    | zero =>
      obtain ⟨c, digits, hindex⟩ := List.exists_cons_of_ne_nil (Nat.toDigits_ne_nil (n := index) (b := 10))
      have htext : (toString index).toList = c :: digits := (Nat.toList_repr).trans hindex
      have hdigit : c.isDigit = true := Nat.isDigit_of_mem_toDigits (by decide) (by decide) (hindex ▸ List.mem_cons_self)
      rw [htext]
      simp [startsPart, isWordChar, Char.isAlphanum, hdigit]
    | succ zeros => rfl
  | optional inner =>
    obtain ⟨u, rfl, -⟩ := hu
    rfl

theorem isWordChar_of_startsPart {c : Char} {rest : List Char} (h : startsPart (c :: rest) = true) :
    isWordChar c = false := by
  unfold startsPart at h
  split at h
  · next heq => cases heq
  · next heq =>
    cases heq
    rfl
  · next heq =>
    cases heq
    rfl
  · next heq =>
    cases heq
    rfl
  · cases h

/-- A text is a literal up to the next segment, or it ends in an open escape. -/
theorem exists_literal (cs : List Char) : ∃ text rest, cs = text ++ rest ∧ isLiteral text = true ∧
    (startsPart rest = true ∨ rest = ['\\']) := by
  induction cs using isLiteral.induct with
  | case1 => exact ⟨[], [], rfl, rfl, .inl rfl⟩
  | case2 => exact ⟨[], ['\\'], rfl, rfl, .inr rfl⟩
  | case3 c rest ih =>
    obtain ⟨text, rest, rfl, htext, hrest⟩ := ih
    exact ⟨'\\' :: c :: text, rest, rfl, by rwa [isLiteral], hrest⟩
  | case4 c rest ih =>
    cases hc : isWordChar c with
    | true => exact ⟨[], ':' :: c :: rest, rfl, rfl, .inl hc⟩
    | false =>
      obtain ⟨text, rest', hsplit, htext, hrest⟩ := ih
      refine ⟨':' :: text, rest', by rw [hsplit]; rfl, ?_, hrest⟩
      cases text with
      | nil => rfl
      | cons d text =>
        obtain ⟨rfl, -⟩ := List.cons.inj hsplit
        rw [isLiteral, hc, htext]
        rfl
  | case5 c rest hescape hescaped hcolon ih =>
    have hbackslash : c ≠ '\\' := by
      rintro rfl
      cases rest with
      | nil => exact hescape rfl rfl
      | cons d rest => exact hescaped d rest rfl rfl
    have hlast : c = ':' → rest = [] := by
      intro hc
      cases rest with
      | nil => rfl
      | cons d rest => exact (hcolon d rest hc rfl).elim
    by_cases hopen : c = '['
    · exact ⟨[], c :: rest, rfl, rfl, .inl (by rw [hopen]; rfl)⟩
    by_cases hclose : c = ']'
    · exact ⟨[], c :: rest, rfl, rfl, .inl (by rw [hclose]; rfl)⟩
    obtain ⟨text, rest', rfl, htext, hrest⟩ := ih
    refine ⟨c :: text, rest', rfl, ?_, hrest⟩
    rw [isLiteral]
    · simp [hopen, hclose, htext]
    · exact fun hc _ ↦ hbackslash hc
    · exact fun _ _ hc _ ↦ hbackslash hc
    · rintro d tail hc rfl
      cases hlast hc

end PathBinding.Segment
