import PathBinding.Proofs.Numeral
import PathBinding.Proofs.Segment.Canonical

/-!
Reading and printing are inverse to each other. What a reader makes of the rest of a text is told for each thing that may
stand at its front, as an equation (`readOn_literal`, `readOn_open`, `readOn_close`, `readOn_name`, `readOn_regex`). From
these, a text that spells a canonical tree is read as that tree (`readOn_spelled`), and what is read from any text is a
canonical tree that the text spells (`exists_reads`). So a text is read as a tree exactly if the tree is canonical
and the text spells it (`read_eq_ok_iff`), and it is refused exactly if it spells no canonical tree (`parse_grammar`).
-/

set_option autoImplicit false
set_option relaxedAutoImplicit false

namespace PathBinding.Segment

namespace Reading

/-- The segments of a text of which this has been read already. -/
def readOn (r : Reading) (cs : List Char) : Except PatternFault (List Segment) := do
  let last ← cs.foldlM step r
  last.finish

variable {o start : Nat} {es : List (List Segment)} {rd outer : List Segment} {text letters rest : List Char} {c : Char}
  {name : String} {t : List Segment}

theorem readOn_nil (r : Reading) : r.readOn [] = r.finish :=
  rfl

theorem readOn_cons (r : Reading) (c : Char) (cs : List Char) :
    r.readOn (c :: cs) = (r.take c).bind fun next ↦ { next with offset := r.offset + c.utf8Size }.readOn cs := by
  unfold readOn
  rw [List.foldlM_cons, step]
  cases r.take c <;> rfl

/-! ### Literals and groups -/

theorem take_literal : (⟨o, es, rd, .literal text⟩ : Reading).take c =
    (⟨o, es, rd, .literal text⟩ : Reading).takePlain text c :=
  rfl

theorem readOn_escape : (⟨o, es, rd, .literal text⟩ : Reading).readOn ('\\' :: c :: rest) =
    (⟨o + '\\'.utf8Size + c.utf8Size, es, rd, .literal (c :: '\\' :: text)⟩ : Reading).readOn rest := by
  rw [readOn_cons, take_literal, takePlain, if_pos rfl]
  exact readOn_cons _ _ _

theorem readOn_plain (hescape : c ≠ '\\') (hopen : c ≠ '[') (hclose : c ≠ ']') (hcolon : c ≠ ':') :
    (⟨o, es, rd, .literal text⟩ : Reading).readOn (c :: rest) =
      (⟨o + c.utf8Size, es, rd, .literal (c :: text)⟩ : Reading).readOn rest := by
  rw [readOn_cons, take_literal, takePlain, if_neg hescape, if_neg hopen, if_neg hclose, if_neg hcolon]
  rfl

theorem readOn_colon_pending : (⟨o, es, rd, .literal text⟩ : Reading).readOn (':' :: rest) =
    (⟨o + ':'.utf8Size, es, rd, .colon text o⟩ : Reading).readOn rest := by
  rw [readOn_cons, take_literal, takePlain, if_neg (by decide), if_neg (by decide), if_neg (by decide), if_pos rfl]
  rfl

/-- A colon without a word character behind it is literal. -/
theorem readOn_colon (h : ∀ d ∈ rest.head?, isWordChar d = false) :
    (⟨o, es, rd, .literal text⟩ : Reading).readOn (':' :: rest) =
      (⟨o + ':'.utf8Size, es, rd, .literal (':' :: text)⟩ : Reading).readOn rest := by
  rw [readOn_colon_pending]
  cases rest with
  | nil => rfl
  | cons d rest =>
    have htake : (⟨o + ':'.utf8Size, es, rd, .colon text o⟩ : Reading).take d =
        (⟨o + ':'.utf8Size, es, rd, .literal (':' :: text)⟩ : Reading).take d := by
      unfold take
      exact if_neg (Bool.eq_false_iff.mp (h d rfl))
    rw [readOn_cons, readOn_cons, htake]

/-- Literal text is kept as it is. -/
theorem readOn_literal {u : List Char} (hu : isLiteral u = true) (h : ∀ d ∈ rest.head?, isWordChar d = false)
    (o : Nat) (es : List (List Segment)) (rd : List Segment) (text : List Char) : ∃ o', (⟨o, es, rd, .literal text⟩ : Reading).readOn (u ++ rest) =
      (⟨o', es, rd, .literal (u.reverse ++ text)⟩ : Reading).readOn rest := by
  induction u using isLiteral.induct generalizing o text with
  | case1 => exact ⟨o, rfl⟩
  | case2 => exact absurd hu (by decide)
  | case3 c u ih =>
    rw [isLiteral] at hu
    obtain ⟨o', ho'⟩ := ih hu _ _
    refine ⟨o', ?_⟩
    rw [List.cons_append, List.cons_append, readOn_escape, ho']
    simp only [List.reverse_cons, List.append_assoc, List.cons_append, List.nil_append]
  | case4 c u ih =>
    obtain ⟨hc, hu⟩ := Bool.and_eq_true_iff.mp (by rwa [isLiteral] at hu)
    obtain ⟨o', ho'⟩ := ih hu _ _
    refine ⟨o', ?_⟩
    rw [List.cons_append, readOn_colon (fun d hd ↦ by
      cases hd
      exact Bool.not_eq_true' _ |>.mp hc), ho', List.reverse_cons (a := ':'), List.append_assoc, List.singleton_append]
  | case5 c u hescape hescaped hcolon ih =>
    rw [isLiteral.eq_5 _ _ hescape hescaped hcolon, Bool.and_eq_true_iff, Bool.and_eq_true_iff] at hu
    obtain ⟨⟨hopen, hclose⟩, hu⟩ := hu
    obtain ⟨o', ho'⟩ := ih hu _ _
    refine ⟨o', ?_⟩
    have hfirst : (⟨o, es, rd, .literal text⟩ : Reading).readOn (c :: (u ++ rest)) =
        (⟨o + c.utf8Size, es, rd, .literal (c :: text)⟩ : Reading).readOn (u ++ rest) := by
      by_cases hc : c = ':'
      · cases u with
        | nil =>
          rw [hc]
          exact readOn_colon h
        | cons d u => exact (hcolon d u hc rfl).elim
      · refine readOn_plain ?_ (bne_iff_ne.mp hopen) (bne_iff_ne.mp hclose) hc
        rintro rfl
        cases u with
        | nil => exact hescape rfl rfl
        | cons d u => exact hescaped d u rfl rfl
    rw [List.cons_append, hfirst, ho', List.reverse_cons, List.append_assoc, List.singleton_append]

theorem readOn_open : (⟨o, es, rd, .literal text⟩ : Reading).readOn ('[' :: rest) =
    (⟨o + '['.utf8Size, flush text rd :: es, [], .literal []⟩ : Reading).readOn rest := by
  rw [readOn_cons, take_literal, takePlain, if_neg (by decide), if_pos rfl]
  rfl

theorem readOn_close : (⟨o, outer :: es, rd, .literal text⟩ : Reading).readOn (']' :: rest) =
    (⟨o + ']'.utf8Size, es, .optional (flush text rd).reverse :: outer, .literal []⟩ : Reading).readOn rest := by
  rw [readOn_cons, take_literal, takePlain, if_neg (by decide), if_neg (by decide), if_pos rfl]
  rfl

theorem readOn_unmatched : (⟨o, [], rd, .literal text⟩ : Reading).readOn (']' :: rest) = .error (.unmatchedClose o) := by
  rw [readOn_cons, take_literal, takePlain, if_neg (by decide), if_neg (by decide), if_pos rfl]
  rfl

/-- Where something else begins, the literal ends. -/
theorem readOn_flush (h : startsPart rest = true) : (⟨o, es, rd, .literal text⟩ : Reading).readOn rest =
    (⟨o, es, flush text rd, .literal []⟩ : Reading).readOn rest := by
  unfold startsPart at h
  split at h
  · rfl
  · rw [readOn_open, readOn_open]
    rfl
  · cases es with
    | nil => rw [readOn_unmatched, readOn_unmatched]
    | cons outer es =>
      rw [readOn_close, readOn_close]
      rfl
  · next c rest =>
    rw [readOn_colon_pending, readOn_colon_pending, readOn_cons, readOn_cons, take, take]
    simp only [h, if_true]
    rfl
  · cases h

/-! ### Placeholders -/

theorem readOn_letters (hletters : ∀ c ∈ letters, isWordChar c = true) (o start : Nat) (es : List (List Segment))
    (rd : List Segment) (first rest : List Char) : ∃ o', (⟨o, es, rd, .name start first⟩ : Reading).readOn (letters ++ rest) =
      (⟨o', es, rd, .name start (letters.reverse ++ first)⟩ : Reading).readOn rest := by
  induction letters generalizing o first with
  | nil => exact ⟨o, rfl⟩
  | cons c letters ih =>
    obtain ⟨hc, hletters⟩ := List.forall_mem_cons.mp hletters
    obtain ⟨o', ho'⟩ := ih hletters _ (c :: first)
    refine ⟨o', ?_⟩
    rw [List.cons_append, readOn_cons, take]
    simp only [hc, if_true]
    rw [List.reverse_cons, List.append_assoc, List.singleton_append, ← ho']
    rfl

/-- The letters behind a colon are collected. -/
theorem readOn_name (hletters : AreLetters letters) (o : Nat) (es : List (List Segment)) (rd : List Segment)
    (rest : List Char) : ∃ o', (⟨o, es, rd, .literal []⟩ : Reading).readOn (':' :: (letters ++ rest)) =
      (⟨o', es, rd, .name o letters.reverse⟩ : Reading).readOn rest := by
  obtain ⟨hne, hletters⟩ := hletters
  obtain ⟨c, letters, rfl⟩ := List.exists_cons_of_ne_nil hne
  obtain ⟨hc, hletters⟩ := List.forall_mem_cons.mp hletters
  obtain ⟨o', ho'⟩ := readOn_letters hletters (o + ':'.utf8Size + c.utf8Size) o es rd [c] rest
  refine ⟨o', ?_⟩
  rw [readOn_colon_pending, List.cons_append, readOn_cons, take]
  simp only [hc, if_true]
  rw [List.reverse_cons, ← ho']
  rfl

/-- A name ends before a character that is neither a word character nor, unless it is a position, a colon. -/
theorem readOn_bare (h : ∀ c ∈ rest.head?, isWordChar c = false ∧ (c = ':' → letters.all Char.isDigit = true)) :
    (⟨o, es, rd, .name start letters.reverse⟩ : Reading).readOn rest =
      (ofName letters).bind fun segment ↦ (⟨o, es, segment :: rd, .literal []⟩ : Reading).readOn rest := by
  cases rest with
  | nil =>
    simp only [readOn_nil, finish, List.reverse_reverse]
    cases ofName letters <;> rfl
  | cons c rest =>
    obtain ⟨hword, hcolon⟩ := h c rfl
    have hregex : ¬(c = ':' ∧ ¬letters.reverse.all Char.isDigit = true) := by
      rintro ⟨hc, hdigits⟩
      rw [List.all_reverse] at hdigits
      exact hdigits (hcolon hc)
    rw [readOn_cons, take]
    simp only [hword, hregex, Bool.false_eq_true, if_false, List.reverse_reverse]
    cases ofName letters with
    | error fault => rfl
    | ok segment => exact (readOn_cons ⟨o, es, segment :: rd, .literal []⟩ c rest).symm

theorem readOn_expression {expression : List Char} (h : ':' ∉ expression) (o start : Nat) (name : String)
    (es : List (List Segment)) (rd : List Segment) (first rest : List Char) : ∃ o', (⟨o, es, rd, .regex start name first⟩ : Reading).readOn (expression ++ rest) =
      (⟨o', es, rd, .regex start name (expression.reverse ++ first)⟩ : Reading).readOn rest := by
  induction expression generalizing o first with
  | nil => exact ⟨o, rfl⟩
  | cons c expression ih =>
    obtain ⟨hc, hexpression⟩ := not_or.mp (mt List.mem_cons.mpr h)
    obtain ⟨o', ho'⟩ := ih hexpression _ (c :: first)
    refine ⟨o', ?_⟩
    rw [List.cons_append, readOn_cons, take]
    simp only [Ne.symm hc, if_false]
    rw [List.reverse_cons, List.append_assoc, List.singleton_append, ← ho']
    rfl

/-- Behind a name that is no position, a colon begins an expression. -/
theorem readOn_regex_pending (hdigits : letters.all Char.isDigit = false) :
    (⟨o, es, rd, .name start letters.reverse⟩ : Reading).readOn (':' :: rest) =
      (⟨o + ':'.utf8Size, es, rd, .regex start (.ofList letters) []⟩ : Reading).readOn rest := by
  have hword : isWordChar ':' = false := rfl
  rw [readOn_cons, take]
  simp only [hword, List.all_reverse, hdigits, Bool.false_eq_true, not_false_eq_true, and_self, if_true, if_false,
    ofReversed, List.reverse_reverse]
  rfl

/-- An expression ends at the next colon. -/
theorem readOn_regex {expression : List Char} (hne : expression ≠ []) (hcolon : ':' ∉ expression) (o start : Nat)
    (name : String) (es : List (List Segment)) (rd : List Segment) (rest : List Char) : ∃ o', (⟨o, es, rd, .regex start name []⟩ : Reading).readOn (expression ++ ':' :: rest) =
      (⟨o', es, .placeholder name (some (.ofList expression)) :: rd, .literal []⟩ : Reading).readOn rest := by
  obtain ⟨o', ho'⟩ := readOn_expression hcolon o start name es rd [] (':' :: rest)
  have hsome : expression.reverse.isEmpty = false := by
    rw [List.isEmpty_reverse]
    exact List.isEmpty_eq_false_iff.mpr hne
  refine ⟨o' + ':'.utf8Size, ?_⟩
  rw [ho', List.append_nil, readOn_cons, take]
  simp only [if_true, hsome, Bool.false_eq_true, if_false, ofReversed, List.reverse_reverse]
  rfl

end Reading

/-! ### Names and positions -/

theorem ofName_name {letters : List Char} (h : letters.all Char.isDigit = false) :
    ofName letters = .ok (.placeholder (.ofList letters) none) :=
  if_neg (Bool.eq_false_iff.mp h)

theorem all_isDigit_position (zeros index : Nat) :
    ∀ c ∈ List.replicate zeros '0' ++ (toString index).toList, c.isDigit = true := by
  intro c hc
  rcases List.mem_append.mp hc with hzero | hdigit
  · rw [List.eq_of_mem_replicate hzero]
    rfl
  · exact Nat.isDigit_of_mem_toDigits (by decide) (by decide) (Nat.toList_repr ▸ hdigit)

theorem readWord_eq_ok_iff {letters : List Char} (hne : letters ≠ []) (hdigits : ∀ c ∈ letters, c.isDigit = true)
    {index : Nat} : Numeral.readWord letters = .ok index ↔
      Nat.ofDigitChars 10 letters 0 = index ∧ index ≤ Nat.pow 2 64 - 1 := by
  obtain ⟨c, rest, rfl⟩ := List.exists_cons_of_ne_nil hne
  rw [Numeral.readWord, Numeral.readNat_of_digits (hdigits c List.mem_cons_self),
    Numeral.accumulate_eq_ok_iff (Nat.zero_le _), and_iff_right hdigits]

/-- An all-digit name is a position exactly if it is the number of one, with zeros in front. -/
theorem ofName_eq_ok_iff {letters : List Char} (hne : letters ≠ []) (hdigits : letters.all Char.isDigit = true)
    {segment : Segment} : ofName letters = .ok segment ↔ ∃ index zeros, segment = .positional index ∧
      (1 ≤ index ∧ index ≤ maxPositional) ∧ letters = List.replicate zeros '0' ++ (toString index).toList := by
  have hall : ∀ c ∈ letters, c.isDigit = true := List.all_eq_true.mp hdigits
  have hvalue (index zeros : Nat) :
      Nat.ofDigitChars 10 (List.replicate zeros '0' ++ (toString index).toList) 0 = index := by
    rw [Numeral.ofDigitChars_zeros, Nat.toString_eq_repr, Nat.toList_repr, Nat.ofDigitChars_ten_toDigits]
  rw [ofName, if_pos hdigits]
  constructor
  · intro h
    cases hread : Numeral.readWord letters with
    | error fault =>
      rw [hread] at h
      cases h
    | ok index =>
      rw [hread] at h
      dsimp only at h
      split at h
      · next hindex =>
        cases h
        obtain ⟨hnumber, -⟩ := (readWord_eq_ok_iff hne hall).mp hread
        obtain ⟨zeros, hzeros⟩ := Numeral.exists_zeros hall (hnumber ▸ hindex.1)
        rw [hnumber] at hzeros
        exact ⟨index, zeros, rfl, hindex, hzeros.trans (by rw [Nat.toString_eq_repr, Nat.toList_repr])⟩
      · cases h
  · rintro ⟨index, zeros, rfl, hindex, rfl⟩
    have hlimit : index ≤ Nat.pow 2 64 - 1 := Nat.le_trans hindex.2 (by decide)
    rw [(readWord_eq_ok_iff hne hall).mpr ⟨hvalue index zeros, hlimit⟩]
    exact if_pos hindex

/-! ### Reading what spells a tree -/

/-- The segment ends where this text begins. -/
def Cut : Segment → List Char → Prop
  | .literal _, rest => startsPart rest = true
  | .placeholder _ none, rest => ∀ c ∈ rest.head?, isWordChar c = false ∧ c ≠ ':'
  | .positional _, rest => ∀ c ∈ rest.head?, isWordChar c = false
  | _, _ => True

/-- The text has ended, or the group has. -/
def Ends (rest : List Char) : Prop :=
  rest = [] ∨ ∃ tail, rest = ']' :: tail

theorem Ends.startsPart {rest : List Char} (h : Ends rest) : startsPart rest = true := by
  rcases h with rfl | ⟨tail, rfl⟩ <;> rfl

theorem cut_of_parted {segment : Segment} {segments : List Segment} {v rest : List Char}
    (hparted : Parted segment segments) (hcanonical : CanonicalAll segments) (hv : SpellsAll segments v)
    (hrest : Ends rest) : Cut segment (v ++ rest) := by
  have hhead (P : Char → Prop) (hclose : P ']') (h : ∀ c ∈ (printAll segments).toList.head?, P c) :
      ∀ c ∈ (v ++ rest).head?, P c := by
    intro c hc
    rw [List.head?_append, Option.mem_def, Option.or_eq_some_iff] at hc
    rcases hc with hc | ⟨-, hc⟩
    · exact h c (head?_spellsAll hv ▸ hc)
    · rcases hrest with rfl | ⟨tail, rfl⟩
      · cases hc
      · cases hc
        exact hclose
  cases segment with
  | literal text =>
    cases segments with
    | nil =>
      obtain rfl : v = [] := hv
      exact hrest.startsPart
    | cons next segments =>
      obtain ⟨u, w, rfl, hu, -⟩ := hv
      rw [Cut, List.append_assoc]
      refine startsPart_of_canonical hcanonical.1 ?_ hu _
      rintro text rfl
      exact hparted
  | placeholder name regex =>
    cases regex with
    | none => exact hhead _ ⟨rfl, by decide⟩ hparted
    | some expression => trivial
  | positional index => exact hhead _ rfl hparted
  | optional inner => trivial

theorem flush_reverse {u : List Char} (h : u ≠ []) (rd : List Segment) :
    flush u.reverse rd = .literal (.ofList u) :: rd := by
  rw [flush, if_neg (by simpa using h), ofReversed, List.reverse_reverse]

namespace Reading

mutual

theorem readOn_spelled {segment : Segment} {s rest : List Char} (hcanonical : Canonical segment) (hs : Spells segment s)
    (hcut : Cut segment rest) (o : Nat) (es : List (List Segment)) (rd : List Segment) :
    ∃ o', (⟨o, es, rd, .literal []⟩ : Reading).readOn (s ++ rest) =
      (⟨o', es, segment :: rd, .literal []⟩ : Reading).readOn rest := by
  cases segment with
  | literal text =>
    obtain rfl : s = text.toList := hs
    obtain ⟨hne, hliteral⟩ := hcanonical
    have hword : ∀ d ∈ rest.head?, isWordChar d = false := by
      intro d hd
      cases rest with
      | nil => cases hd
      | cons c rest =>
        cases hd
        exact isWordChar_of_startsPart hcut
    obtain ⟨o', ho'⟩ := readOn_literal hliteral hword o es rd []
    refine ⟨o', ?_⟩
    rw [ho', readOn_flush hcut, List.append_nil, flush_reverse hne, String.ofList_toList]
  | placeholder name regex =>
    obtain rfl : s = _ := hs
    obtain ⟨hname, hdigits, hregex⟩ := hcanonical
    rw [toList_print_placeholder]
    cases regex with
    | none =>
      obtain ⟨o', ho'⟩ := readOn_name hname o es rd rest
      refine ⟨o', ?_⟩
      simp only [Option.map_none, Option.getD_none, List.append_nil, List.cons_append]
      rw [ho', readOn_bare fun c hc ↦ ⟨(hcut c hc).1, fun h ↦ absurd h (hcut c hc).2⟩, ofName_name hdigits,
        String.ofList_toList]
      rfl
    | some expression =>
      obtain ⟨hne, hcolon⟩ := hregex expression rfl
      obtain ⟨o', ho'⟩ := readOn_name hname o es rd (':' :: (expression.toList ++ ':' :: rest))
      obtain ⟨o'', ho''⟩ := readOn_regex hne hcolon (o' + ':'.utf8Size) o name es rd rest
      refine ⟨o'', ?_⟩
      simp only [Option.map_some, Option.getD_some, List.cons_append, List.append_assoc, List.nil_append]
      rw [ho', readOn_regex_pending hdigits, String.ofList_toList, ho'', String.ofList_toList]
  | positional index =>
    obtain ⟨zeros, rfl⟩ := hs
    have hdigits := all_isDigit_position zeros index
    have hletters : AreLetters (List.replicate zeros '0' ++ (toString index).toList) := by
      refine ⟨fun h ↦ ?_, fun c hc ↦ ?_⟩
      · have hindex := (List.append_eq_nil_iff.mp h).2
        rw [Nat.toString_eq_repr, Nat.toList_repr] at hindex
        exact Nat.toDigits_ne_nil hindex
      · simp [isWordChar, Char.isAlphanum, hdigits c hc]
    obtain ⟨o', ho'⟩ := readOn_name hletters o es rd rest
    refine ⟨o', ?_⟩
    have hall := List.all_eq_true.mpr hdigits
    rw [List.cons_append, ho', readOn_bare fun c hc ↦ ⟨hcut c hc, fun _ ↦ hall⟩,
      (ofName_eq_ok_iff hletters.1 hall).mpr ⟨index, zeros, rfl, hcanonical, rfl⟩]
    rfl
  | optional inner =>
    obtain ⟨u, rfl, hu⟩ := hs
    obtain ⟨o', ho'⟩ := readOn_spelledAll hcanonical hu (.inr ⟨rest, rfl⟩) (o + '['.utf8Size) (rd :: es) []
    refine ⟨o' + ']'.utf8Size, ?_⟩
    rw [List.cons_append, List.append_assoc, List.singleton_append, readOn_open]
    refine Eq.trans ho' ?_
    rw [readOn_close, List.append_nil]
    simp [flush]

/-- Assumes: a canonical tree and a text that spells it. The text is read as the tree. -/
theorem readOn_spelledAll {segments : List Segment} {s rest : List Char} (hcanonical : CanonicalAll segments)
    (hs : SpellsAll segments s) (hrest : Ends rest) (o : Nat) (es : List (List Segment)) (rd : List Segment) :
    ∃ o', (⟨o, es, rd, .literal []⟩ : Reading).readOn (s ++ rest) =
      (⟨o', es, segments.reverse ++ rd, .literal []⟩ : Reading).readOn rest := by
  cases segments with
  | nil =>
    obtain rfl : s = [] := hs
    exact ⟨o, rfl⟩
  | cons segment segments =>
    obtain ⟨u, v, rfl, hu, hv⟩ := hs
    obtain ⟨hsegment, hparted, hsegments⟩ := hcanonical
    obtain ⟨o', ho'⟩ := readOn_spelled hsegment hu (cut_of_parted hparted hsegments hv hrest) o es rd
    obtain ⟨o'', ho''⟩ := readOn_spelledAll hsegments hv hrest o' es (segment :: rd)
    refine ⟨o'', ?_⟩
    rw [List.append_assoc, ho', ho'', List.reverse_cons, List.append_assoc, List.singleton_append]

end

end Reading

/-! ### What is read spells a tree -/

theorem parted_of_cut {segment : Segment} {segments : List Segment} {v rest : List Char} (hcut : Cut segment (v ++ rest))
    (hv : SpellsAll segments v)
    (hfirst : startsPart (v ++ rest) = true → ∀ text, segments.head? ≠ some (.literal text)) :
    Parted segment segments := by
  have hhead {c : Char} (hc : c ∈ (printAll segments).toList.head?) : c ∈ (v ++ rest).head? := by
    rw [List.head?_append, head?_spellsAll hv, Option.mem_def.mp hc]
    rfl
  cases segment with
  | literal text =>
    cases segments with
    | nil => trivial
    | cons next segments =>
      cases next with
      | literal text => exact absurd rfl (hfirst hcut text)
      | _ => trivial
  | placeholder name regex =>
    cases regex with
    | none => exact fun c hc ↦ hcut c (hhead hc)
    | some expression => trivial
  | positional index => exact fun c hc ↦ hcut c (hhead hc)
  | optional inner => trivial

namespace Reading

/-- What happens behind the segments of the innermost open group: the text ends, or the group does and reading goes on. -/
def Continues (es : List (List Segment)) (segments : List Segment) (rest : List Char) (t : List Segment) : Prop :=
  (rest = [] ∧ es = [] ∧ t = segments) ∨
  ∃ o outer enclosing tail, rest = ']' :: tail ∧ es = outer :: enclosing ∧
    (⟨o, enclosing, .optional segments :: outer, .literal []⟩ : Reading).readOn tail = .ok t

/-- A text is read as `t` since it begins with a canonical tree. -/
structure Reads (es : List (List Segment)) (rd t : List Segment) (cs : List Char) (segments : List Segment)
    (u rest : List Char) : Prop where
  split : cs = u ++ rest
  canonical : CanonicalAll segments
  spells : SpellsAll segments u
  first : startsPart cs = true → ∀ text, segments.head? ≠ some (.literal text)
  continues : Continues es (rd.reverse ++ segments) rest t

variable {es : List (List Segment)} {rd t : List Segment} {cs : List Char}

theorem Reads.cons {segment : Segment} {segments : List Segment} {s u rest : List Char}
    (h : Reads es (segment :: rd) t cs segments u rest) (hcanonical : Canonical segment) (hs : Spells segment s)
    (hcut : Cut segment cs) (hfirst : startsPart (s ++ cs) = true → ∀ text, segment ≠ .literal text) :
    Reads es rd t (s ++ cs) (segment :: segments) (s ++ u) rest where
  split := by rw [h.split, List.append_assoc]
  canonical := by
    refine ⟨hcanonical, parted_of_cut (h.split ▸ hcut) h.spells ?_, h.canonical⟩
    exact h.split ▸ h.first
  spells := ⟨s, u, rfl, hs, h.spells⟩
  first hstart text heq := hfirst hstart text (Option.some.inj heq)
  continues := by
    have hcontinues := h.continues
    rwa [List.reverse_cons, List.append_assoc, List.singleton_append] at hcontinues

/-- Reading stops at an escape without a character. -/
theorem readOn_dangling {o : Nat} {text : List Char} :
    (⟨o, es, rd, .literal text⟩ : Reading).readOn ['\\'] = .error .danglingEscape :=
  rfl

theorem eq_of_readOn_nil {o : Nat} (h : (⟨o, es, rd, .literal []⟩ : Reading).readOn [] = .ok t) :
    es = [] ∧ t = rd.reverse := by
  cases es with
  | nil =>
    cases h
    exact ⟨rfl, rfl⟩
  | cons outer es => cases h

theorem readOn_regex_ok {o start : Nat} {name : String}
    (h : (⟨o, es, rd, .regex start name []⟩ : Reading).readOn cs = .ok t) :
    ∃ o' expression rest, cs = expression ++ ':' :: rest ∧ expression ≠ [] ∧ ':' ∉ expression ∧
      (⟨o', es, .placeholder name (some (.ofList expression)) :: rd, .literal []⟩ : Reading).readOn rest = .ok t := by
  have hcolon : ':' ∉ cs.takeWhile (· != ':') := fun hmem ↦
    absurd (List.all_eq_true.mp List.all_takeWhile _ hmem) (by decide)
  have hsplit := (List.takeWhile_append_dropWhile (p := (· != ':')) (l := cs)).symm
  have hhead := List.head?_dropWhile_not (· != ':') cs
  generalize cs.takeWhile (· != ':') = expression at hcolon hsplit
  generalize cs.dropWhile (· != ':') = after at hsplit hhead
  obtain ⟨o', ho'⟩ := readOn_expression hcolon o start name es rd [] after
  cases after with
  | nil =>
    rw [hsplit, ho'] at h
    cases h
  | cons d rest =>
    obtain rfl : d = ':' := by simpa using hhead
    cases expression with
    | nil =>
      rw [hsplit, ho', readOn_cons] at h
      cases h
    | cons c expression =>
      obtain ⟨o'', ho''⟩ := readOn_regex (List.cons_ne_nil c expression) hcolon o start name es rd rest
      exact ⟨o'', _, rest, hsplit, List.cons_ne_nil c expression, hcolon, by rwa [hsplit, ho''] at h⟩

/-- A text begins with a spelled segment, behind which it is read on. -/
def Fronted (es : List (List Segment)) (rd t : List Segment) (cs : List Char) : Prop :=
  ∃ o segment s rest, cs = s ++ rest ∧ s ≠ [] ∧ Canonical segment ∧ Spells segment s ∧ Cut segment rest ∧
    (startsPart cs = true → ∀ text, segment ≠ .literal text) ∧
    (⟨o, es, segment :: rd, .literal []⟩ : Reading).readOn rest = .ok t

theorem fronted_of_not_startsPart {o : Nat} (h : (⟨o, es, rd, .literal []⟩ : Reading).readOn cs = .ok t)
    (hcs : startsPart cs = false) : Fronted es rd t cs := by
  obtain ⟨u, rest, rfl, hu, hrest⟩ := exists_literal cs
  rcases hrest with hrest | rfl
  · have hne : u ≠ [] := by
      rintro rfl
      exact Bool.noConfusion (hcs.symm.trans hrest)
    have hword : ∀ d ∈ rest.head?, isWordChar d = false := by
      intro d hd
      cases rest with
      | nil => cases hd
      | cons c rest =>
        cases hd
        exact isWordChar_of_startsPart hrest
    obtain ⟨o', ho'⟩ := readOn_literal hu hword o es rd []
    rw [ho', readOn_flush hrest, List.append_nil, flush_reverse hne] at h
    refine ⟨o', .literal (.ofList u), u, rest, rfl, hne, ?_, String.toList_ofList.symm, hrest, fun hstart ↦ ?_, h⟩
    · rw [Canonical, String.toList_ofList]
      exact ⟨hne, hu⟩
    · exact Bool.noConfusion (hcs.symm.trans hstart)
  · have hdangling : ∀ d ∈ ['\\'].head?, isWordChar d = false := by
      intro d hd
      cases hd
      rfl
    obtain ⟨o', ho'⟩ := readOn_literal hu hdangling o es rd []
    rw [ho', readOn_dangling] at h
    cases h

theorem fronted_placeholder {o : Nat} {c : Char} {more : List Char} (hc : isWordChar c = true)
    (h : (⟨o, es, rd, .literal []⟩ : Reading).readOn (':' :: c :: more) = .ok t) : Fronted es rd t (':' :: c :: more) := by
  have hletters : AreLetters ((c :: more).takeWhile isWordChar) := by
    refine ⟨?_, List.all_eq_true.mp List.all_takeWhile⟩
    rw [List.takeWhile_cons_of_pos hc]
    exact List.cons_ne_nil _ _
  have hsplit := (List.takeWhile_append_dropWhile (p := isWordChar) (l := c :: more)).symm
  have hhead := List.head?_dropWhile_not isWordChar (c :: more)
  generalize (c :: more).takeWhile isWordChar = letters at hletters hsplit
  generalize (c :: more).dropWhile isWordChar = after at hsplit hhead
  rw [hsplit] at h ⊢
  obtain ⟨o', ho'⟩ := readOn_name hletters o es rd after
  rw [ho'] at h
  by_cases hregex : after.head? = some ':' ∧ letters.all Char.isDigit = false
  · obtain ⟨hcolon, hdigits⟩ := hregex
    obtain ⟨after, rfl⟩ := List.head?_eq_some_iff.mp hcolon
    rw [readOn_regex_pending hdigits] at h
    obtain ⟨o'', expression, rest, rfl, hne, hcolon, h⟩ := readOn_regex_ok h
    refine ⟨o'', .placeholder (.ofList letters) (some (.ofList expression)),
      ':' :: (letters ++ ':' :: (expression ++ [':'])), rest, by simp, List.cons_ne_nil _ _, ?_, ?_, trivial,
      fun _ _ ↦ nofun, h⟩
    · refine ⟨isName_ofList hletters, by rwa [String.toList_ofList], fun own hown ↦ ?_⟩
      cases hown
      rw [String.toList_ofList]
      exact ⟨hne, hcolon⟩
    · rw [Spells, toList_print_placeholder, String.toList_ofList]
      simp
  · have hbare : ∀ d ∈ after.head?, isWordChar d = false ∧ (d = ':' → letters.all Char.isDigit = true) := by
      intro d hd
      rw [Option.mem_def.mp hd] at hhead hregex
      refine ⟨hhead, ?_⟩
      rintro rfl
      simpa using hregex
    rw [readOn_bare hbare] at h
    obtain ⟨segment, hsegment, hbehind⟩ := bind_eq_ok.mp h
    cases hdigits : letters.all Char.isDigit with
    | true =>
      obtain ⟨index, zeros, rfl, hindex, rfl⟩ := (ofName_eq_ok_iff hletters.1 hdigits).mp hsegment
      exact ⟨o', .positional index, ':' :: (List.replicate zeros '0' ++ (toString index).toList), after, rfl,
        List.cons_ne_nil _ _, hindex, ⟨zeros, rfl⟩, fun d hd ↦ (hbare d hd).1, fun _ _ ↦ nofun, hbehind⟩
    | false =>
      rw [ofName_name hdigits] at hsegment
      cases hsegment
      refine ⟨o', .placeholder (.ofList letters) none, ':' :: letters, after, rfl, List.cons_ne_nil _ _, ?_, ?_, ?_,
        fun _ _ ↦ nofun, hbehind⟩
      · exact ⟨isName_ofList hletters, by rwa [String.toList_ofList], nofun⟩
      · rw [Spells, toList_print_placeholder, String.toList_ofList]
        simp
      · refine fun d hd ↦ ⟨(hbare d hd).1, ?_⟩
        rintro rfl
        exact Bool.noConfusion (hdigits.symm.trans ((hbare ':' hd).2 rfl))

/-- Assumes: a text that is read to its end. It spells a canonical tree up to the end of the innermost open group. -/
theorem exists_reads {o : Nat} {es : List (List Segment)} {rd t : List Segment} {cs : List Char}
    (h : (⟨o, es, rd, .literal []⟩ : Reading).readOn cs = .ok t) : ∃ segments u rest, Reads es rd t cs segments u rest := by
  induction hn : cs.length using Nat.strongRecOn generalizing o es rd cs with
  | ind n ih =>
    subst hn
    have hfronted (hcs : Fronted es rd t cs) : ∃ segments u rest, Reads es rd t cs segments u rest := by
      obtain ⟨o', segment, s, rest, rfl, hne, hcanonical, hs, hcut, hfirst, hbehind⟩ := hcs
      have hlength : rest.length < (s ++ rest).length := by
        rw [List.length_append]
        exact Nat.lt_add_of_pos_left (List.length_pos_iff.mpr hne)
      obtain ⟨segments, u, rest', hreads⟩ := ih _ hlength hbehind rfl
      exact ⟨_, _, _, hreads.cons hcanonical hs hcut hfirst⟩
    cases hstart : startsPart cs with
    | false => exact hfronted (fronted_of_not_startsPart h hstart)
    | true =>
      unfold startsPart at hstart
      split at hstart
      · obtain ⟨rfl, rfl⟩ := eq_of_readOn_nil h
        exact ⟨[], [], [], rfl, trivial, rfl, fun _ _ ↦ nofun, .inl ⟨rfl, rfl, (List.append_nil _).symm⟩⟩
      · next tail =>
        rw [readOn_open] at h
        obtain ⟨inner, u, rest, hinner⟩ := ih _ (Nat.lt_succ_self _) h rfl
        obtain ⟨-, hes, -⟩ | ⟨o', outer, enclosing, rest, rfl, hes, hbehind⟩ := hinner.continues
        · cases hes
        obtain ⟨rfl, rfl⟩ := List.cons.inj hes
        have hlength : rest.length < ('[' :: tail).length := by
          rw [hinner.split, List.length_cons, List.length_append, List.length_cons]
          omega
        obtain ⟨segments, v, rest', hreads⟩ := ih _ hlength hbehind rfl
        have hsplit : '[' :: tail = ('[' :: (u ++ [']'])) ++ rest := by
          rw [hinner.split]
          simp
        rw [hsplit]
        exact ⟨_, _, _, hreads.cons (s := '[' :: (u ++ [']'])) hinner.canonical ⟨u, rfl, hinner.spells⟩ trivial
          fun _ _ ↦ nofun⟩
      · next tail =>
        refine ⟨[], [], ']' :: tail, rfl, trivial, rfl, fun _ _ ↦ nofun, .inr ?_⟩
        cases es with
        | nil =>
          rw [readOn_unmatched] at h
          cases h
        | cons outer es =>
          rw [readOn_close] at h
          exact ⟨_, outer, es, tail, rfl, rfl, by simpa [flush] using h⟩
      · next c more => exact hfronted (fronted_placeholder hstart h)
      · cases hstart

end Reading

/-! ### Reading decides the grammar -/

variable {text pattern : String} {t : List Segment}

/-- A text is read as a tree exactly if the tree is canonical and the text spells it. -/
theorem read_eq_ok_iff : read text = .ok t ↔ CanonicalAll t ∧ SpellsAll t text.toList := by
  have hread : read text = Reading.start.readOn text.toList := rfl
  rw [hread]
  constructor
  · intro h
    obtain ⟨segments, u, rest, hreads⟩ := Reading.exists_reads h
    obtain ⟨rfl, -, rfl⟩ | ⟨_, _, _, _, -, hes, -⟩ := hreads.continues
    · refine ⟨hreads.canonical, ?_⟩
      rw [hreads.split, List.append_nil]
      exact hreads.spells
    · cases hes
  · rintro ⟨hcanonical, hspells⟩
    obtain ⟨o', ho'⟩ := Reading.readOn_spelledAll hcanonical hspells (.inl rfl) 0 [] []
    rw [List.append_nil, List.append_nil] at ho'
    refine Eq.trans ho' ?_
    rw [Reading.readOn_nil]
    change Except.ok t.reverse.reverse = _
    rw [List.reverse_reverse]

theorem parse_eq_ok_iff_read : parse pattern = .ok t ↔ read pattern = .ok t := by
  unfold parse
  split
  · next heq => rw [heq, Except.ok.injEq, Except.ok.injEq]
  · next heq =>
    rw [heq]
    exact iff_of_false nofun nofun

theorem parse_eq_ok_iff : parse pattern = .ok t ↔ CanonicalAll t ∧ SpellsAll t pattern.toList :=
  parse_eq_ok_iff_read.trans read_eq_ok_iff

/-- Parsing accepts exactly its grammar and loses nothing: a pattern is parsed as a tree exactly if the tree is canonical
and the pattern is its text up to zeros in front of positions; the text of a tree is parsed as it exactly if the tree is
canonical; and a pattern is refused as invalid exactly if it spells no canonical tree. -/
theorem parse_grammar (pattern : String) (t : List Segment) :
    (parse pattern = .ok t ↔ CanonicalAll t ∧ SpellsAll t pattern.toList) ∧
    (parse (printAll t) = .ok t ↔ CanonicalAll t) ∧
    ((∃ fault, parse pattern = .error (.invalidPattern pattern fault)) ↔
      ¬∃ u, CanonicalAll u ∧ SpellsAll u pattern.toList) := by
  refine ⟨parse_eq_ok_iff, parse_eq_ok_iff.trans (and_iff_left (spells_printAll t)), ?_⟩
  constructor
  · rintro ⟨fault, hfault⟩ ⟨u, hu⟩
    rw [parse_eq_ok_iff.mpr hu] at hfault
    cases hfault
  · intro hnone
    have hparse : ∀ u, parse pattern ≠ .ok u := fun u hu ↦ hnone ⟨u, parse_eq_ok_iff.mp hu⟩
    unfold parse at hparse ⊢
    split
    · next u heq =>
      rw [heq] at hparse
      exact absurd rfl (hparse u)
    · next fault heq => exact ⟨fault, rfl⟩

end PathBinding.Segment
