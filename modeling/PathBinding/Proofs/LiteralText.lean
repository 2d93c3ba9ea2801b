import PathBinding.Proofs.Expansion
import PathBinding.Template

/-!
Literals with escapes. A literal goes into the expression of its pattern as it stands, backslashes included, while a path
that is rendered from it has the characters behind the backslashes. What a backslash makes of a character is decided by the
language of expressions. There an ASCII character that is neither a letter nor a digit nor an angle bracket stands for itself
behind a backslash; any other escape stands for another character, a class of characters or a condition on the position, or
takes further characters with it, or is not allowed (`readEscape_cases`). So the two agree on a literal if and only if all
its escapes are of the first sort (`literal_read_as_rendered`).
-/

set_option autoImplicit false
set_option relaxedAutoImplicit false

namespace PathBinding

open Regex

/-! ### Characters with and without backslashes -/

namespace Segment

/-- The characters of a literal from left to right, each with whether a backslash stands in front of it. -/
def marked : List Char → List (Char × Bool)
  | [] => []
  | '\\' :: c :: rest => (c, true) :: marked rest
  | c :: rest => (c, false) :: marked rest

/-- The characters without a backslash in front of them stand for themselves in expressions. -/
def IsBare (text : List Char) : Prop :=
  ∀ m ∈ marked text, m.2 = false → m.1 ∉ syntaxCharacters

instance (text : List Char) : Decidable (IsBare text) :=
  inferInstanceAs (Decidable (∀ m ∈ marked text, m.2 = false → m.1 ∉ syntaxCharacters))

section Marked

variable {c : Char} {text rest : List Char}

theorem marked_cons (hc : c ≠ '\\') (rest : List Char) : marked (c :: rest) = (c, false) :: marked rest := by
  rw [marked]
  exact fun _ _ heq _ ↦ hc heq

theorem marked_append {ds : List Char} (hds : '\\' ∉ ds) (rest : List Char) :
    marked (ds ++ rest) = ds.map (·, false) ++ marked rest := by
  induction ds with
  | nil => rfl
  | cons d ds ih =>
    rw [List.mem_cons, not_or] at hds
    obtain ⟨hd, hds⟩ := hds
    rw [List.cons_append, marked_cons (Ne.symm hd), ih hds]
    rfl

theorem IsBare.head (h : IsBare (c :: rest)) (hend : c = '\\' → rest = []) : c ∉ syntaxCharacters := by
  refine h (c, false) ?_ rfl
  by_cases hc : c = '\\'
  · rw [hend hc, hc]
    exact List.mem_cons_self
  · rw [marked_cons hc]
    exact List.mem_cons_self

/-- A backslash in bare text has a character behind it. -/
theorem IsBare.head_ne_backslash (h : IsBare (c :: rest)) (hnot : ∀ d behind, c = '\\' → rest = d :: behind → False) :
    c ≠ '\\' := by
  rintro rfl
  refine h.head (fun _ ↦ ?_) (by decide)
  cases rest with
  | nil => rfl
  | cons d behind => exact (hnot d behind rfl rfl).elim

theorem IsBare.of_append {ds : List Char} (h : IsBare (ds ++ rest)) (hds : '\\' ∉ ds) : IsBare rest := by
  intro m hm
  refine h m ?_
  rw [marked_append hds]
  exact List.mem_append_right _ hm

theorem IsBare.tail (h : IsBare (c :: rest)) (hc : c ≠ '\\') : IsBare rest := by
  intro m hm
  refine h m ?_
  rw [marked_cons hc]
  exact List.mem_cons_of_mem _ hm

theorem IsBare.behind (h : IsBare ('\\' :: c :: rest)) : IsBare rest :=
  fun m hm ↦ h m (List.mem_cons_of_mem _ hm)

/-- The characters are the text without the backslashes. -/
theorem map_fst_marked (h : IsBare text) : (marked text).map Prod.fst = unescapeChars text := by
  induction text using marked.induct with
  | case1 => rfl
  | case2 c rest ih => rw [marked, unescapeChars, List.map_cons, ih h.behind]
  | case3 c rest hnot ih =>
    have hc := h.head_ne_backslash hnot
    rw [marked_cons hc, List.map_cons, ih (h.tail hc), unescapeChars]
    · exact fun heq _ ↦ hc heq
    · exact fun _ _ heq _ ↦ hc heq

end Marked

/-! ### What an escape takes -/

section Escape

variable {c : Char} {text rest : List Char}

theorem takeHex_cases {count : Nat} {digits : List Char}
    (h : takeHex false count (text ++ [')']) = some (digits, rest)) :
    ∃ behind, text = digits ++ behind ∧ rest = behind ++ [')'] ∧ digits.length = count ∧ '\\' ∉ digits := by
  induction count generalizing text digits with
  | zero =>
    cases h
    exact ⟨text, rfl, rfl, rfl, List.not_mem_nil⟩
  | succ count ih =>
    cases text with
    | nil =>
      rw [List.nil_append, takeHex, if_neg (by decide)] at h
      cases h
    | cons d text =>
      rw [List.cons_append, takeHex] at h
      split at h
      swap
      · cases h
      next hd =>
      obtain ⟨⟨more, rest'⟩, htake, hsame⟩ := Option.map_eq_some_iff.mp h
      cases hsame
      obtain ⟨behind, rfl, rfl, hlength, hmore⟩ := ih htake
      refine ⟨behind, rfl, rfl, congrArg (· + 1) hlength, fun hin ↦ ?_⟩
      rcases List.mem_cons.mp hin with rfl | hin
      · cases hd
      · exact hmore hin

/-- A bare text does not begin with a brace. -/
theorem IsBare.head_ne_brace (h : IsBare text) : (text ++ [')']).head? ≠ some '\x7b' := by
  cases text with
  | nil => decide
  | cons d text =>
    rw [List.cons_append, List.head?_cons]
    intro heq
    cases heq
    exact h.head (fun heq ↦ absurd heq (by decide)) (by decide)

theorem readCode_cases (hbare : IsBare text) {width : Nat} (hwidth : 0 < width)
    (h : readCode false width (text ++ [')']) = some (c, rest)) :
    ∃ digits behind, text = digits ++ behind ∧ rest = behind ++ [')'] ∧ digits ≠ [] ∧ '\\' ∉ digits := by
  unfold readCode at h
  split at h
  · cases h
  · next heq =>
    exact absurd (congrArg List.head? heq) hbare.head_ne_brace
  · obtain ⟨⟨digits, rest'⟩, htake, h⟩ := Option.bind_eq_some_iff.mp h
    obtain ⟨_, -, hsame⟩ := Option.bind_eq_some_iff.mp h
    cases hsame
    obtain ⟨behind, htext, hrest, hlength, hdigits⟩ := takeHex_cases htake
    refine ⟨digits, behind, htext, hrest, ?_, hdigits⟩
    rintro rfl
    exact hwidth.ne hlength

theorem readProperty_cases (hbare : IsBare text) {negated : Bool} {primitive : Primitive}
    (h : readProperty {} negated (text ++ [')']) = some (primitive, rest)) :
    rest = [] ∨ ∃ d behind, text = d :: behind ∧ rest = behind ++ [')'] ∧ d ≠ '\\' := by
  obtain ⟨⟨body, rest'⟩, hbody, h⟩ := Option.bind_eq_some_iff.mp h
  obtain ⟨⟨cls, inequality⟩, -, h⟩ := Option.bind_eq_some_iff.mp h
  obtain ⟨-, -, h⟩ := Option.bind_eq_some_iff.mp h
  obtain ⟨chars, -, hsame⟩ := Option.bind_eq_some_iff.mp h
  cases hsame
  unfold propertyBody at hbody
  split at hbody
  · cases hbody
  · next heq =>
    exact absurd (congrArg List.head? heq) hbare.head_ne_brace
  · next d rest'' _ heq =>
    split at hbody
    · cases hbody
    next hd =>
    cases hbody
    cases text with
    | nil =>
      cases heq
      exact .inl rfl
    | cons e behind =>
      cases heq
      exact .inr ⟨_, behind, rfl, rfl, hd⟩

theorem readWordEdge_of_head {text : List Char} (h : text.head? ≠ some '\x7b') :
    readWordEdge {} text = some (.look (.word .boundary true), text) := by
  unfold readWordEdge
  split
  · exact absurd rfl h
  · rfl

/-- An escape in bare text takes further characters with it, or is a condition on the position, or else it stands by
itself and means the same in front of any text. -/
theorem readEscape_cases (hbare : IsBare text) {primitive : Primitive}
    (h : readEscape {} (c :: (text ++ [')'])) = some (primitive, rest)) :
    rest = [] ∨ (∃ taken behind, text = taken ++ behind ∧ rest = behind ++ [')'] ∧ taken ≠ [] ∧ '\\' ∉ taken) ∨
      rest = text ++ [')'] ∧
        ((∃ condition, primitive = .look condition) ∨ ∀ s, readEscape {} (c :: s) = some (primitive, s)) := by
  have hcode {width : Nat} (hwidth : 0 < width) {meant : Char × List Char → Primitive × List Char}
      (hmeant : ∀ p, (meant p).2 = p.2) (hmap : (readCode false width (text ++ [')'])).map meant = some (primitive, rest)) :
      ∃ taken behind, text = taken ++ behind ∧ rest = behind ++ [')'] ∧ taken ≠ [] ∧ '\\' ∉ taken := by
    obtain ⟨⟨d, rest'⟩, hread, hsame⟩ := Option.map_eq_some_iff.mp hmap
    obtain rfl : rest' = rest := (hmeant _).symm.trans (congrArg Prod.snd hsame)
    exact readCode_cases hbare hwidth hread
  have hproperty {negated : Bool} (hread : readProperty {} negated (text ++ [')']) = some (primitive, rest)) :
      rest = [] ∨ ∃ taken behind, text = taken ++ behind ∧ rest = behind ++ [')'] ∧ taken ≠ [] ∧ '\\' ∉ taken := by
    refine (readProperty_cases hbare hread).imp_right ?_
    rintro ⟨d, behind, rfl, rfl, hd⟩
    exact ⟨[d], behind, rfl, rfl, List.cons_ne_nil _ _, by simpa using Ne.symm hd⟩
  have hcondition {condition : Look} (hread : some (Primitive.look condition, text ++ [')']) = some (primitive, rest)) :
      rest = text ++ [')'] ∧ ∃ condition, primitive = .look condition := by
    cases hread
    exact ⟨rfl, condition, rfl⟩
  unfold readEscape at h
  split at h
  case h_1 => cases h
  case h_2 heq | h_3 heq | h_4 heq =>
    cases heq
    exact .inr (.inl (hcode (by decide) (fun _ ↦ rfl) h))
  case h_5 heq | h_6 heq =>
    cases heq
    exact (hproperty h).imp_right .inl
  case h_9 heq =>
    cases heq
    rw [readWordEdge_of_head hbare.head_ne_brace] at h
    exact .inr (.inr ((hcondition h).imp_right .inl))
  case h_7 heq | h_8 heq | h_10 heq | h_11 heq | h_12 heq =>
    cases heq
    exact .inr (.inr ((hcondition h).imp_right .inl))
  case h_13 hx hu hU hp hP hA hz hb hB hlt hgt heq =>
    cases heq
    refine .inr (.inr ?_)
    cases hshorthand : shorthand? {} c with
    | none =>
      have hread (s : List Char) : readEscape {} (c :: s) = (literalEscape? c).map fun d ↦ (.literal d false, s) := by
        rw [readEscape, hshorthand] <;> first | rfl | assumption
      rw [hshorthand] at h
      obtain ⟨d, hd, hsame⟩ := Option.map_eq_some_iff.mp h
      cases hsame
      exact ⟨rfl, .inr fun s ↦ (hread s).trans (Option.map_eq_some_iff.mpr ⟨d, hd, rfl⟩)⟩
    | some named =>
      have hread (s : List Char) : readEscape {} (c :: s) =
          (negateIf {} named.2 named.1).map fun chars ↦ (.set chars, s) := by
        rw [readEscape, hshorthand] <;> first | rfl | assumption
      rw [hshorthand] at h
      obtain ⟨chars, hchars, hsame⟩ := Option.map_eq_some_iff.mp h
      cases hsame
      exact ⟨rfl, .inr fun s ↦ (hread s).trans (Option.map_eq_some_iff.mpr ⟨chars, hchars, rfl⟩)⟩

end Escape

/-! ### What a literal is read as -/

/-- A single character, or a condition on the position. -/
def IsAtom (r : Regex) : Prop :=
  (∃ chars, r = .set chars) ∨ ∃ condition, r = .look condition

/-- Behind a backslash a character stands for the characters of a set. -/
def EscapesTo (c : Char) (chars : CharSet) : Prop :=
  ∀ s, Token.read {} '\\' (c :: s) = some (.atom (.set chars) 0, s)

/-- What a character of a literal gives that is read by itself. -/
inductive Gives : Char × Bool → Regex → Prop
  | bare {c : Char} : Gives (c, false) (.set (.single c))
  | escaped {c : Char} {chars : CharSet} (h : EscapesTo c chars) : Gives (c, true) (.set chars)

/-- The characters of a literal are read as expressions in a row: one by one, except for escapes that stand for a position
and for escapes that take further characters with them. -/
inductive ReadAs : List (Char × Bool) → List Regex → Prop
  | nil : ReadAs [] []
  | single {m : Char × Bool} {r : Regex} {ms : List (Char × Bool)} {rs : List Regex} (gives : Gives m r)
    (tail : ReadAs ms rs) : ReadAs (m :: ms) (r :: rs)
  | look {m : Char × Bool} {condition : Look} {ms : List (Char × Bool)} {rs : List Regex} (tail : ReadAs ms rs) :
    ReadAs (m :: ms) (.look condition :: rs)
  | several {m : Char × Bool} {r : Regex} {taken ms : List (Char × Bool)} {rs : List Regex} (ne : taken ≠ [])
    (atom : IsAtom r) (tail : ReadAs ms rs) : ReadAs (m :: (taken ++ ms)) (r :: rs)

theorem isAtom_of_primitive {primitive : Primitive} {r : Regex} (h : Token.ofPrimitive? {} primitive = some r) : IsAtom r := by
  cases primitive with
  | literal c byte =>
    cases h
    exact .inl ⟨_, rfl⟩
  | set chars =>
    cases h
    exact .inl ⟨_, rfl⟩
  | look condition =>
    cases h
    exact .inr ⟨_, rfl⟩

section ReadAs

variable {c : Char} {text rest : List Char}

/-- The first token of a bare text with something left behind it. -/
theorem readAs_of_read (hbare : IsBare (c :: text)) {token : Token}
    (h : Token.read {} c (text ++ [')']) = some (token, rest)) (hrest : rest ≠ []) :
    ∃ r behind, token = .atom r 0 ∧ rest = behind ++ [')'] ∧ IsBare behind ∧
      ∀ rs, ReadAs (marked behind) rs → ReadAs (marked (c :: text)) (r :: rs) := by
  by_cases hc : c = '\\'
  swap
  · rw [read_plain (hbare.head fun heq ↦ absurd heq hc)] at h
    cases h
    refine ⟨_, text, rfl, rfl, hbare.tail hc, fun rs hrs ↦ ?_⟩
    rw [marked_cons hc]
    exact .single .bare hrs
  subst hc
  cases text with
  | nil => exact absurd (hbare.head fun _ ↦ rfl) (by decide)
  | cons d text =>
    obtain ⟨⟨primitive, rest'⟩, hescape, h⟩ := Option.bind_eq_some_iff.mp h
    obtain ⟨r, hr, hsame⟩ := Option.bind_eq_some_iff.mp h
    cases hsame
    have hlook (hlook : ∃ condition, r = .look condition) (rs : List Regex) (hrs : ReadAs (marked text) rs) :
        ReadAs (marked ('\\' :: d :: text)) (r :: rs) := by
      obtain ⟨condition, rfl⟩ := hlook
      exact .look hrs
    rcases readEscape_cases hbare.behind hescape with rfl | ⟨taken, behind, rfl, rfl, hne, htaken⟩ | ⟨rfl, hown⟩
    · exact absurd rfl hrest
    · refine ⟨r, behind, rfl, rfl, hbare.behind.of_append htaken, fun rs hrs ↦ ?_⟩
      rw [marked, marked_append htaken]
      exact .several (by simpa using hne) (isAtom_of_primitive hr) hrs
    · refine ⟨r, text, rfl, rfl, hbare.behind, ?_⟩
      rcases hown with ⟨condition, rfl⟩ | hall
      · cases hr
        exact hlook ⟨condition, rfl⟩
      · rcases isAtom_of_primitive hr with ⟨chars, rfl⟩ | hcondition
        · refine fun rs hrs ↦ .single (.escaped fun s ↦ ?_) hrs
          rw [Token.read, hall s]
          exact Option.bind_eq_some_iff.mpr ⟨_, rfl, Option.bind_eq_some_iff.mpr ⟨_, hr, rfl⟩⟩
        · exact hlook hcondition

/-- A bare text in parentheses adds what it is read as. -/
theorem readAs_of_reads {k : Nat} {p q : Parsing} {z : List Char} (hbare : IsBare text) (hflags : p.flags = {})
    (h : Reads k p (text ++ [')']) q z) (hend : skipBlanks q.flags.verbose z = [')']) :
    ∃ parts, q = ⟨{}, p.names, p.enclosing, p.level.pushAll parts⟩ ∧ ReadAs (marked text) (parts.map (·.regex)) := by
  obtain ⟨flags, names, enclosing, level⟩ := p
  cases hflags
  have hz : z ≠ [] := by
    rintro rfl
    cases hverbose : q.flags.verbose <;> simp [hverbose, skipBlanks, dropBlanks] at hend
  generalize hstart : (⟨{}, names, enclosing, level⟩ : Parsing) = p at h
  generalize hx : text ++ [')'] = x at h
  induction h generalizing text level with
  | done =>
    subst hstart hx
    have htext : text = [] := by
      have hlength := congrArg List.length (show text ++ [')'] = [')'] from hend)
      simpa using hlength
    subst htext
    exact ⟨[], rfl, .nil⟩
  | @token k p next q x rest rest' y c token blanks read take tail ih =>
    subst hstart hx
    have hrest : rest' ≠ [] := ne_nil_of_suffix tail.suffix hz
    cases text with
    | nil =>
      cases blanks
      obtain ⟨rfl, rfl⟩ : Token.close = token ∧ [] = rest' := by simpa [Token.read] using read
      exact absurd rfl hrest
    | cons d text =>
      cases blanks
      obtain ⟨r, behind, rfl, rfl, hbehind, hreadAs⟩ := readAs_of_read hbare read hrest
      cases take
      obtain ⟨parts, rfl, hparts⟩ := ih hbehind hend (level.push ⟨r, 0, true⟩) hz rfl rfl
      refine ⟨⟨r, 0, true⟩ :: parts, ?_, hreadAs _ hparts⟩
      simp [Level.pushAll, Level.push]

end ReadAs

/-- The least number of characters that expressions in a row consume. -/
def leastLengths (rs : List Regex) : Nat :=
  rs.foldr (fun r least ↦ r.leastLength + least) 0

theorem leastLengths_cons (r : Regex) (rs : List Regex) : leastLengths (r :: rs) = r.leastLength + leastLengths rs :=
  rfl

namespace ReadAs

variable {ms : List (Char × Bool)} {rs : List Regex}

theorem isAtom (h : ReadAs ms rs) : ∀ r ∈ rs, IsAtom r := by
  induction h with
  | nil => exact nofun
  | single gives _ ih =>
    refine List.forall_mem_cons.mpr ⟨?_, ih⟩
    cases gives <;> exact .inl ⟨_, rfl⟩
  | look _ ih => exact List.forall_mem_cons.mpr ⟨.inr ⟨_, rfl⟩, ih⟩
  | several _ atom _ ih => exact List.forall_mem_cons.mpr ⟨atom, ih⟩

/-- There are not more single characters in the expressions than in the literal, and just as many only if the literal is
read one by one. -/
theorem leastLengths_le (h : ReadAs ms rs) : leastLengths rs ≤ ms.length ∧
    (leastLengths rs = ms.length → List.Forall₂ Gives ms rs) := by
  induction h with
  | nil => exact ⟨Nat.le_refl 0, fun _ ↦ .nil⟩
  | @single m r ms rs gives _ ih =>
    have hr : r.leastLength = 1 := by
      cases gives <;> rfl
    rw [leastLengths_cons, List.length_cons, hr]
    exact ⟨by omega, fun heq ↦ .cons gives (ih.2 (by omega))⟩
  | @look m condition ms rs _ ih =>
    have hr : (Regex.look condition).leastLength = 0 := rfl
    rw [leastLengths_cons, List.length_cons, hr]
    exact ⟨by omega, fun heq ↦ by omega⟩
  | @several m r taken ms rs ne atom _ ih =>
    have hr : r.leastLength ≤ 1 := by
      rcases atom with ⟨chars, rfl⟩ | ⟨condition, rfl⟩
      · exact Nat.le_refl 1
      · exact Nat.zero_le 1
    have htaken := List.length_pos_iff.mpr ne
    rw [leastLengths_cons, List.length_cons, List.length_append]
    exact ⟨by omega, fun heq ↦ by omega⟩

end ReadAs

/-- Single characters and conditions that are read in a row make a sequence. -/
theorem close_pushAll {parts : List Part} (h : ∀ r ∈ parts.map (·.regex), IsAtom r) :
    (Level.empty.pushAll parts).close.regex = sequence (parts.map (·.regex)) := by
  have hclose : (Level.empty.pushAll parts).close = _ := close_reading (List.cons_ne_nil parts [])
  have hunbranched : ∀ r ∈ parts.map (·.regex), Unbranched r := fun r hr ↦ by
    rcases h r hr with ⟨chars, rfl⟩ | ⟨condition, rfl⟩ <;> rfl
  rw [hclose]
  exact alternatives_one rfl (unbranched_sequence hunbranched)

/-- How far single characters and conditions in a row lead. -/
theorem offset_of_run {rs : List Regex} (h : ∀ r ∈ rs, IsAtom r) {ts : List Thread} {u : Thread}
    (hu : u ∈ run none (sequence rs) ts) : ∃ t ∈ ts, u.offset = t.offset + leastLengths rs := by
  rw [run_sequence] at hu
  induction rs generalizing ts with
  | nil => exact ⟨u, hu, rfl⟩
  | cons r rs ih =>
    obtain ⟨hr, hrs⟩ := List.forall_mem_cons.mp h
    obtain ⟨t, ht, hoffset⟩ := ih hrs hu
    rw [leastLengths_cons]
    rcases hr with ⟨chars, rfl⟩ | ⟨condition, rfl⟩
    · obtain ⟨s, hs, hadvance⟩ := List.mem_filterMap.mp ht
      refine ⟨s, hs, ?_⟩
      have hstep : t.offset = s.offset + 1 := by
        unfold Thread.advance? at hadvance
        split at hadvance
        · cases hadvance
        · split at hadvance
          · cases hadvance
            rfl
          · cases hadvance
      rw [hoffset, hstep, leastLength, Nat.add_assoc]
    · refine ⟨t, (List.mem_filter.mp ht).1, ?_⟩
      rw [hoffset, leastLength, Nat.zero_add]

/-- A bare literal that matches a text with as many characters is read one by one. -/
theorem gives_of_fullyMatches {text : String} (hbare : IsBare text.toList) {s : List Char} (hs : FullyMatches text s)
    (hlength : (marked text.toList).length = s.length) :
    ∃ rs, List.Forall₂ Gives (marked text.toList) rs ∧ held? text = some (sequence rs) := by
  obtain ⟨body, hbody, -⟩ := id hs
  obtain ⟨inner, ⟨k, z, hreads, -, hend⟩, rfl⟩ := interior_of_held? hbody
  obtain ⟨parts, rfl, hreadAs⟩ := readAs_of_reads hbare rfl hreads hend
  have hbody' : held? text = some (sequence (parts.map (·.regex))) := close_pushAll hreadAs.isAtom ▸ hbody
  have haccepts := (fullyMatches_of_held hbody' s).mp hs
  obtain ⟨u, hu, hoffset⟩ := mem_offsetsOf.mp haccepts
  obtain ⟨t, ht, hlead⟩ := offset_of_run hreadAs.isAtom hu
  rw [List.mem_singleton.mp ht] at hlead
  have hsum : leastLengths (parts.map (·.regex)) = (marked text.toList).length := by
    rw [hlength, ← hoffset, hlead]
    exact (Nat.zero_add _).symm
  exact ⟨_, hreadAs.leastLengths_le.2 hsum, hbody'⟩

/-! ### Literals that are read one by one -/

section OneByOne

variable {c : Char} {text : List Char}

/-- Wherever a bare text is read without flags whose escapes stand for sets, each of its characters makes a part. -/
theorem reads_literal (hbare : IsBare text) (hescapes : ∀ m ∈ marked text, m.2 = true → ∃ chars, EscapesTo m.1 chars)
    {p : Parsing} (hflags : p.flags = {}) (s : List Char) :
    ∃ parts k, List.Forall₂ Gives (marked text) (parts.map (·.regex)) ∧
      Reads k p (text ++ s) ⟨{}, p.names, p.enclosing, p.level.pushAll parts⟩ s := by
  obtain ⟨flags, names, enclosing, level⟩ := p
  cases hflags
  induction text using marked.induct generalizing level with
  | case1 => exact ⟨[], 0, .nil, .done⟩
  | case2 c rest ih =>
    rw [marked] at hescapes
    obtain ⟨⟨chars, hchars⟩, hrest⟩ := (List.forall_mem_cons.mp hescapes).imp_left fun h ↦ h rfl
    obtain ⟨parts, k, hgives, hk⟩ := ih hbare.behind hrest (level.push ⟨.set chars, 0, true⟩)
    refine ⟨⟨.set chars, 0, true⟩ :: parts, k + 1, .cons (.escaped hchars) hgives, .token rfl (hchars _) rfl ?_⟩
    simpa [Level.pushAll, Level.push] using hk
  | case3 c rest hnot ih =>
    have hc := hbare.head_ne_backslash hnot
    have hsyntax : c ∉ syntaxCharacters := hbare.head fun heq ↦ absurd heq hc
    rw [marked_cons hc] at hescapes ⊢
    obtain ⟨parts, k, hgives, hk⟩ := ih (hbare.tail hc) (List.forall_mem_cons.mp hescapes).2 (level.push (literalPart c))
    refine ⟨literalPart c :: parts, k + 1, .cons .bare hgives, .token rfl (read_plain hsyntax _) rfl ?_⟩
    simpa [Level.pushAll, Level.push, literalPart] using hk

theorem exists_set_of_gives {ms : List (Char × Bool)} {rs : List Regex} (h : List.Forall₂ Gives ms rs) :
    ∀ r ∈ rs, ∃ chars, r = .set chars := by
  induction h with
  | nil => exact nofun
  | cons gives _ ih =>
    refine List.forall_mem_cons.mpr ⟨?_, ih⟩
    cases gives <;> exact ⟨_, rfl⟩

/-- Such a text denotes what its characters give. -/
theorem held?_literal {text : String} (hbare : IsBare text.toList)
    (hescapes : ∀ m ∈ marked text.toList, m.2 = true → ∃ chars, EscapesTo m.1 chars) :
    ∃ rs, List.Forall₂ Gives (marked text.toList) rs ∧ held? text = some (sequence rs) := by
  obtain ⟨parts, k, hgives, hk⟩ := reads_literal hbare hescapes (p := Parsing.start.enter .plain {}) rfl [')']
  refine ⟨_, hgives, ?_⟩
  let scope := (Level.empty.pushAll parts).close
  have hreads : Reads (k + (0 + 1) + 1) .start (heldText text)
      ⟨{}, [], [], Level.empty.push ⟨scope.regex, scope.height + 1, true⟩⟩ [] := by
    have htext : heldText text = '(' :: '?' :: ':' :: (text.toList ++ [')']) := by
      simp [heldText]
    rw [htext]
    exact .token rfl rfl rfl (hk.trans (.token rfl rfl rfl .done))
  have hatoms : ∀ r ∈ parts.map (·.regex), IsAtom r := fun r hr ↦ .inl (exists_set_of_gives hgives r hr)
  rw [held?, part?, hreads.takeAll rfl, ← close_pushAll hatoms]
  rfl

end OneByOne

/-! ### Escapes that stand for themselves -/

/-- The escape of a character, as an expression, matches the character and nothing else. -/
def StandsForItself (c : Char) : Prop :=
  ∀ s, FullyMatches (.ofList ['\\', c]) s ↔ s = [c]

section Escapes

variable {c : Char} {chars : CharSet}

theorem marked_escape (c : Char) : marked (String.ofList ['\\', c]).toList = [(c, true)] := by
  rw [String.toList_ofList]
  rfl

theorem isBare_escape (c : Char) : IsBare (String.ofList ['\\', c]).toList := by
  intro m hm
  rw [marked_escape, List.mem_singleton] at hm
  subst hm
  exact nofun

theorem fullyMatches_escape (h : EscapesTo c chars) (s : List Char) :
    FullyMatches (.ofList ['\\', c]) s ↔ (Regex.set chars).Accepts s := by
  have hescapes : ∀ m ∈ marked (String.ofList ['\\', c]).toList, m.2 = true → ∃ chars, EscapesTo m.1 chars := by
    rw [marked_escape]
    exact List.forall_mem_singleton.mpr fun _ ↦ ⟨chars, h⟩
  obtain ⟨rs, hgives, hheld⟩ := held?_literal (isBare_escape c) hescapes
  rw [marked_escape] at hgives
  cases hgives with
  | cons gives rest =>
    cases rest
    cases gives with
    | @escaped _ own hown =>
      have hsame := (hown []).symm.trans (h [])
      cases hsame
      exact fullyMatches_of_held hheld s

/-- An escape that stands for its character is read as a set. -/
theorem StandsForItself.escapesTo (h : StandsForItself c) :
    ∃ chars, EscapesTo c chars ∧ ∀ s, (Regex.set chars).Accepts s ↔ s = [c] := by
  obtain ⟨rs, hgives, -⟩ := gives_of_fullyMatches (isBare_escape c) ((h [c]).mpr rfl) (by rw [marked_escape]; rfl)
  rw [marked_escape] at hgives
  cases hgives with
  | cons gives rest =>
    cases gives with
    | escaped hown => exact ⟨_, hown, fun s ↦ (fullyMatches_escape hown s).symm.trans (h s)⟩

theorem accepts_single (c : Char) (s : List Char) : (Regex.set (.single c)).Accepts s ↔ s = [c] := by
  rw [accepts_set]
  constructor
  · rintro ⟨d, rfl, hd⟩
    rw [(single_contains c d).mp hd]
  · rintro rfl
    exact ⟨c, rfl, (single_contains c c).mpr rfl⟩

theorem standsForItself_of_isEscapable (h : isEscapable c = true) : StandsForItself c :=
  fun s ↦ (fullyMatches_escape (fun _ ↦ read_escaped h _) s).trans (accepts_single c s)

theorem literalEscape?_eq_some {d : Char} (h : literalEscape? c = some d) : isEscapable c = true ∨ d ≠ c := by
  unfold literalEscape? at h
  split at h
  iterate 6
    cases h
    exact .inr (by decide)
  split at h
  · next hc => exact .inl hc
  · cases h

/-- Only ASCII characters that are neither letters nor digits nor angle brackets stand for themselves behind a backslash,
apart from the letters of classes, which stand for the characters of the class. -/
theorem StandsForItself.isEscapable (h : StandsForItself c) : isEscapable c = true ∨ (shorthand? {} c).isSome := by
  obtain ⟨chars, hchars, hown⟩ := h.escapesTo
  obtain ⟨⟨primitive, rest⟩, hescape, hread⟩ := Option.bind_eq_some_iff.mp (hchars [])
  obtain ⟨r, hr, hsame⟩ := Option.bind_eq_some_iff.mp hread
  cases hsame
  cases hshorthand : shorthand? {} c with
  | some named => exact .inr rfl
  | none =>
    refine .inl ?_
    unfold readEscape at hescape
    split at hescape
    -- These take further characters, and there are none.
    case h_1 heq => cases heq
    case h_2 heq | h_3 heq | h_4 heq | h_5 heq | h_6 heq =>
      cases heq
      cases hescape
    -- These are conditions on the position.
    case h_7 heq | h_8 heq | h_9 heq | h_10 heq | h_11 heq | h_12 heq =>
      cases heq
      cases hescape
      cases hr
    case h_13 heq =>
      cases heq
      rw [hshorthand] at hescape
      obtain ⟨d, hd, hsame⟩ := Option.map_eq_some_iff.mp hescape
      cases hsame
      cases hr
      have hsingle := (hown [d]).mp ((accepts_single d [d]).mpr rfl)
      exact (literalEscape?_eq_some hd).resolve_right fun hne ↦ hne (List.cons.inj hsingle).1

/-- Single characters in a row accept one text only if each of them accepts one character only. -/
theorem exact_cons {cs : List Char} {rs : List Regex} (hrs : ∀ r ∈ rs, ∃ chars, r = .set chars) :
    (∀ s, (sequence (.set chars :: rs)).Accepts s ↔ s = c :: cs) ↔
      (∀ s, (Regex.set chars).Accepts s ↔ s = [c]) ∧ ∀ s, (sequence rs).Accepts s ↔ s = cs := by
  have hfree : ∀ r ∈ rs, r.lookFree = true := fun r hr ↦ by
    obtain ⟨own, rfl⟩ := hrs r hr
    rfl
  simp only [accepts_sequence_cons (r := .set chars) rfl hfree]
  constructor
  · intro hall
    obtain ⟨u, v, huv, hu, hv⟩ := (hall (c :: cs)).mpr rfl
    obtain ⟨d, rfl, -⟩ := (accepts_set chars u).mp hu
    obtain ⟨rfl, rfl⟩ : c = d ∧ cs = v := List.cons.inj huv
    refine ⟨fun s ↦ ⟨fun hs ↦ ?_, fun hs ↦ hs ▸ hu⟩, fun s ↦ ⟨fun hs ↦ ?_, fun hs ↦ hs ▸ hv⟩⟩
    · exact List.append_cancel_right ((hall (s ++ cs)).mp ⟨s, cs, rfl, hs, hv⟩)
    · exact List.append_cancel_left ((hall ([c] ++ s)).mp ⟨[c], s, rfl, hu, hs⟩)
  · rintro ⟨hfirst, hrest⟩ s
    constructor
    · rintro ⟨u, v, rfl, hu, hv⟩
      rw [(hfirst u).mp hu, (hrest v).mp hv]
      rfl
    · rintro rfl
      exact ⟨[c], cs, rfl, (hfirst [c]).mpr rfl, (hrest cs).mpr rfl⟩

theorem exact_iff {ms : List (Char × Bool)} {rs : List Regex} (h : List.Forall₂ Gives ms rs) :
    (∀ s, (sequence rs).Accepts s ↔ s = ms.map Prod.fst) ↔ ∀ m ∈ ms, m.2 = true → StandsForItself m.1 := by
  induction h with
  | nil => exact ⟨fun _ ↦ nofun, fun _ s ↦ accepts_empty s⟩
  | @cons m r ms rs gives htail ih =>
    rw [List.forall_mem_cons, ← ih, List.map_cons]
    cases gives <;> rw [exact_cons (exists_set_of_gives htail)]
    case bare => exact and_congr_left fun _ ↦ iff_of_true (accepts_single _) nofun
    case escaped hescapes =>
      refine and_congr_left fun _ ↦ ?_
      exact (forall_congr' fun s ↦ iff_congr (fullyMatches_escape hescapes s).symm Iff.rfl).trans
        ⟨fun hc _ ↦ hc, fun hc ↦ hc rfl⟩

end Escapes

/-- Assumes: the characters of a literal without a backslash in front of them stand for themselves in expressions. The
literal goes into the expression of a pattern as it stands, and into a rendered path without its backslashes. The expression
matches what is rendered and nothing else if and only if each of the escapes alone stands for itself. The ASCII characters
that are neither letters nor digits nor angle brackets do so, and no others but possibly the letters of classes. -/
theorem literal_read_as_rendered {text : String} (hbare : IsBare text.toList) :
    (∀ (context : Fragment.Context) (draft : Fragment.Draft),
      Fragment.segment context draft (.literal text) = .ok (draft.text text)) ∧
    (∀ (context : Template.Context) (inGroup : Bool) (draft : Template.Draft),
      Template.segment context inGroup draft (.literal text) = .ok (draft.text (unescape text))) ∧
    ((∀ s : String, FullyMatches text s.toList ↔ s = unescape text) ↔
      ∀ m ∈ marked text.toList, m.2 = true → StandsForItself m.1) ∧
    ∀ c, (isEscapable c = true → StandsForItself c) ∧
      (StandsForItself c → isEscapable c = true ∨ (shorthand? {} c).isSome = true) := by
  refine ⟨fun _ _ ↦ rfl, fun _ _ _ ↦ rfl, ?_, fun c ↦ ⟨standsForItself_of_isEscapable, StandsForItself.isEscapable⟩⟩
  have hlist : (∀ s : String, FullyMatches text s.toList ↔ s = unescape text) ↔
      ∀ s, FullyMatches text s ↔ s = (marked text.toList).map Prod.fst := by
    rw [map_fst_marked hbare]
    constructor
    · intro h s
      rw [← String.toList_ofList (l := s), h, unescape, ← String.toList_inj, String.toList_ofList, String.toList_ofList]
    · intro h s
      rw [h, unescape, ← String.toList_inj, String.toList_ofList]
  rw [hlist]
  constructor
  · intro h
    obtain ⟨rs, hgives, hheld⟩ := gives_of_fullyMatches hbare ((h _).mpr rfl) (List.length_map _).symm
    exact (exact_iff hgives).mp fun s ↦ (fullyMatches_of_held hheld s).symm.trans (h s)
  · intro h s
    obtain ⟨rs, hgives, hheld⟩ := held?_literal hbare fun m hm hescaped ↦
      (h m hm hescaped).escapesTo.imp fun _ hchars ↦ hchars.1
    exact (fullyMatches_of_held hheld s).trans ((exact_iff hgives).mpr h s)

/-- A hyphen behind a backslash is a hyphen in paths and in expressions, but the letter is a line feed in expressions. -/
theorem literal_read_as_rendered_letter : IsBare "a\\-b".toList ∧ IsBare "\\new".toList ∧
    (∀ s : String, FullyMatches "a\\-b" s.toList ↔ s = "a-b") ∧
    unescape "\\new" = "new" ∧ ¬FullyMatches "\\new" "new".toList ∧ FullyMatches "\\new" "\new".toList ∧
    ¬∀ s : String, FullyMatches "\\new" s.toList ↔ s = "new" := by
  have hhyphen : IsBare "a\\-b".toList := by decide +kernel
  have hletter : IsBare "\\new".toList := by decide +kernel
  obtain ⟨-, -, hexact, hstands⟩ := literal_read_as_rendered hhyphen
  obtain ⟨-, -, hdiffers, -⟩ := literal_read_as_rendered hletter
  have hescapable : ∀ m ∈ marked "a\\-b".toList, m.2 = true → isEscapable m.1 = true := by decide +kernel
  have hescaped : ('n', true) ∈ marked "\\new".toList := by decide +kernel
  refine ⟨hhyphen, hletter, hexact.mpr fun m hm hm' ↦ (hstands m.1).1 (hescapable m hm hm'), by decide +kernel,
    by decide +kernel, by decide +kernel, fun h ↦ ?_⟩
  rcases (hstands 'n').2 (hdiffers.mp h ('n', true) hescaped rfl) with h | h
  · cases h
  · cases h

end Segment

end PathBinding
