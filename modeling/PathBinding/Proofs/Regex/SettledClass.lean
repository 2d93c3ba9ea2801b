import PathBinding.Proofs.Regex.Settled

/-!
Bracketed classes in a text that goes on. A class ends with its own bracket, so what stands behind it does not matter. The
one place where text behind a class could be mistaken for a part of it is a name such as `:alpha:]` that is not complete
yet; but then a bracket that closes the class stands inside the name, and no class has such a name.
-/

set_option autoImplicit false
set_option relaxedAutoImplicit false

namespace PathBinding.Regex.Bracket

variable {flags : Flags}

/-! ### Named classes -/

theorem asciiClass?_eq_none {name : List Char} (h : ']' ∈ name) : asciiClass? (.ofList name) = none := by
  have hne (known : String) (hknown : ']' ∉ known.toList) : String.ofList name ≠ known := by
    rintro rfl
    exact hknown (by rwa [String.toList_ofList])
  unfold asciiClass?
  split
  all_goals first
    | rfl
    | next heq => exact absurd heq (hne _ (by decide))

theorem namedClass_extend {negated inverted : Bool} {x y : List Char} {chars : CharSet}
    (h : namedClass negated x = some (chars, inverted, y)) :
    y <:+ x ∧ ∀ s, namedClass negated (x ++ s) = some (chars, inverted, y ++ s) := by
  unfold namedClass at h
  rw [List.span_eq_takeWhile_dropWhile] at h
  split at h
  · next name rest hspan =>
    obtain ⟨cls, hcls, hsame⟩ := Option.map_eq_some_iff.mp h
    cases hsame
    obtain ⟨rfl, hdrop⟩ := Prod.mk.inj hspan
    refine ⟨?_, fun s ↦ ?_⟩
    · have hsuffix := List.dropWhile_suffix (l := x) (· != ':')
      rw [hdrop] at hsuffix
      exact ((List.suffix_cons _ _).trans (List.suffix_cons _ _)).trans hsuffix
    · rw [namedClass, span_append (by simp [hdrop]), hdrop]
      simp [hcls]
  · cases h

/-- A name that is not complete does not become one behind a bracket. -/
theorem namedClass_append_eq_none {negated : Bool} {x : List Char}
    (h : namedClass negated x = none) (hx : ']' ∈ x) (s : List Char) :
    namedClass negated (x ++ s) = none := by
  unfold namedClass at h ⊢
  rw [List.span_eq_takeWhile_dropWhile] at h
  split
  swap
  · rfl
  next name rest hspan =>
  rw [Option.map_eq_none_iff]
  by_cases hcolon : x.dropWhile (· != ':') = []
  · -- The name goes on beyond `x`, bracket and all.
    have hall : ∀ c ∈ x, (c != ':') = true := List.dropWhile_eq_nil_iff.mp hcolon
    rw [List.span_eq_takeWhile_dropWhile, List.takeWhile_append_of_pos hall] at hspan
    rw [← (Prod.mk.inj hspan).1]
    exact asciiClass?_eq_none (List.mem_append_left _ hx)
  · rw [span_append hcolon] at hspan
    obtain ⟨rfl, hdrop⟩ := Prod.mk.inj hspan
    cases htail : x.dropWhile (· != ':') with
    | nil => exact absurd htail hcolon
    | cons c tail =>
      rw [htail] at hdrop h
      obtain ⟨rfl, hbehind⟩ := List.cons.inj hdrop
      cases tail with
      | nil =>
        -- The colon ends `x`, so the bracket stands before it.
        refine asciiClass?_eq_none ?_
        rw [← x.takeWhile_append_dropWhile (p := (· != ':')), htail] at hx
        simpa using hx
      | cons d tail =>
        obtain ⟨rfl, -⟩ := List.cons.inj hbehind
        simpa using h

theorem readAsciiClass_extend {x y : List Char} {chars : CharSet} {negated : Bool}
    (h : readAsciiClass x = some (chars, negated, y)) :
    y <:+ x ∧ ∀ s, readAsciiClass (x ++ s) = some (chars, negated, y ++ s) := by
  unfold readAsciiClass at h
  split at h
  · next rest =>
    obtain ⟨hsuffix, hextend⟩ := namedClass_extend h
    exact ⟨(hsuffix.trans (List.suffix_cons _ _)).trans (List.suffix_cons _ _), hextend⟩
  · next rest hcaret =>
    obtain ⟨hsuffix, hextend⟩ := namedClass_extend h
    refine ⟨hsuffix.trans (List.suffix_cons _ _), fun s ↦ ?_⟩
    cases rest with
    | nil => simp [namedClass, List.span_eq_takeWhile_dropWhile] at h
    | cons c rest =>
      have hc : c ≠ '^' := fun hc ↦ hcaret rest (by rw [hc])
      simpa [readAsciiClass, hc] using hextend s
  · cases h

theorem readAsciiClass_append_eq_none {x : List Char} (h : readAsciiClass x = none) (hx : ']' ∈ x)
    (s : List Char) : readAsciiClass (x ++ s) = none := by
  cases x with
  | nil => cases hx
  | cons c x =>
    by_cases hc : c = ':'
    swap
    · simp [readAsciiClass, hc]
    subst hc
    have hx : ']' ∈ x := by simpa using hx
    cases x with
    | nil => cases hx
    | cons d x =>
      by_cases hd : d = '^'
      · subst hd
        exact namedClass_append_eq_none h (by simpa using hx) s
      · have hnone : namedClass false (d :: x) = none := by simpa [readAsciiClass, hd] using h
        simpa [readAsciiClass, hd] using namedClass_append_eq_none hnone hx s

/-! ### Items -/

theorem dashes_suffix (verbose : Bool) (bound : Nat) (x : List Char) :
    (dashes verbose bound x).2 <:+ x := by
  induction bound generalizing x with
  | zero => exact List.suffix_rfl
  | succ bound ih =>
    cases x with
    | nil => exact List.suffix_rfl
    | cons c rest =>
      by_cases hc : c = '-'
      · subst hc
        exact ((ih _).trans (skipBlanks_suffix verbose rest)).trans (List.suffix_cons _ _)
      · simp [dashes, hc]

theorem dashes_append {verbose : Bool} {bound bound' : Nat} {x : List Char} (s : List Char)
    (hbound : x.length ≤ bound) (hbound' : bound ≤ bound') (h : (dashes verbose bound x).2 ≠ []) :
    dashes verbose bound' (x ++ s) =
      ((dashes verbose bound x).1, (dashes verbose bound x).2 ++ s) := by
  induction bound generalizing bound' x with
  | zero =>
    rw [List.length_eq_zero_iff.mp (Nat.le_zero.mp hbound)] at h
    exact absurd rfl h
  | succ bound ih =>
    obtain ⟨bound', rfl⟩ := Nat.exists_eq_succ_of_ne_zero (Nat.ne_zero_of_lt hbound')
    cases x with
    | nil => exact absurd rfl h
    | cons c rest =>
      by_cases hc : c = '-'
      · subst hc
        have hne : skipBlanks verbose rest ≠ [] := ne_nil_of_suffix (dashes_suffix verbose bound _) h
        have hle := (skipBlanks_suffix verbose rest).length_le
        have hmore := ih (Nat.le_trans hle (Nat.le_of_succ_le_succ hbound))
          (Nat.le_of_succ_le_succ hbound') h
        simp only [List.cons_append, dashes, skipBlanks_append hne s, hmore]
      · simp [dashes, hc]

theorem settles_readPrimitive (flags : Flags) : Settles (readPrimitive flags) := by
  refine .of fun x y v h ↦ ?_
  unfold readPrimitive at h
  split at h
  · cases h
  · exact (settles_readEscape flags).cons h
  · next c rest hc =>
    cases h
    exact ⟨List.suffix_cons _ _, fun _ s ↦ by simp [readPrimitive]⟩

/-! ### The beginning of a class -/

theorem settles_caret (verbose : Bool) : Settles fun x ↦ some (match x with
    | '^' :: rest => (true, skipBlanks verbose rest)
    | _ => (false, x)) := by
  refine .of fun x y v h ↦ ?_
  rw [Option.some_inj] at h
  split at h
  · next rest =>
    cases h
    refine ⟨(skipBlanks_suffix verbose rest).trans (List.suffix_cons _ _), fun hy s ↦ ?_⟩
    simp [skipBlanks_append hy s]
  · next hcaret =>
    cases h
    refine ⟨List.suffix_rfl, fun hy s ↦ ?_⟩
    cases x with
    | nil => exact absurd rfl hy
    | cons c rest =>
      have hc : c ≠ '^' := fun hc ↦ hcaret rest (by rw [hc])
      simp [hc]

theorem settles_dashes (verbose : Bool) : Settles fun x ↦ some (dashes verbose x.length x) := by
  refine .of fun x y v h ↦ ?_
  rw [Option.some_inj] at h
  have hsuffix := dashes_suffix verbose x.length x
  rw [h] at hsuffix
  refine ⟨hsuffix, fun hy s ↦ ?_⟩
  have hle : x.length ≤ (x ++ s).length := by
    rw [List.length_append]
    exact Nat.le_add_right _ _
  rw [dashes_append s (Nat.le_refl _) hle (by rwa [h]), h]

theorem settles_firstBracket (verbose : Bool) (items : List Item) :
    Settles fun x ↦ some (match items, x with
      | [], ']' :: rest => ([(⟨.single ']', 0⟩ : Item)], skipBlanks verbose rest)
      | items, x => (items, x)) := by
  refine .of fun x y v h ↦ ?_
  rw [Option.some_inj] at h
  split at h
  · next rest =>
    cases h
    refine ⟨(skipBlanks_suffix verbose rest).trans (List.suffix_cons _ _), fun hy s ↦ ?_⟩
    simp [skipBlanks_append hy s]
  · next hbracket =>
    cases h
    refine ⟨List.suffix_rfl, fun hy s ↦ ?_⟩
    cases x with
    | nil => exact absurd rfl hy
    | cons c rest =>
      have hc (hitems : items = []) : c ≠ ']' := fun hc ↦ hbracket rest hitems (by rw [hc])
      cases items with
      | nil => simp [hc rfl]
      | cons item items => simp

theorem settles_nonempty {α : Type} (v : α) :
    Settles fun x ↦ if x.isEmpty then none else some (v, x) := by
  refine .of fun x y w h ↦ ?_
  split at h
  · cases h
  · cases h
    exact ⟨List.suffix_rfl, fun hy s ↦ by simp [hy]⟩

theorem settles_readOpen (flags : Flags) : Settles (readOpen flags) :=
  (settles_skipBlanks flags.verbose).bind fun _ ↦ (settles_caret flags.verbose).bind fun negated ↦
    (settles_dashes flags.verbose).bind fun items ↦
      (settles_firstBracket flags.verbose items).bind fun items ↦
        settles_nonempty (⟨negated, items.reverse, none⟩ : Open)

theorem ne_nil_of_readOpen {x y : List Char} {o : Open} (h : readOpen flags x = some (o, y)) :
    y ≠ [] := by
  unfold readOpen at h
  dsimp only at h
  obtain ⟨hne, hsame⟩ := Option.ite_none_left_eq_some.mp h
  rw [← (Prod.mk.inj (Option.some.inj hsame)).2]
  simpa using hne

/-! ### Items of a class -/

theorem dropBlanks_eq_nil {x : List Char} (h : ∀ c ∈ x, isBlank c = true) (comment : Bool) :
    dropBlanks comment x = [] := by
  induction x generalizing comment with
  | nil => cases comment <;> rfl
  | cons c x ih =>
    have ih := ih fun d hd ↦ h d (List.mem_cons_of_mem c hd)
    cases comment with
    | true => simp [dropBlanks, ih]
    | false => simp [dropBlanks, h c List.mem_cons_self, ih]

theorem dropBlanks_dropWhile (x : List Char) :
    dropBlanks false (x.dropWhile isBlank) = dropBlanks false x := by
  induction x with
  | nil => rfl
  | cons c x ih =>
    rw [List.dropWhile_cons]
    split
    · next hc => rw [ih, dropBlanks, if_pos hc]
    · rfl

/-- Blanks, with a comment sign among them, whose first character is neither. -/
theorem head?_of_blanks {x : List Char} {d : Char} (hd : x.head? = some d) (hblank : isBlank d = false) :
    x.dropWhile isBlank = x := by
  cases x with
  | nil => rfl
  | cons c x =>
    cases hd
    rw [List.dropWhile_cons, if_neg (by simp [hblank])]

/-- What stands behind a hyphen shows in the text that a range needs anyway, or is seen already. -/
theorem peek_append {verbose : Bool} {c : Char} {x : List Char}
    (h : skipBlanks verbose x ≠ [] ∨
      ∃ d, peek verbose (c :: x) = some d ∧ isBlank d = false ∧ d ≠ '#') (s : List Char) :
    peek verbose (c :: (x ++ s)) = peek verbose (c :: x) := by
  cases verbose with
  | false =>
    have hne : x ≠ [] := by
      rcases h with h | ⟨d, hd, -⟩
      · exact h
      · rintro rfl
        cases hd
    simpa [peek] using List.head?_append_of_ne_nil x hne
  | true =>
    cases hx : x.dropWhile isBlank with
    | nil =>
      rcases h with h | ⟨d, hd, hblank, -⟩
      · exact absurd (dropBlanks_eq_nil (List.dropWhile_eq_nil_iff.mp hx) false) h
      · simp only [peek, hx, Bool.not_true, Bool.false_eq_true, if_false, List.isEmpty_nil,
          if_true] at hd
        rw [head?_of_blanks hd hblank] at hx
        simp [hx] at hd
    | cons d rest =>
      have hmore : (x ++ s).dropWhile isBlank = d :: (rest ++ s) := by
        rw [List.dropWhile_append, if_neg (by simp [hx]), hx]
        rfl
      by_cases hd : d = '#'
      · subst hd
        have hcomment : rest.dropWhile isBlank ≠ [] := by
          intro hnil
          rcases h with h | ⟨e, he, hblank, hne⟩
          · refine h ?_
            have hall := dropBlanks_eq_nil (List.dropWhile_eq_nil_iff.mp hnil) true
            rw [skipBlanks, if_pos rfl, ← dropBlanks_dropWhile, hx, dropBlanks, if_neg (by decide),
              if_pos rfl, hall]
          · simp only [peek, hx, hnil, Bool.not_true, Bool.false_eq_true, if_false,
              List.isEmpty_nil, if_true] at he
            rw [head?_of_blanks he hblank] at hx
            rw [hx] at he
            exact hne (Option.some.inj he).symm
        have hrest : (rest ++ s).dropWhile isBlank = rest.dropWhile isBlank ++ s := by
          rw [List.dropWhile_append, if_neg (by simpa using hcomment)]
        have hhead : (rest.dropWhile isBlank ++ s).head? = (rest.dropWhile isBlank).head? :=
          List.head?_append_of_ne_nil (rest.dropWhile isBlank) hcomment
        simp only [peek, hmore, hx, hrest, hhead]
        simp [hcomment]
      · simp [peek, hmore, hx, hd]

theorem settles_readItem (flags : Flags) : Settles (readItem flags) := by
  refine .of fun x y v h ↦ ?_
  obtain ⟨⟨first, rest⟩, hfirst, h⟩ := Option.bind_eq_some_iff.mp h
  obtain ⟨_, hrest, h⟩ := Option.bind_eq_some_iff.mp h
  have hsuffix := (settles_readPrimitive flags).suffix hfirst
  have hskip := skipBlanks_suffix flags.verbose rest
  cases hz : skipBlanks flags.verbose rest with
  | nil => simp [hz] at hrest
  | cons c z =>
    rw [hz] at hskip
    have hmore (s : List Char) : readPrimitive flags (x ++ s) = some (first, rest ++ s) ∧
        skipBlanks flags.verbose (rest ++ s) = c :: (z ++ s) := by
      have hne : skipBlanks flags.verbose rest ≠ [] := by simp [hz]
      refine ⟨(settles_readPrimitive flags).extend hfirst ?_ s, ?_⟩
      · exact ne_nil_of_suffix (skipBlanks_suffix flags.verbose rest) hne
      · rw [skipBlanks_append hne, hz]
        rfl
    simp only [hz] at h
    split at h
    · next halone =>
      obtain ⟨chars, hchars, h⟩ := Option.bind_eq_some_iff.mp h
      cases h
      refine ⟨hskip.trans hsuffix, fun _ s ↦ ?_⟩
      have halone : (c :: (z ++ s)).head? ≠ some '-' ∨
          peek flags.verbose (c :: (z ++ s)) = some ']' ∨
            peek flags.verbose (c :: (z ++ s)) = some '-' := by
        rcases halone with hhead | hafter | hafter
        · exact Or.inl hhead
        · rw [peek_append (Or.inr ⟨']', hafter, by decide, by decide⟩)]
          exact Or.inr (Or.inl hafter)
        · rw [peek_append (Or.inr ⟨'-', hafter, by decide, by decide⟩)]
          exact Or.inr (Or.inr hafter)
      simp only [readItem, (hmore s).1, (hmore s).2, Option.bind_eq_bind, Option.bind_some,
        if_pos halone, hchars]
      rfl
    · next hrange =>
      obtain ⟨⟨last, rest'⟩, hlast, h⟩ := Option.bind_eq_some_iff.mp h
      obtain ⟨low, hlow, h⟩ := Option.bind_eq_some_iff.mp h
      obtain ⟨high, hhigh, h⟩ := Option.bind_eq_some_iff.mp h
      obtain ⟨_, hle, h⟩ := Option.bind_eq_some_iff.mp h
      cases h
      have hlast : readPrimitive flags (skipBlanks flags.verbose z) = some (last, rest') := hlast
      have hskip' := skipBlanks_suffix flags.verbose z
      have hsuffix' := (settles_readPrimitive flags).suffix hlast
      refine ⟨((hsuffix'.trans hskip').trans (List.suffix_cons c z)).trans (hskip.trans hsuffix),
        fun hy s ↦ ?_⟩
      have hne : skipBlanks flags.verbose z ≠ [] := ne_nil_of_suffix hsuffix' hy
      have hrange : ¬((c :: (z ++ s)).head? ≠ some '-' ∨
          peek flags.verbose (c :: (z ++ s)) = some ']' ∨
            peek flags.verbose (c :: (z ++ s)) = some '-') := by
        rw [peek_append (Or.inl hne)]
        exact hrange
      have hdrop : (c :: (z ++ s)).drop 1 = z ++ s := rfl
      have hlast' := (settles_readPrimitive flags).extend hlast hy s
      simp only [readItem, (hmore s).1, (hmore s).2, Option.bind_eq_bind, Option.bind_some,
        if_neg hrange, hdrop, skipBlanks_append hne, hlast', hlow, hhigh, hle]
      rfl

/-- Something stands behind an item, so there is more than one character. -/
theorem two_of_readItem {x y : List Char} {item : Item} (h : readItem flags x = some (item, y)) : ∃ c d z, x = c :: d :: z := by
  obtain ⟨⟨first, rest⟩, hfirst, h'⟩ := Option.bind_eq_some_iff.mp h
  obtain ⟨_, hrest, -⟩ := Option.bind_eq_some_iff.mp h'
  have hne : rest ≠ [] := by
    rintro rfl
    cases flags.verbose <;> simp [skipBlanks, dropBlanks] at hrest
  cases x with
  | nil => cases h
  | cons c x =>
    cases x with
    | cons d z => exact ⟨c, d, z, rfl⟩
    | nil =>
      by_cases hc : c = '\\'
      · subst hc
        cases hfirst
      · simp only [readPrimitive] at hfirst
        exact absurd (Prod.mk.inj (Option.some.inj hfirst)).2.symm hne

/-! ### Classes -/

/-- A class that is complete contains its closing bracket. -/
theorem bracket_mem_of_readRest {bound : Nat} {outer : List Open} {o : Open} {x y : List Char}
    {item : Item} (h : readRest flags bound outer o x = some (item, y)) : ']' ∈ x ∧ y <:+ x := by
  induction bound generalizing outer o x with
  | zero => cases h
  | succ bound ih =>
    have hskip := skipBlanks_suffix flags.verbose x
    have hwiden {z : List Char} (hz : z <:+ skipBlanks flags.verbose x) (hread : ']' ∈ z ∧ y <:+ z) :
        ']' ∈ x ∧ y <:+ x :=
      ⟨(hz.trans hskip).subset hread.1, hread.2.trans (hz.trans hskip)⟩
    rw [readRest] at h
    split at h
    · cases h
    · next rest hx =>
      rw [hx] at hwiden
      split at h
      · next chars negated rest' hclass =>
        obtain ⟨cls, -, h⟩ := Option.bind_eq_some_iff.mp h
        exact hwiden ((readAsciiClass_extend hclass).1.trans (List.suffix_cons _ _)) (ih h)
      · obtain ⟨⟨inner, rest'⟩, hopen, h⟩ := Option.bind_eq_some_iff.mp h
        exact hwiden (((settles_readOpen flags).suffix hopen).trans (List.suffix_cons _ _)) (ih h)
    · next rest hx =>
      obtain ⟨closed, -, h⟩ := Option.bind_eq_some_iff.mp h
      have hbracket : ']' ∈ x := hskip.subset (by simp [hx])
      split at h
      · cases h
        exact ⟨hbracket, ((List.suffix_cons _ _).trans (hx ▸ hskip))⟩
      · exact ⟨hbracket, (ih h).2.trans ((List.suffix_cons _ _).trans (hx ▸ hskip))⟩
    · next rest hx =>
      exact hwiden (hx ▸ (List.suffix_cons _ _).trans (List.suffix_cons _ _)) (ih h)
    · next rest hx =>
      exact hwiden (hx ▸ (List.suffix_cons _ _).trans (List.suffix_cons _ _)) (ih h)
    · next rest hx =>
      exact hwiden (hx ▸ (List.suffix_cons _ _).trans (List.suffix_cons _ _)) (ih h)
    · obtain ⟨⟨item', rest⟩, hitem, h⟩ := Option.bind_eq_some_iff.mp h
      exact hwiden ((settles_readItem flags).suffix hitem) (ih h)

theorem readRest_extend {bound bound' : Nat} {outer : List Open} {o : Open} {x y : List Char}
    {item : Item} (h : readRest flags bound outer o x = some (item, y)) (hbound : bound ≤ bound')
    (s : List Char) : readRest flags bound' outer o (x ++ s) = some (item, y ++ s) := by
  induction bound generalizing bound' outer o x with
  | zero => cases h
  | succ bound ih =>
    obtain ⟨bound', rfl⟩ := Nat.exists_eq_succ_of_ne_zero (Nat.ne_zero_of_lt hbound)
    have hle : bound ≤ bound' := Nat.le_of_succ_le_succ hbound
    have hne : skipBlanks flags.verbose x ≠ [] := by
      intro hnil
      simp [readRest, hnil] at h
    have hmore := skipBlanks_append hne s
    rw [readRest] at h ⊢
    rw [hmore]
    split at h
    · cases h
    · next rest hx =>
      rw [hx]
      simp only [List.cons_append]
      split at h
      · next chars negated rest' hclass =>
        obtain ⟨cls, hcls, h⟩ := Option.bind_eq_some_iff.mp h
        simp only [(readAsciiClass_extend hclass).2 s, hcls, Option.bind_eq_bind, Option.bind_some]
        exact ih h hle
      · next hclass =>
        obtain ⟨⟨inner, rest'⟩, hopen, h⟩ := Option.bind_eq_some_iff.mp h
        have hbracket : ']' ∈ rest :=
          ((settles_readOpen flags).suffix hopen).subset (bracket_mem_of_readRest h).1
        have hopen' := (settles_readOpen flags).extend hopen (ne_nil_of_readOpen hopen) s
        simp only [readAsciiClass_append_eq_none hclass hbracket s, hopen', Option.bind_eq_bind,
          Option.bind_some]
        exact ih h hle
    · next rest hx =>
      obtain ⟨closed, hclosed, h⟩ := Option.bind_eq_some_iff.mp h
      rw [hx]
      simp only [List.cons_append, hclosed, Option.bind_eq_bind, Option.bind_some]
      split at h
      · cases h
        rfl
      · exact ih h hle
    · next rest hx => rw [hx]; exact ih h hle
    · next rest hx => rw [hx]; exact ih h hle
    · next rest hx => rw [hx]; exact ih h hle
    · next hopen hclose hand hsub hxor =>
      obtain ⟨⟨item', rest⟩, hitem, h⟩ := Option.bind_eq_some_iff.mp h
      have hrest : rest ≠ [] := List.ne_nil_of_mem (bracket_mem_of_readRest h).1
      have hitem' := (settles_readItem flags).extend hitem hrest s
      -- An item does not end with its first character, so no operation comes about.
      obtain ⟨c, d, z, hz⟩ := two_of_readItem hitem
      rw [hz] at hitem'
      rw [hz]
      simp only [List.cons_append] at hitem' ⊢
      split
      · next heq => cases heq
      · next r heq => exact absurd (by rw [hz, (List.cons.inj heq).1]) (hopen (d :: z))
      · next r heq => exact absurd (by rw [hz, (List.cons.inj heq).1]) (hclose (d :: z))
      · next r heq =>
        obtain ⟨rfl, hbehind⟩ := List.cons.inj heq
        exact absurd (by rw [hz, (List.cons.inj hbehind).1]) (hand z)
      · next r heq =>
        obtain ⟨rfl, hbehind⟩ := List.cons.inj heq
        exact absurd (by rw [hz, (List.cons.inj hbehind).1]) (hsub z)
      · next r heq =>
        obtain ⟨rfl, hbehind⟩ := List.cons.inj heq
        exact absurd (by rw [hz, (List.cons.inj hbehind).1]) (hxor z)
      · simp only [hitem', Option.bind_eq_bind, Option.bind_some]
        exact ih h hle

theorem settles_bracket (flags : Flags) : Settles (Bracket.read flags) := by
  refine .of fun x y v h ↦ ?_
  obtain ⟨⟨o, rest⟩, hopen, h⟩ := Option.bind_eq_some_iff.mp h
  refine ⟨(bracket_mem_of_readRest h).2.trans ((settles_readOpen flags).suffix hopen), fun _ s ↦ ?_⟩
  have hopen' := (settles_readOpen flags).extend hopen (ne_nil_of_readOpen hopen) s
  have hle : rest.length ≤ (rest ++ s).length := by
    rw [List.length_append]
    exact Nat.le_add_right _ _
  simp only [Bracket.read, hopen', Option.bind_eq_bind, Option.bind_some]
  exact readRest_extend h hle s

end PathBinding.Regex.Bracket
