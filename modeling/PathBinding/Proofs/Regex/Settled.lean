import Mathlib.Data.List.Infix
import Mathlib.Data.List.TakeDrop
import Mathlib.Data.List.TakeWhile
import Mathlib.Data.Option.Basic
import PathBinding.Regex.Token

/-!
Reading in a text that goes on. What a reader has read stays the same with more text behind it, as long as it has left
something over: everything that it looked at was there (`Settles`). At the very end of a text this may fail, as a question
mark or a brace that follows can change the meaning of the last token.

Readers that are put together settle if their parts do (`Settles.bind`), down to the reader of escape sequences
(`settles_readEscape`).
-/

set_option autoImplicit false
set_option relaxedAutoImplicit false

namespace PathBinding.Regex

/-- What a reader leaves is the end of the text, and unless it is empty more text behind it changes nothing. -/
structure Settles {α : Type} (read : List Char → Option (α × List Char)) : Prop where
  suffix : ∀ {x y : List Char} {v : α}, read x = some (v, y) → y <:+ x
  extend : ∀ {x y : List Char} {v : α}, read x = some (v, y) → y ≠ [] → ∀ s : List Char,
    read (x ++ s) = some (v, y ++ s)

namespace Settles

variable {α β : Type} {read : List Char → Option (α × List Char)}

/-- Both properties at once. -/
theorem of (h : ∀ x y v, read x = some (v, y) →
    y <:+ x ∧ (y ≠ [] → ∀ s, read (x ++ s) = some (v, y ++ s))) : Settles read :=
  ⟨fun hread ↦ (h _ _ _ hread).1, fun hread ↦ (h _ _ _ hread).2⟩

theorem apply (h : Settles read) {x y : List Char} {v : α} (hread : read x = some (v, y)) :
    y <:+ x ∧ (y ≠ [] → ∀ s, read (x ++ s) = some (v, y ++ s)) :=
  ⟨h.suffix hread, fun hy s ↦ h.extend hread hy s⟩

theorem bind (h : Settles read) {next : α → List Char → Option (β × List Char)}
    (hnext : ∀ v, Settles (next v)) :
    Settles fun x ↦ (read x).bind fun p ↦ next p.1 p.2 where
  suffix {x y v} hread := by
    obtain ⟨⟨u, z⟩, hz, hy⟩ := Option.bind_eq_some_iff.mp hread
    exact ((hnext u).suffix hy).trans (h.suffix hz)
  extend {x y v} hread hy s := by
    obtain ⟨⟨u, z⟩, hz, hnextz⟩ := Option.bind_eq_some_iff.mp hread
    have hne : z ≠ [] := by
      rintro rfl
      exact hy (List.suffix_nil.mp ((hnext u).suffix hnextz))
    rw [h.extend hz hne s]
    exact (hnext u).extend hnextz hy s

/-- Whether the answer is taken, and as what, does not depend on the text that is left. -/
theorem filterMap (h : Settles read) (f : α → Option β) :
    Settles fun x ↦ (read x).bind fun p ↦ (f p.1).map (·, p.2) where
  suffix {x y v} hread := by
    obtain ⟨⟨u, z⟩, hz, hy⟩ := Option.bind_eq_some_iff.mp hread
    obtain ⟨w, -, hw⟩ := Option.map_eq_some_iff.mp hy
    cases hw
    exact h.suffix hz
  extend {x y v} hread hy s := by
    obtain ⟨⟨u, z⟩, hz, hnext⟩ := Option.bind_eq_some_iff.mp hread
    obtain ⟨w, hw, hsame⟩ := Option.map_eq_some_iff.mp hnext
    cases hsame
    rw [h.extend hz hy s]
    exact Option.map_eq_some_iff.mpr ⟨v, hw, rfl⟩

theorem map (h : Settles read) (f : α → β) :
    Settles fun x ↦ (read x).map fun p ↦ (f p.1, p.2) where
  suffix {x y v} hread := by
    obtain ⟨⟨u, z⟩, hz, hsame⟩ := Option.map_eq_some_iff.mp hread
    cases hsame
    exact h.suffix hz
  extend {x y v} hread hy s := by
    obtain ⟨⟨u, z⟩, hz, hsame⟩ := Option.map_eq_some_iff.mp hread
    cases hsame
    rw [h.extend hz hy s]
    rfl

end Settles

theorem ne_nil_of_suffix {x y : List Char} (h : y <:+ x) (hy : y ≠ []) : x ≠ [] := by
  rintro rfl
  exact hy (List.suffix_nil.mp h)

/-- A prefix of one sort that ends within a text ends there in any longer text. -/
theorem span_append {p : Char → Bool} {x : List Char} (h : x.dropWhile p ≠ []) (s : List Char) :
    (x ++ s).span p = (x.takeWhile p, x.dropWhile p ++ s) := by
  have hlength : (x.takeWhile p).length ≠ x.length := by
    have hsplit := congrArg List.length (x.takeWhile_append_dropWhile (p := p))
    have hpos := List.length_pos_iff.mpr h
    rw [List.length_append] at hsplit
    omega
  rw [List.span_eq_takeWhile_dropWhile, List.takeWhile_append, if_neg hlength,
    List.dropWhile_append, if_neg (by simpa using h)]

/-! ### Blanks and spans -/

theorem dropBlanks_suffix (comment : Bool) (x : List Char) : dropBlanks comment x <:+ x := by
  induction x generalizing comment with
  | nil => cases comment <;> exact List.suffix_rfl
  | cons c rest ih =>
    cases comment with
    | true =>
      rw [dropBlanks]
      split
      · exact (ih false).trans (List.suffix_cons c rest)
      · exact (ih true).trans (List.suffix_cons c rest)
    | false =>
      rw [dropBlanks]
      split
      · exact (ih false).trans (List.suffix_cons c rest)
      · split
        · exact (ih true).trans (List.suffix_cons c rest)
        · exact List.suffix_rfl

theorem dropBlanks_append {comment : Bool} {x : List Char} (h : dropBlanks comment x ≠ [])
    (s : List Char) : dropBlanks comment (x ++ s) = dropBlanks comment x ++ s := by
  induction x generalizing comment with
  | nil => cases comment <;> exact absurd rfl h
  | cons c rest ih =>
    rw [List.cons_append]
    cases comment with
    | true =>
      rw [dropBlanks] at h ⊢
      rw [dropBlanks]
      by_cases hc : c = '\n'
      · rw [if_pos hc] at h ⊢
        rw [if_pos hc]
        exact ih h
      · rw [if_neg hc] at h ⊢
        rw [if_neg hc]
        exact ih h
    | false =>
      rw [dropBlanks] at h ⊢
      rw [dropBlanks]
      by_cases hblank : isBlank c = true
      · rw [if_pos hblank] at h ⊢
        rw [if_pos hblank]
        exact ih h
      · rw [if_neg hblank] at h ⊢
        rw [if_neg hblank]
        by_cases hc : c = '#'
        · rw [if_pos hc] at h ⊢
          rw [if_pos hc]
          exact ih h
        · rw [if_neg hc, if_neg hc]
          rfl

variable {verbose : Bool}

theorem skipBlanks_suffix (verbose : Bool) (x : List Char) : skipBlanks verbose x <:+ x := by
  cases verbose with
  | true => exact dropBlanks_suffix false x
  | false => exact List.suffix_rfl

theorem skipBlanks_append {x : List Char} (h : skipBlanks verbose x ≠ []) (s : List Char) :
    skipBlanks verbose (x ++ s) = skipBlanks verbose x ++ s := by
  cases verbose with
  | true => exact dropBlanks_append h s
  | false => rfl

/-- Skipping blanks first. -/
theorem Settles.skip {α : Type} {read : List Char → Option (α × List Char)} (h : Settles read)
    (verbose : Bool) : Settles fun x ↦ read (skipBlanks verbose x) where
  suffix hread := (h.suffix hread).trans (skipBlanks_suffix verbose _)
  extend {x y v} hread hy s := by
    have hne : skipBlanks verbose x ≠ [] := ne_nil_of_suffix (h.suffix hread) hy
    simp only [skipBlanks_append hne s]
    exact h.extend hread hy s

theorem settles_skipBlanks (verbose : Bool) : Settles fun x ↦ some ((), skipBlanks verbose x) where
  suffix {x y v} h := by
    cases h
    exact skipBlanks_suffix verbose x
  extend {x y v} h hy s := by
    cases h
    rw [skipBlanks_append hy s]

theorem settles_dropWhile (p : Char → Bool) : Settles fun x ↦ some ((), x.dropWhile p) where
  suffix {x y v} h := by
    cases h
    exact List.dropWhile_suffix p
  extend {x y v} h hy s := by
    cases h
    rw [List.dropWhile_append, if_neg (by simpa using hy)]

theorem spanWith_suffix (p : Char → Bool) (bound : Nat) (x : List Char) :
    (spanWith verbose p bound x).2 <:+ x := by
  induction bound generalizing x with
  | zero => exact List.suffix_rfl
  | succ bound ih =>
    cases x with
    | nil => exact List.suffix_rfl
    | cons c rest =>
      rw [spanWith]
      split
      · exact ((ih _).trans (skipBlanks_suffix verbose rest)).trans (List.suffix_cons c rest)
      · exact List.suffix_rfl

/-- A span that ends before the text does is bounded by a character of another sort. -/
theorem spanWith_append (p : Char → Bool) {bound bound' : Nat} {x : List Char} (s : List Char)
    (hbound : x.length ≤ bound) (hbound' : bound ≤ bound') (h : (spanWith verbose p bound x).2 ≠ []) :
    spanWith verbose p bound' (x ++ s) =
      ((spanWith verbose p bound x).1, (spanWith verbose p bound x).2 ++ s) := by
  induction bound generalizing bound' x with
  | zero =>
    rw [List.length_eq_zero_iff.mp (Nat.le_zero.mp hbound)] at h
    exact absurd rfl h
  | succ bound ih =>
    obtain ⟨bound', rfl⟩ := Nat.exists_eq_succ_of_ne_zero (Nat.ne_zero_of_lt hbound')
    cases x with
    | nil => exact absurd rfl h
    | cons c rest =>
      rw [List.cons_append, spanWith, spanWith]
      rw [spanWith] at h
      by_cases hc : p c = true
      · rw [if_pos hc] at h
        have hne : skipBlanks verbose rest ≠ [] :=
          ne_nil_of_suffix (spanWith_suffix p bound _) h
        have hle := (skipBlanks_suffix verbose rest).length_le
        have hspan := ih (Nat.le_trans hle (Nat.le_of_succ_le_succ hbound))
          (Nat.le_of_succ_le_succ hbound') h
        rw [if_pos hc, if_pos hc, skipBlanks_append hne s, hspan]
      · rw [if_neg hc, if_neg hc]
        rfl

theorem settles_span (verbose : Bool) (p : Char → Bool) :
    Settles fun x ↦ some (spanSkipping verbose p x) where
  suffix {x y v} h := by
    have hspan : (spanWith verbose p x.length x).2 <:+ x := spanWith_suffix p x.length x
    rw [spanSkipping, Option.some_inj] at h
    rwa [h] at hspan
  extend {x y v} h hy s := by
    rw [spanSkipping, Option.some_inj] at h
    have hle : x.length ≤ (x ++ s).length := by
      rw [List.length_append]
      exact Nat.le_add_right _ _
    have hne : (spanWith verbose p x.length x).2 ≠ [] := by rwa [h]
    rw [spanSkipping, spanWith_append p s (Nat.le_refl x.length) hle hne, h]

theorem span_extend {p : Char → Bool} {x digits rest : List Char} {c : Char}
    (h : spanSkipping verbose p x = (digits, c :: rest)) (s : List Char) :
    spanSkipping verbose p (x ++ s) = (digits, c :: (rest ++ s)) :=
  Option.some_inj.mp
    ((settles_span verbose p).extend (congrArg some h) (List.cons_ne_nil c rest) s)

theorem span_suffix {p : Char → Bool} {x digits rest : List Char} {c : Char}
    (h : spanSkipping verbose p x = (digits, c :: rest)) : rest <:+ x :=
  (List.suffix_cons c rest).trans ((settles_span verbose p).suffix (congrArg some h))

/-- A span behind blanks, up to a character that ends it. -/
theorem skip_span_extend {p : Char → Bool} {x digits rest : List Char} {c : Char}
    (h : spanSkipping verbose p (skipBlanks verbose x) = (digits, c :: rest)) (s : List Char) :
    spanSkipping verbose p (skipBlanks verbose (x ++ s)) = (digits, c :: (rest ++ s)) := by
  have hne : skipBlanks verbose x ≠ [] :=
    ne_nil_of_suffix ((settles_span verbose p).suffix (congrArg some h)) (List.cons_ne_nil c rest)
  rw [skipBlanks_append hne]
  exact span_extend h s

/-! ### Counts and escapes -/

theorem settles_readCount (verbose : Bool) : Settles (readCount verbose) := by
  refine .of fun x y v h ↦ ?_
  rw [readCount] at h
  rcases hspan : spanSkipping verbose Char.isDigit (x.dropWhile isBlank) with ⟨digits, rest⟩
  have hspan' := congrArg some hspan
  simp only [hspan] at h
  split at h
  · cases h
  next hcount =>
  cases h
  have hrest := (settles_span verbose Char.isDigit).suffix hspan'
  refine ⟨((List.dropWhile_suffix _).trans hrest).trans (List.dropWhile_suffix _), fun hy s ↦ ?_⟩
  have hne : rest ≠ [] := ne_nil_of_suffix (List.dropWhile_suffix _) hy
  have hdrop := (settles_dropWhile isBlank).extend rfl (ne_nil_of_suffix hrest hne) s
  have hlast := (settles_dropWhile isBlank).extend rfl hy s
  simp only [Option.some_inj, Prod.mk.injEq, true_and] at hdrop hlast
  have hmore := (settles_span verbose Char.isDigit).extend hspan' hne s
  rw [Option.some_inj] at hmore
  simp only [readCount, hdrop, hmore, hlast, if_neg hcount]

theorem settles_takeHex (verbose : Bool) (count : Nat) : Settles (takeHex verbose count) := by
  induction count with
  | zero =>
    constructor
    · rintro x y v h
      cases h
      exact List.suffix_rfl
    · rintro x y v h - s
      cases h
      rfl
  | succ count ih =>
    have hrest := (settles_skipBlanks verbose).bind fun _ ↦ ih
    constructor
    · intro x y v h
      cases x with
      | nil => cases h
      | cons c rest =>
        rw [takeHex] at h
        split at h
        · exact ((hrest.map (c :: ·)).suffix h).trans (List.suffix_cons c rest)
        · cases h
    · intro x y v h hy s
      cases x with
      | nil => cases h
      | cons c rest =>
        rw [List.cons_append, takeHex]
        rw [takeHex] at h
        split at h
        · next hc =>
          rw [if_pos hc]
          exact (hrest.map (c :: ·)).extend h hy s
        · cases h

theorem settles_readCode (verbose : Bool) (width : Nat) : Settles (readCode verbose width) := by
  refine .of fun x y v h ↦ ?_
  rw [readCode] at h
  have hskip := skipBlanks_suffix verbose x
  split at h
  · cases h
  · next rest hx =>
    rw [hx] at hskip
    split at h
    · next digits rest' hspan =>
      split at h
      · cases h
      next hdigits =>
      obtain ⟨c, hc, hsame⟩ := Option.map_eq_some_iff.mp h
      cases hsame
      have hrest : rest' <:+ rest := (span_suffix hspan).trans (skipBlanks_suffix verbose rest)
      refine ⟨((skipBlanks_suffix verbose rest').trans hrest).trans
        ((List.suffix_cons _ rest).trans hskip), fun hy s ↦ ?_⟩
      have hx' : skipBlanks verbose (x ++ s) = '\x7b' :: (rest ++ s) := by
        rw [skipBlanks_append (by simp [hx]), hx]
        rfl
      simp only [readCode, hx', skip_span_extend hspan s, if_neg hdigits, hc, Option.map_some,
        skipBlanks_append hy s]
    · cases h
  · next text hnil hbrace =>
    obtain ⟨⟨digits, rest⟩, hdigits, h⟩ := Option.bind_eq_some_iff.mp h
    obtain ⟨c, hc, h⟩ := Option.bind_eq_some_iff.mp h
    cases h
    have hsuffix := (settles_takeHex verbose width).suffix hdigits
    refine ⟨hsuffix.trans hskip, fun hy s ↦ ?_⟩
    have hne : skipBlanks verbose x ≠ [] := ne_nil_of_suffix hsuffix hy
    have hmore := (settles_takeHex verbose width).extend hdigits hy s
    rw [readCode, skipBlanks_append hne]
    split
    · next hx => simp [hne] at hx
    · next rest' hx =>
      cases hz : skipBlanks verbose x with
      | nil => exact absurd hz hne
      | cons c z =>
        rw [hz] at hx
        exact absurd (by rw [hz, (List.cons.inj hx).1]) (hbrace z)
    · simp [hmore, hc]

theorem settles_propertyBody (verbose : Bool) : Settles (propertyBody verbose) := by
  refine .of fun x y v h ↦ ?_
  rw [propertyBody] at h
  have hskip := skipBlanks_suffix verbose x
  split at h
  · cases h
  · next rest hx =>
    rw [hx] at hskip
    split at h
    · next hspan =>
      cases h
      have hrest : y <:+ rest := (span_suffix hspan).trans (skipBlanks_suffix verbose rest)
      refine ⟨hrest.trans ((List.suffix_cons _ rest).trans hskip), fun _ s ↦ ?_⟩
      have hx' : skipBlanks verbose (x ++ s) = '\x7b' :: (rest ++ s) := by
        rw [skipBlanks_append (by simp [hx]), hx]
        rfl
      simp only [propertyBody, hx', skip_span_extend hspan s]
    · cases h
  · next c rest hbrace hx =>
    rw [hx] at hskip
    split at h
    · cases h
    next hc =>
    cases h
    refine ⟨(skipBlanks_suffix verbose rest).trans ((List.suffix_cons c rest).trans hskip),
      fun hy s ↦ ?_⟩
    have hx' : skipBlanks verbose (x ++ s) = c :: (rest ++ s) := by
      rw [skipBlanks_append (by simp [hx]), hx]
      rfl
    simp [propertyBody, hx', hc, skipBlanks_append hy s]

theorem settles_readProperty (flags : Flags) (negated : Bool) :
    Settles (readProperty flags negated) := by
  refine .of fun x y v h ↦ ?_
  obtain ⟨⟨body, rest⟩, hbody, h⟩ := Option.bind_eq_some_iff.mp h
  obtain ⟨⟨cls, inequality⟩, hcls, h⟩ := Option.bind_eq_some_iff.mp h
  obtain ⟨_, hunicode, h⟩ := Option.bind_eq_some_iff.mp h
  obtain ⟨chars, hchars, h⟩ := Option.bind_eq_some_iff.mp h
  cases h
  refine ⟨(settles_propertyBody flags.verbose).suffix hbody, fun hy s ↦ ?_⟩
  have hmore := (settles_propertyBody flags.verbose).extend hbody hy s
  refine Option.bind_eq_some_iff.mpr ⟨(body, y ++ s), hmore, ?_⟩
  refine Option.bind_eq_some_iff.mpr ⟨(cls, inequality), hcls, ?_⟩
  refine Option.bind_eq_some_iff.mpr ⟨_, hunicode, ?_⟩
  exact Option.bind_eq_some_iff.mpr ⟨chars, hchars, rfl⟩

theorem settles_readWordEdge (flags : Flags) : Settles (readWordEdge flags) := by
  refine .of fun x y v h ↦ ?_
  unfold readWordEdge at h
  split at h
  · next rest =>
    split at h
    · cases h
    next c rest' hrest =>
    have hskip := skipBlanks_suffix flags.verbose rest
    rw [hrest] at hskip
    have hrest' (s : List Char) : skipBlanks flags.verbose (rest ++ s) = c :: (rest' ++ s) := by
      rw [skipBlanks_append (by simp [hrest]), hrest]
      rfl
    dsimp only at h
    split at h
    · next hc =>
      cases h
      exact ⟨List.suffix_rfl, fun _ s ↦ by simp [readWordEdge, hrest' s, hc]⟩
    · next hc =>
      split at h
      · next name rest'' hspan =>
        obtain ⟨edge, hedge, hsame⟩ := Option.map_eq_some_iff.mp h
        cases hsame
        refine ⟨((span_suffix hspan).trans hskip).trans (List.suffix_cons _ rest), fun _ s ↦ ?_⟩
        have hmore := span_extend hspan s
        rw [List.cons_append] at hmore
        simp [readWordEdge, hrest' s, hc, hmore, hedge]
      · cases h
  · next hbrace =>
    cases h
    refine ⟨List.suffix_rfl, fun hy s ↦ ?_⟩
    cases x with
    | nil => exact absurd rfl hy
    | cons c x =>
      have hc : c ≠ '\x7b' := fun hc ↦ hbrace x (by rw [hc])
      simp [readWordEdge, hc]

/-- A reader behind a character that is taken. -/
theorem Settles.cons {α : Type} {read : List Char → Option (α × List Char)} (h : Settles read)
    {c : Char} {x y : List Char} {v : α} (hread : read x = some (v, y)) :
    y <:+ c :: x ∧ (y ≠ [] → ∀ s, read (x ++ s) = some (v, y ++ s)) :=
  ⟨(h.suffix hread).trans (List.suffix_cons c x), (h.apply hread).2⟩

/-- What a letter behind a backslash stands for that no other escape begins with. -/
def readShorthand (flags : Flags) (c : Char) (rest : List Char) : Option (Primitive × List Char) :=
  match shorthand? flags c with
  | some (chars, negated) => (negateIf flags negated chars).map fun chars ↦ (.set chars, rest)
  | none => (literalEscape? c).map fun c ↦ (.literal c false, rest)

theorem settles_readEscape (flags : Flags) : Settles (readEscape flags) := by
  refine .of fun x y v h ↦ ?_
  unfold readEscape at h
  split at h
  · cases h
  · next rest =>
    obtain ⟨⟨c, tail⟩, hcode, hsame⟩ := Option.map_eq_some_iff.mp h
    cases hsame
    obtain ⟨hsuffix, hextend⟩ := (settles_readCode flags.verbose 2).cons hcode
    refine ⟨hsuffix, fun hy s ↦ ?_⟩
    -- Whether digits stand in braces shows in the first of them.
    have hne : skipBlanks flags.verbose rest ≠ [] := by
      intro hnil
      simp [readCode, hnil] at hcode
    have hhead : (skipBlanks flags.verbose (rest ++ s)).head? =
        (skipBlanks flags.verbose rest).head? := by
      rw [skipBlanks_append hne, List.head?_append_of_ne_nil _ hne]
    simp [readEscape, hextend hy s, hhead]
  · exact ((settles_readCode flags.verbose 4).map (Primitive.literal · false)).cons h
  · exact ((settles_readCode flags.verbose 8).map (Primitive.literal · false)).cons h
  · exact (settles_readProperty flags false).cons h
  · exact (settles_readProperty flags true).cons h
  · cases h; exact ⟨List.suffix_cons _ _, fun _ _ ↦ rfl⟩
  · cases h; exact ⟨List.suffix_cons _ _, fun _ _ ↦ rfl⟩
  · exact (settles_readWordEdge flags).cons h
  · cases h; exact ⟨List.suffix_cons _ _, fun _ _ ↦ rfl⟩
  · cases h; exact ⟨List.suffix_cons _ _, fun _ _ ↦ rfl⟩
  · cases h; exact ⟨List.suffix_cons _ _, fun _ _ ↦ rfl⟩
  · next c rest _ _ _ _ _ _ _ _ _ _ _ =>
    have hdefault (rest : List Char) : readEscape flags (c :: rest) = readShorthand flags c rest := by
      rw [readEscape] <;> first | rfl | assumption
    simp only [List.cons_append, hdefault, readShorthand]
    split at h
    · obtain ⟨chars, hchars, hsame⟩ := Option.map_eq_some_iff.mp h
      cases hsame
      exact ⟨List.suffix_cons c _, fun _ s ↦ by simp [*]⟩
    · obtain ⟨d, hd, hsame⟩ := Option.map_eq_some_iff.mp h
      cases hsame
      exact ⟨List.suffix_cons c _, fun _ s ↦ by simp [*]⟩

end PathBinding.Regex
