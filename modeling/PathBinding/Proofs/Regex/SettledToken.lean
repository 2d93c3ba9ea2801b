import PathBinding.Proofs.Regex.SettledClass

/-!
Tokens in a text that goes on: the reader of tokens settles (`settles_token`). Besides, the tokens that end a fragment are
looked at: a closing parenthesis is a token of its own (`read_eq_close`), and no repetition is written with one at its
end (`getLast_of_repeat`).
-/

set_option autoImplicit false
set_option relaxedAutoImplicit false

namespace PathBinding.Regex

/-! ### Groups -/

theorem flagChanges_extend {used : List Flag} {negated dangling colon : Bool} {x y : List Char}
    {changes : FlagChanges} (h : FlagChanges.read used negated dangling x = some (changes, colon, y)) :
    y <:+ x ∧ ∀ s, FlagChanges.read used negated dangling (x ++ s) = some (changes, colon, y ++ s) := by
  induction x generalizing used negated dangling changes with
  | nil => cases h
  | cons c rest ih =>
    rw [FlagChanges.read] at h
    split at h
    · next hend =>
      split at h
      · cases h
      next hdangling =>
      cases h
      refine ⟨List.suffix_cons c _, fun s ↦ ?_⟩
      rw [List.cons_append, FlagChanges.read, if_pos hend, if_neg hdangling]
    next hend =>
    split at h
    · next hc =>
      split at h
      · cases h
      next hnegated =>
      obtain ⟨hsuffix, hextend⟩ := ih h
      refine ⟨hsuffix.trans (List.suffix_cons c rest), fun s ↦ ?_⟩
      rw [List.cons_append, FlagChanges.read, if_neg hend, if_pos hc, if_neg hnegated, hextend s]
    next hc =>
    split at h
    · cases h
    next flag hflag =>
    split at h
    · cases h
    next hused =>
    obtain ⟨⟨changes', colon', y'⟩, hrest, hsame⟩ := Option.map_eq_some_iff.mp h
    cases hsame
    obtain ⟨hsuffix, hextend⟩ := ih hrest
    refine ⟨hsuffix.trans (List.suffix_cons c _), fun s ↦ ?_⟩
    simp only [List.cons_append, FlagChanges.read, if_neg hend, if_neg hc, hflag, if_neg hused,
      hextend s, Option.map_some]

namespace Token

theorem settles_groupName : Settles groupName := by
  refine .of fun x y v h ↦ ?_
  unfold groupName at h
  rw [List.span_eq_takeWhile_dropWhile] at h
  split at h
  · next first letters rest hspan =>
    split at h
    swap
    · cases h
    next hname =>
    cases h
    obtain ⟨htake, hdrop⟩ := Prod.mk.inj hspan
    have hsuffix := List.dropWhile_suffix (l := x) (· != '>')
    rw [hdrop] at hsuffix
    refine ⟨(List.suffix_cons _ _).trans hsuffix, fun _ s ↦ ?_⟩
    rw [groupName, span_append (by simp [hdrop]), htake, hdrop]
    simp [hname]
  · cases h

/-- Flags begin with none of the characters that begin another kind of group. -/
theorem flagChanges_eq_none {c : Char} (hc : c = '=' ∨ c = '!' ∨ c = '<' ∨ c = 'P') (x : List Char) :
    FlagChanges.read [] false false (c :: x) = none := by
  rcases hc with rfl | rfl | rfl | rfl <;> rfl

theorem settles_flagGroup : Settles flagGroup := by
  refine .of fun x y v h ↦ ?_
  obtain ⟨⟨changes, colon, rest⟩, hchanges, h⟩ := Option.bind_eq_some_iff.mp h
  obtain ⟨hsuffix, hextend⟩ := flagChanges_extend hchanges
  cases colon with
  | true =>
    cases h
    exact ⟨hsuffix, fun _ s ↦ by simp [flagGroup, hextend s]⟩
  | false =>
    obtain ⟨_, hsome, h⟩ := Option.bind_eq_some_iff.mp h
    cases h
    refine ⟨hsuffix, fun _ s ↦ ?_⟩
    simp only [flagGroup, hextend s, Option.bind_eq_bind, Option.bind_some, Bool.false_eq_true,
      if_false, hsome]
    rfl

theorem openGroup_plain {c : Char} (hc : c ≠ '?') (x : List Char) :
    openGroup (c :: x) = some (.group none, c :: x) := by
  unfold openGroup
  split <;> simp_all

theorem openGroup_flags {d : Char} (hd : ¬(d = '=' ∨ d = '!' ∨ d = '<' ∨ d = 'P')) (x : List Char) :
    openGroup ('?' :: d :: x) = flagGroup (d :: x) := by
  simp only [not_or] at hd
  simp [openGroup, hd]

theorem settles_openGroup : Settles openGroup := by
  refine .of fun x y v h ↦ ?_
  match x with
  | [] =>
    cases h
    exact ⟨List.suffix_rfl, fun hy ↦ absurd rfl hy⟩
  | c :: x =>
    by_cases hc : c = '?'
    swap
    · rw [openGroup_plain hc] at h
      cases h
      exact ⟨List.suffix_rfl, fun _ s ↦ openGroup_plain hc (x ++ s)⟩
    subst hc
    match x with
    | [] => cases h
    | d :: x =>
      by_cases hd : d = '=' ∨ d = '!' ∨ d = '<' ∨ d = 'P'
      swap
      · rw [openGroup_flags hd] at h
        refine ⟨(settles_flagGroup.suffix h).trans (List.suffix_cons _ _), fun hy s ↦ ?_⟩
        exact (openGroup_flags hd (x ++ s)).trans (settles_flagGroup.extend h hy s)
      have hnamed {text x : List Char} (hread : groupName x = some (v, y)) (hx : x <:+ text)
          (hopen : ∀ s, openGroup (text ++ s) = groupName (x ++ s)) :
          y <:+ text ∧ (y ≠ [] → ∀ s, openGroup (text ++ s) = some (v, y ++ s)) :=
        ⟨(settles_groupName.suffix hread).trans hx, fun hy s ↦
          (hopen s).trans (settles_groupName.extend hread hy s)⟩
      rcases hd with rfl | rfl | rfl | rfl
      · cases h
      · cases h
      · match x with
        | [] => cases h
        | e :: x =>
          by_cases he : e = '=' ∨ e = '!'
          · rcases he with rfl | rfl <;> cases h
          · simp only [not_or] at he
            have hopen (x : List Char) : openGroup ('?' :: '<' :: e :: x) = groupName (e :: x) := by
              simp [openGroup, he]
            exact hnamed ((hopen x).symm.trans h) ((List.suffix_cons _ _).trans (List.suffix_cons _ _))
              fun s ↦ hopen (x ++ s)
      · match x with
        | [] => cases h
        | e :: x =>
          by_cases he : e = '<'
          · subst he
            exact hnamed (x := x) h (((List.suffix_cons _ _).trans (List.suffix_cons _ _)).trans
              (List.suffix_cons _ _)) fun s ↦ rfl
          · have hopen : openGroup ('?' :: 'P' :: e :: x) = flagGroup ('P' :: e :: x) := by
              simp [openGroup, he]
            rw [hopen, flagGroup, flagChanges_eq_none (by simp)] at h
            cases h

/-! ### Repetitions -/

theorem settles_laziness : Settles fun x ↦ some (laziness x) := by
  refine .of fun x y v h ↦ ?_
  rw [Option.some_inj, laziness.eq_def] at h
  split at h
  · next rest =>
    cases h
    exact ⟨List.suffix_cons _ _, fun _ s ↦ rfl⟩
  · next hlazy =>
    cases h
    refine ⟨List.suffix_rfl, fun hy s ↦ ?_⟩
    cases x with
    | nil => exact absurd rfl hy
    | cons c rest =>
      have hc : c ≠ '?' := fun hc ↦ hlazy rest (by rw [hc])
      simp [laziness, hc]

theorem settles_simpleRepeat (min : Nat) (max : Option Nat) :
    Settles fun x ↦ some (simpleRepeat min max x) :=
  settles_laziness.map (Token.repeat min max)

theorem settles_upperCount (verbose : Bool) (min : Nat) : Settles (upperCount verbose min) := by
  refine .of fun x y v h ↦ ?_
  match x with
  | [] => cases h
  | c :: x =>
    by_cases hc : c = '\x7d'
    · subst hc
      cases h
      exact ⟨List.suffix_cons _ _, fun _ s ↦ rfl⟩
    by_cases hcomma : c = ','
    swap
    · simp [upperCount, hc, hcomma] at h
    subst hcomma
    have hskip := skipBlanks_suffix verbose x
    simp only [upperCount] at h
    split at h
    · next rest hx =>
      cases h
      rw [hx] at hskip
      refine ⟨((List.suffix_cons _ _).trans hskip).trans (List.suffix_cons _ _), fun _ s ↦ ?_⟩
      have hmore : skipBlanks verbose (x ++ s) = skipBlanks verbose x ++ s :=
        skipBlanks_append (by simp [hx]) s
      simp [upperCount, hmore, hx]
    · next hbrace =>
      obtain ⟨⟨max, rest⟩, hmax, h⟩ := Option.bind_eq_some_iff.mp h
      have hsuffix := (settles_readCount verbose).suffix hmax
      cases rest with
      | nil => cases h
      | cons d rest =>
        by_cases hd : d = '\x7d'
        swap
        · simp [hd] at h
        subst hd
        cases h
        refine ⟨((List.suffix_cons _ _).trans (hsuffix.trans hskip)).trans (List.suffix_cons _ _),
          fun _ s ↦ ?_⟩
        have hne : skipBlanks verbose x ≠ [] := ne_nil_of_suffix hsuffix (List.cons_ne_nil _ _)
        have hmax' := (settles_readCount verbose).extend hmax (List.cons_ne_nil _ _) s
        simp only [List.cons_append] at hmax'
        simp only [List.cons_append, upperCount, skipBlanks_append hne s]
        split
        · next r heq =>
          cases hz : skipBlanks verbose x with
          | nil => exact absurd hz hne
          | cons e z =>
            rw [hz] at heq
            exact absurd (by rw [hz, (List.cons.inj heq).1]) (hbrace z)
        · simp only [hmax', Option.bind_eq_bind, Option.bind_some]

theorem settles_countedRepeat (verbose : Bool) : Settles (countedRepeat verbose) := by
  refine .of fun x y v h ↦ ?_
  obtain ⟨⟨min, rest⟩, hmin, h⟩ := Option.bind_eq_some_iff.mp h
  obtain ⟨⟨max, rest'⟩, hmax, h⟩ := Option.bind_eq_some_iff.mp h
  obtain ⟨_, hle, h⟩ := Option.bind_eq_some_iff.mp h
  have hcount := (settles_readCount verbose).skip verbose
  have hupper := settles_upperCount verbose min
  have hlazy : Settles fun x ↦ some (laziness (skipBlanks verbose x)) :=
    (settles_skipBlanks verbose).bind fun _ ↦ settles_laziness
  cases hlast : laziness (skipBlanks verbose rest') with
  | mk greedy rest'' =>
    dsimp only at h
    rw [hlast] at h
    cases h
    have hsuffix := hlazy.suffix (congrArg some hlast)
    have hsuffix' := hupper.suffix hmax
    refine ⟨hsuffix.trans (hsuffix'.trans (hcount.suffix hmin)), fun hy s ↦ ?_⟩
    have hne := ne_nil_of_suffix hsuffix hy
    have hmin' := hcount.extend hmin (ne_nil_of_suffix hsuffix' hne) s
    have hmax' := hupper.extend hmax hne s
    have hlast' := Option.some_inj.mp (hlazy.extend (congrArg some hlast) hy s)
    simp only [countedRepeat, hmin', hmax', Option.bind_eq_bind, Option.bind_some, hle, hlast']
    rfl

/-! ### Tokens -/

/-- A token of one character. -/
theorem settles_single (token : Option Token) : Settles fun x ↦ token.map (·, x) := by
  refine .of fun x y v h ↦ ?_
  obtain ⟨u, hu, hsame⟩ := Option.map_eq_some_iff.mp h
  cases hsame
  exact ⟨List.suffix_rfl, fun _ s ↦ by rw [hu]; rfl⟩

theorem settles_escape (flags : Flags) : Settles fun x ↦ (readEscape flags x).bind fun p ↦
    (ofPrimitive? flags p.1).bind fun r ↦ some (Token.atom r 0, p.2) := by
  have hread := (settles_readEscape flags).filterMap fun primitive ↦
    (ofPrimitive? flags primitive).map (Token.atom · 0)
  have hsame : (fun x ↦ (readEscape flags x).bind fun p ↦
      ((ofPrimitive? flags p.1).map (Token.atom · 0)).map (·, p.2)) =
      fun x ↦ (readEscape flags x).bind fun p ↦
        (ofPrimitive? flags p.1).bind fun r ↦ some (Token.atom r 0, p.2) := by
    funext x
    congr 1
    funext p
    cases ofPrimitive? flags p.1 <;> rfl
  rwa [hsame] at hread

theorem settles_token (flags : Flags) (c : Char) : Settles (Token.read flags c) := by
  refine .of fun x y v h ↦ ?_
  unfold Token.read at h
  split at h
  · exact ((settles_skipBlanks flags.verbose).bind fun _ ↦ settles_openGroup).apply h
  · exact (settles_single (some .close)).apply h
  · exact (settles_single (some .bar)).apply h
  · exact ((Bracket.settles_bracket flags).map
      fun item ↦ Token.atom (.set (markIf flags item.chars)) item.height).apply h
  · exact (settles_simpleRepeat 0 (some 1)).apply h
  · exact (settles_simpleRepeat 0 none).apply h
  · exact (settles_simpleRepeat 1 none).apply h
  · exact (settles_countedRepeat flags.verbose).apply h
  · obtain ⟨r, hr, hsame⟩ := Option.map_eq_some_iff.mp h
    cases hsame
    refine ⟨List.suffix_rfl, fun _ s ↦ ?_⟩
    simp only [Token.read, hr, Option.map_some]
  · exact (settles_single (some (.atom (caret flags) 0))).apply h
  · exact (settles_single (some (.atom (dollar flags) 0))).apply h
  · exact (settles_escape flags).apply h
  · obtain ⟨r, hr, hsame⟩ := Option.map_eq_some_iff.mp h
    cases hsame
    refine ⟨List.suffix_rfl, fun _ s ↦ ?_⟩
    rw [Token.read] <;> first | assumption | rw [hr]; rfl

/-! ### The last character -/

theorem laziness_nil {x : List Char} {greedy : Bool} (h : laziness x = (greedy, [])) : x = [] ∨ x = ['?'] := by
  unfold laziness at h
  split at h
  · next rest =>
    cases h
    exact Or.inr rfl
  · cases h
    exact Or.inl rfl

theorem upperCount_suffix {verbose : Bool} {min : Nat} {x y : List Char} {max : Option Nat}
    (h : upperCount verbose min x = some (max, y)) : '\x7d' :: y <:+ x := by
  unfold upperCount at h
  split at h
  · next rest =>
    have hskip := skipBlanks_suffix verbose rest
    split at h
    · next rest' hrest =>
      cases h
      rw [hrest] at hskip
      exact hskip.trans (List.suffix_cons _ _)
    · obtain ⟨⟨max, rest'⟩, hmax, h⟩ := Option.bind_eq_some_iff.mp h
      dsimp only at h
      split at h
      · cases h
        exact (((settles_readCount verbose).suffix hmax).trans hskip).trans (List.suffix_cons _ _)
      · cases h
  · cases h
    exact List.suffix_rfl
  · cases h

/-- Whether a token begins a group or switches flags. -/
def isOpening : Token → Bool
  | .group _ | .scope _ | .switch _ => true
  | _ => false

theorem isOpening_of_openGroup {x y : List Char} {token : Token} (h : openGroup x = some (token, y)) :
    token.isOpening = true := by
  unfold openGroup at h
  split at h
  iterate 4 cases h
  iterate 2
    unfold groupName at h
    split at h
    · split at h
      · cases h
        rfl
      · cases h
    · cases h
  · obtain ⟨⟨changes, colon, rest⟩, _, h⟩ := Option.bind_eq_some_iff.mp h
    cases colon with
    | true =>
      cases h
      rfl
    | false =>
      obtain ⟨_, _, hswitch⟩ := Option.bind_eq_some_iff.mp h
      cases hswitch
      rfl
  · cases h
    rfl

theorem read_eq_close {flags : Flags} {c : Char} {x y : List Char}
    (h : Token.read flags c x = some (.close, y)) : c = ')' ∧ y = x := by
  unfold Token.read at h
  split at h
  · cases isOpening_of_openGroup h
  · cases h
    exact ⟨rfl, rfl⟩
  · cases h
  · obtain ⟨_, _, hsame⟩ := Option.map_eq_some_iff.mp h
    cases hsame
  iterate 3 cases h
  · obtain ⟨_, _, h⟩ := Option.bind_eq_some_iff.mp h
    obtain ⟨_, _, h⟩ := Option.bind_eq_some_iff.mp h
    obtain ⟨_, _, h⟩ := Option.bind_eq_some_iff.mp h
    cases h
  · obtain ⟨_, _, hsame⟩ := Option.map_eq_some_iff.mp h
    cases hsame
  iterate 2 cases h
  · obtain ⟨_, _, h⟩ := Option.bind_eq_some_iff.mp h
    obtain ⟨_, _, h⟩ := Option.bind_eq_some_iff.mp h
    cases h
  · obtain ⟨_, _, hsame⟩ := Option.map_eq_some_iff.mp h
    cases hsame

/-- A repetition is not written with a parenthesis at its end. -/
theorem getLast_of_repeat {flags : Flags} (hverbose : flags.verbose = false) {c : Char} {x : List Char}
    {min : Nat} {max : Option Nat} {greedy : Bool}
    (h : Token.read flags c x = some (.repeat min max greedy, [])) : (c :: x).getLast? ≠ some ')' := by
  have hsimple {c : Char} (hc : c ≠ ')') {least : Nat} {most : Option Nat}
      (h : some (simpleRepeat least most x) = some (.repeat min max greedy, [])) :
      (c :: x).getLast? ≠ some ')' := by
    unfold simpleRepeat at h
    obtain rfl | rfl := laziness_nil (Prod.ext rfl (Prod.ext_iff.mp (Option.some_inj.mp h)).2)
    · simpa using hc
    · simp
  unfold Token.read at h
  split at h
  · cases isOpening_of_openGroup h
  iterate 2 cases h
  · obtain ⟨_, _, hsame⟩ := Option.map_eq_some_iff.mp h
    cases hsame
  iterate 3 exact hsimple (by decide) h
  · obtain ⟨⟨least, rest⟩, hmin, h⟩ := Option.bind_eq_some_iff.mp h
    obtain ⟨⟨most, rest'⟩, hmax, h'⟩ := Option.bind_eq_some_iff.mp h
    obtain ⟨_, _, hlast⟩ := Option.bind_eq_some_iff.mp h'
    rw [hverbose] at hmin hmax hlast
    obtain ⟨z, hz⟩ := (upperCount_suffix hmax).trans ((settles_readCount false).suffix hmin)
    have hlazy := (Prod.ext_iff.mp (Option.some_inj.mp hlast)).2
    have hx : x = z ++ '\x7d' :: rest' := hz.symm
    obtain rfl | rfl := laziness_nil (Prod.ext rfl hlazy)
    · rw [hx, ← List.cons_append, List.getLast?_append]
      simp
    · rw [hx, ← List.cons_append, List.getLast?_append]
      simp
  · obtain ⟨_, _, hsame⟩ := Option.map_eq_some_iff.mp h
    cases hsame
  iterate 2 cases h
  · obtain ⟨_, _, h⟩ := Option.bind_eq_some_iff.mp h
    obtain ⟨_, _, h⟩ := Option.bind_eq_some_iff.mp h
    cases h
  · obtain ⟨_, _, hsame⟩ := Option.map_eq_some_iff.mp h
    cases hsame

end Token

end PathBinding.Regex
