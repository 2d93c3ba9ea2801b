import PathBinding.Proofs.Regex.Alternatives
import PathBinding.Proofs.Regex.Part
import PathBinding.Regex.Escape

/-!
Texts that are written as several parts in a row. A text spells parts if it adds them wherever it is read without flags,
unless a question mark follows (`Spells`). Plain and escaped characters spell themselves (`spells_plain`,
`spells_escaped`), groups spell one part (`Grouped.spells`, `spells_named`, `spells_scope`), and texts that stand behind
each other spell what they spell alone (`Spells.append`). Between bars a text that spells parts is an alternative
(`takeAll_alternatives`).
-/

set_option autoImplicit false
set_option relaxedAutoImplicit false

namespace PathBinding.Regex

/-- The level with further parts. -/
def Level.pushAll (level : Level) (parts : List Part) : Level :=
  ⟨level.alternatives, parts.reverse ++ level.parts⟩

/-- Where the text is read without flags, in front of anything but a question mark, it adds the parts if it can be read
at all. -/
def Spells (x : List Char) (parts : List Part) : Prop :=
  ∀ ⦃p r : Parsing⦄ ⦃n : Nat⦄ ⦃s : List Char⦄, p.flags = {} → s.head? ≠ some '?' → p.takeAll n (x ++ s) = some r →
    ∃ names m, (⟨{}, names, p.enclosing, p.level.pushAll parts⟩ : Parsing).takeAll m s = some r

namespace Spells

variable {x y : List Char} {parts more : List Part}

theorem nil : Spells [] [] := by
  intro p r n s hflags _ hr
  obtain ⟨flags, names, enclosing, level⟩ := p
  cases hflags
  exact ⟨names, n, hr⟩

theorem append (hx : Spells x parts) (hy : Spells y more) (hhead : y.head? ≠ some '?') :
    Spells (x ++ y) (parts ++ more) := by
  intro p r n s hflags hs hr
  rw [List.append_assoc] at hr
  have hnext : (y ++ s).head? ≠ some '?' := by
    cases y with
    | nil => exact hs
    | cons c y => exact hhead
  obtain ⟨names, m, hm⟩ := hx hflags hnext hr
  obtain ⟨names', m', hm'⟩ := hy rfl hs hm
  refine ⟨names', m', ?_⟩
  simpa [Level.pushAll] using hm'

end Spells

/-! ### Characters -/

/-- The characters that do not stand for themselves. -/
def syntaxCharacters : List Char :=
  ['(', ')', '|', '[', '?', '*', '+', '\x7b', '.', '^', '$', '\\']

/-- The part that a character makes. -/
def literalPart (c : Char) : Part :=
  ⟨.set (.single c), 0, true⟩

theorem spells_atom {c : Char} {x : List Char} {r : Regex} {height : Nat}
    (h : ∀ s, Token.read {} c (x ++ s) = some (.atom r height, s)) : Spells (c :: x) [⟨r, height, true⟩] := by
  intro p q n s hflags _ hq
  obtain ⟨flags, names, enclosing, level⟩ := p
  cases hflags
  obtain ⟨next, m, htake, hm⟩ := takeAll_token (p := ⟨{}, names, enclosing, level⟩) rfl (h s) hq
  cases htake
  exact ⟨names, m, hm⟩

theorem read_plain {c : Char} (hc : c ∉ syntaxCharacters) (s : List Char) :
    Token.read {} c s = some (.atom (.set (.single c)) 0, s) := by
  simp only [syntaxCharacters, List.mem_cons, List.not_mem_nil, or_false, not_or] at hc
  obtain ⟨h1, h2, h3, h4, h5, h6, h7, h8, h9, h10, h11, h12⟩ := hc
  rw [Token.read] <;> first | assumption | rfl

theorem readEscape_of_isEscapable {c : Char} (hc : isEscapable c = true) (s : List Char) :
    readEscape {} (c :: s) = some (.literal c false, s) := by
  have hne (d : Char) (hd : isEscapable d = false) : c ≠ d := fun heq ↦ Bool.false_ne_true (hd.symm.trans (heq ▸ hc))
  have hshorthand : shorthand? {} c = none := by
    rw [shorthand?] <;> exact hne _ rfl
  have hliteral : literalEscape? c = some c := by
    rw [literalEscape?, if_pos hc] <;> exact hne _ rfl
  rw [readEscape, hshorthand, hliteral] <;> first | rfl | exact fun heq ↦ hne _ rfl heq

theorem read_escaped {c : Char} (hc : isEscapable c = true) (s : List Char) :
    Token.read {} '\\' (c :: s) = some (.atom (.set (.single c)) 0, s) := by
  rw [Token.read, readEscape_of_isEscapable hc]
  rfl

theorem spells_plain {c : Char} (hc : c ∉ syntaxCharacters) : Spells [c] [literalPart c] :=
  spells_atom (read_plain hc)

theorem isEscapable_of_isMeta {c : Char} (hc : isMeta c = true) : isEscapable c = true := by
  have hall : metaCharacters.all isEscapable = true := rfl
  exact List.all_eq_true.mp hall c (List.contains_iff_mem.mp hc)

theorem spells_escaped {c : Char} (hc : isMeta c = true) : Spells ['\\', c] [literalPart c] :=
  spells_atom (read_escaped (isEscapable_of_isMeta hc))

/-! ### Groups -/

theorem Grouped.spells {x : List Char} {part : Part} {names : List String} (h : Grouped x part names) :
    Spells x [part] := by
  intro p r n s hflags _ hr
  obtain ⟨m, hm⟩ := h.takeAll hflags hr
  exact ⟨_, m, hm⟩

/-- The beginning of a group that captures under a name. -/
def openNamed (name : String) : List Char :=
  ['(', '?', 'P', '<'] ++ name.toList ++ ['>']

/-- A letter with letters, digits and underscores behind it. -/
def IsGroupName (name : String) : Prop :=
  ∃ first letters, name.toList = first :: letters ∧ first.isAlpha = true ∧
    ∀ c ∈ letters, (c.isAlphanum || c == '_') = true

theorem read_openNamed {name : String} (h : IsGroupName name) (s : List Char) :
    Token.read {} '(' (['?', 'P', '<'] ++ name.toList ++ ['>'] ++ s) = some (.group (some name), s) := by
  obtain ⟨first, letters, hname, hfirst, hletters⟩ := h
  have hend : ∀ c ∈ first :: letters, (c != '>') = true := by
    intro c hc
    rw [bne_iff_ne]
    rintro rfl
    rcases List.mem_cons.mp hc with rfl | hc
    · cases hfirst
    · cases hletters _ hc
  have hspan : (first :: letters ++ '>' :: s).span (· != '>') = (first :: letters, '>' :: s) := by
    rw [List.span_eq_takeWhile_dropWhile, List.takeWhile_append_of_pos hend, List.dropWhile_append_of_pos hend]
    simp
  have hstart : Token.isNameStart first = true := by
    simp [Token.isNameStart, hfirst]
  have hrest : letters.all Token.isNameChar = true := by
    refine List.all_eq_true.mpr fun c hc ↦ ?_
    have hword := hletters c hc
    simp only [Char.isAlphanum, Bool.or_eq_true] at hword
    simp only [Token.isNameChar, Token.isNameStart, Bool.or_eq_true]
    rcases hword with (h | h) | h
    · simp [h]
    · simp [h]
    · simp [h]
  have hgroup : Token.groupName (first :: letters ++ '>' :: s) = some (.group (some name), s) := by
    have hof : String.ofList (first :: letters) = name := by
      rw [← hname, String.ofList_toList]
    rw [Token.groupName, hspan]
    simp only [hstart, hrest, Bool.and_self, if_true, hof]
  rw [hname]
  have htext : ['?', 'P', '<'] ++ first :: letters ++ ['>'] ++ s = '?' :: 'P' :: '<' :: (first :: letters ++ '>' :: s) := by
    simp
  rw [htext]
  exact hgroup

/-- The part of a group that captures under a name. -/
theorem spells_named {name : String} (hname : IsGroupName name) {x : List Char} {inner : Parsing}
    (h : Interior {} (x ++ [')']) inner) :
    Spells (openNamed name ++ x ++ [')']) [inner.part (.capturing (some name))] := by
  intro p r n s hflags _ hr
  have hread := read_openNamed hname (x ++ [')'])
  have htext : openNamed name ++ x ++ [')'] = '(' :: (['?', 'P', '<'] ++ name.toList ++ ['>'] ++ (x ++ [')'])) := by
    simp [openNamed]
  rw [htext] at hr
  obtain ⟨m, hm⟩ := takeAll_group hread rfl h hflags hr
  exact ⟨_, m, hm⟩

/-! ### Alternatives -/

/-- The level behind texts with bars between them, of which each spells parts. -/
def Level.reading (level : Level) : List (List Part) → Level
  | [] => level
  | [parts] => level.pushAll parts
  | parts :: rest => (level.pushAll parts).bar.reading rest

theorem takeAll_alternatives {xs : List (List Char)} {branches : List (List Part)}
    (h : List.Forall₂ Spells xs branches) {p r : Parsing} {n : Nat} {s : List Char} (hflags : p.flags = {})
    (hs : s.head? ≠ some '?') (hr : p.takeAll n (['|'].intercalate xs ++ s) = some r) :
    ∃ names m, (⟨{}, names, p.enclosing, p.level.reading branches⟩ : Parsing).takeAll m s = some r := by
  induction h generalizing p n with
  | nil =>
    obtain ⟨flags, names, enclosing, level⟩ := p
    cases hflags
    exact ⟨names, n, hr⟩
  | @cons x parts xs more hx htail ih =>
    cases htail with
    | nil =>
      rw [List.intercalate_singleton] at hr
      exact hx hflags hs hr
    | @cons y parts' ys more' hy htail =>
      rw [List.intercalate_cons_cons, List.append_assoc, List.append_assoc] at hr
      obtain ⟨names, m, hm⟩ := hx hflags (by simp) hr
      obtain ⟨next, l, htake, hl⟩ := takeAll_token (p := ⟨{}, names, p.enclosing, p.level.pushAll parts⟩)
        (c := '|') rfl rfl hm
      cases htake
      exact ih rfl hl

/-- The alternative that parts make. -/
def branchPart (parts : List Part) : Part :=
  ⟨.sequence (parts.map (·.regex)), Level.heightOf parts.reverse, true⟩

theorem branches_reading {branches : List (List Part)} (hne : branches ≠ []) (alternatives : List Part) :
    let level := (⟨alternatives, []⟩ : Level).reading branches
    (level.sequence :: level.alternatives).reverse = alternatives.reverse ++ branches.map branchPart := by
  have hsequence (alternatives : List Part) (parts : List Part) :
      ((⟨alternatives, []⟩ : Level).pushAll parts).sequence = branchPart parts := by
    simp [Level.pushAll, Level.sequence, branchPart]
  induction branches generalizing alternatives with
  | nil => exact absurd rfl hne
  | cons parts rest ih =>
    cases rest with
    | nil =>
      intro level
      have hlevel : level.sequence = branchPart parts := hsequence alternatives parts
      rw [List.reverse_cons, hlevel]
      rfl
    | cons parts' rest =>
      have hrest := ih (List.cons_ne_nil _ _) (branchPart parts :: alternatives)
      intro level
      have hlevel : level = (⟨branchPart parts :: alternatives, []⟩ : Level).reading (parts' :: rest) := by
        simp only [level, Level.reading, Level.bar, hsequence]
        rfl
      rw [hlevel]
      simpa using hrest

/-- What alternatives denote that texts spell. -/
def alternatives (branches : List (List Part)) : Regex :=
  .alternation (branches.map fun parts ↦ .sequence (parts.map (·.regex)))

theorem close_reading {branches : List (List Part)} (hne : branches ≠ []) :
    (Level.empty.reading branches).close =
      ⟨alternatives branches, Level.heightOf (branches.map branchPart), true⟩ := by
  have hbranches := branches_reading hne []
  rw [Level.close]
  dsimp only at hbranches ⊢
  rw [Level.empty, hbranches, alternatives, List.reverse_nil, List.nil_append, List.map_map]
  rfl

/-- The part that alternatives make in parentheses. -/
def enclosedPart (grouping : Grouping) (branches : List (List Part)) : Part :=
  ⟨grouping.around (alternatives branches), Level.heightOf (branches.map branchPart) + 1, true⟩

/-- The part that alternatives make when they are held together. -/
abbrev scopePart (branches : List (List Part)) : Part :=
  enclosedPart .plain branches

theorem takeAll_enclosed {opening : List Char} {token : Token} {grouping : Grouping} {own : List String}
    (hread : ∀ s, Token.read {} '(' (opening ++ s) = some (token, s)) (hopens : token.opens? = some (grouping, [], own))
    {xs : List (List Char)} {branches : List (List Part)} (h : List.Forall₂ Spells xs branches) (hne : branches ≠ [])
    {p r : Parsing} {n : Nat} {s : List Char} (hflags : p.flags = {})
    (hr : p.takeAll n ('(' :: opening ++ ['|'].intercalate xs ++ [')'] ++ s) = some r) :
    ∃ names m, (⟨{}, names, p.enclosing, p.level.push (enclosedPart grouping branches)⟩ : Parsing).takeAll m s =
      some r := by
  obtain ⟨flags, names, enclosing, level⟩ := p
  cases hflags
  have htext : '(' :: opening ++ ['|'].intercalate xs ++ [')'] ++ s =
      '(' :: (opening ++ (['|'].intercalate xs ++ ')' :: s)) := by
    simp
  rw [htext] at hr
  obtain ⟨next, m, htake, hm⟩ := takeAll_token (p := ⟨{}, names, enclosing, level⟩) rfl (hread _) hr
  rw [take_opens hopens] at htake
  split at htake
  swap
  · cases htake
  cases htake
  obtain ⟨names', l, hl⟩ := takeAll_alternatives h (by rfl) (by simp) hm
  obtain ⟨last, i, hlast, hi⟩ := takeAll_token (p := ⟨{}, names', ⟨grouping, {}, level⟩ :: enclosing,
    Level.empty.reading branches⟩) (c := ')') rfl rfl hl
  cases hlast
  refine ⟨names', i, ?_⟩
  rw [close_reading hne] at hi
  exact hi

theorem takeAll_scope {xs : List (List Char)} {branches : List (List Part)} (h : List.Forall₂ Spells xs branches)
    (hne : branches ≠ []) {p r : Parsing} {n : Nat} {s : List Char} (hflags : p.flags = {})
    (hr : p.takeAll n (['(', '?', ':'] ++ ['|'].intercalate xs ++ [')'] ++ s) = some r) :
    ∃ names m, (⟨{}, names, p.enclosing, p.level.push (scopePart branches)⟩ : Parsing).takeAll m s = some r := by
  have hread (s : List Char) : Token.read {} '(' (['?', ':'] ++ s) = some (.scope [], s) := rfl
  exact takeAll_enclosed hread rfl h hne hflags hr

/-- A group that captures under a name, around a text that spells parts. -/
theorem spells_capturing {name : String} (hname : IsGroupName name) {x : List Char} {parts : List Part}
    (h : Spells x parts) :
    Spells (openNamed name ++ x ++ [')']) [enclosedPart (.capturing (some name)) [parts]] := by
  intro p r n s hflags _ hr
  have htext : openNamed name ++ x ++ [')'] ++ s =
      '(' :: (['?', 'P', '<'] ++ name.toList ++ ['>']) ++ ['|'].intercalate [x] ++ [')'] ++ s := by
    simp [openNamed]
  rw [htext] at hr
  exact takeAll_enclosed (read_openNamed hname) rfl (.cons h .nil) (List.cons_ne_nil _ _) hflags hr

/-- Texts with bars between them, held together. -/
theorem spells_scope {xs : List (List Char)} {branches : List (List Part)} (h : List.Forall₂ Spells xs branches)
    (hne : branches ≠ []) : Spells (['(', '?', ':'] ++ ['|'].intercalate xs ++ [')']) [scopePart branches] :=
  fun _ _ _ _ hflags _ hr ↦ takeAll_scope h hne hflags hr

/-! ### Repetitions -/

theorem laziness_of_head {s : List Char} (hs : s.head? ≠ some '?') : Token.laziness s = (true, s) := by
  unfold Token.laziness
  split
  · exact absurd rfl hs
  · rfl

/-- The part that any number of repetitions of a part makes. -/
def Part.star (part : Part) : Part :=
  ⟨.repetition 0 none true part.regex, part.height + 1, true⟩

def Part.optional (part : Part) : Part :=
  ⟨.repetition 0 (some 1) true part.regex, part.height + 1, true⟩

theorem spells_star {x : List Char} {part : Part} (h : Spells x [part]) (hpart : part.repeatable = true) :
    Spells (x ++ ['*']) [part.star] := by
  intro p r n s hflags hs hr
  rw [List.append_assoc] at hr
  obtain ⟨names, m, hm⟩ := h hflags (by simp) hr
  have hread : Token.read {} '*' s = some (.repeat 0 none true, s) := by
    rw [Token.read, Token.simpleRepeat, laziness_of_head hs]
  obtain ⟨next, l, htake, hl⟩ := takeAll_token (p := ⟨{}, names, p.enclosing, p.level.pushAll [part]⟩) rfl hread hm
  simp only [Parsing.take, Parsing.repeatLast, Level.pushAll, List.reverse_singleton, List.singleton_append, hpart,
    if_true, Option.some_inj] at htake
  subst htake
  exact ⟨names, l, hl⟩

/-- An optional group. -/
theorem spells_optional {x : List Char} {parts : List Part} (h : Spells x parts) :
    Spells (['(', '?', ':'] ++ x ++ [')', '?']) [(scopePart [parts]).optional] := by
  intro p r n s hflags hs hr
  have htext : ['(', '?', ':'] ++ x ++ [')', '?'] ++ s = ['(', '?', ':'] ++ ['|'].intercalate [x] ++ [')'] ++ '?' :: s := by
    simp
  rw [htext] at hr
  obtain ⟨names, m, hm⟩ := takeAll_scope (.cons h .nil) (List.cons_ne_nil _ _) hflags hr
  have hread : Token.read {} '?' s = some (.repeat 0 (some 1) true, s) := by
    rw [Token.read, Token.simpleRepeat, laziness_of_head hs]
  obtain ⟨next, l, htake, hl⟩ := takeAll_token (p := ⟨{}, names, p.enclosing, p.level.push (scopePart [parts])⟩)
    rfl hread hm
  cases htake
  exact ⟨names, l, hl⟩

/-! ### Anchored alternatives -/

/-- What alternatives between anchors denote. -/
def anchored (branches : List (List Part)) : Regex :=
  .sequence [.look .textStart, alternatives branches, .look .textEnd]

/-- The level of alternatives between anchors. -/
def anchoredLevel (branches : List (List Part)) : Level :=
  ((Level.empty.push ⟨.look .textStart, 0, true⟩).push (scopePart branches)).push ⟨.look .textEnd, 0, true⟩

theorem close_anchored (branches : List (List Part)) : (anchoredLevel branches).close =
    ⟨anchored branches, Level.heightOf (branches.map branchPart) + 2, true⟩ := by
  have hbranches : (anchored branches).branches = [anchored branches] := by
    by_cases hempty : alternatives branches = .empty
    · simp [anchored, sequence, hempty, Regex.branches]
    · simp [anchored, sequence, hempty, Regex.branches]
  have hheight : max (max (max 0 0) (Level.heightOf (branches.map branchPart) + 1)) 0 + 1 =
      Level.heightOf (branches.map branchPart) + 2 := by
    omega
  have hclose : (anchoredLevel branches).close = ⟨.alternation [anchored branches],
      max (max (max 0 0) (Level.heightOf (branches.map branchPart) + 1)) 0 + 1, true⟩ := rfl
  rw [hclose, alternation_singleton hbranches, hheight]

/-- The text denotes alternatives if it denotes anything. -/
theorem parse?_anchored {xs : List (List Char)} {branches : List (List Part)} (h : List.Forall₂ Spells xs branches)
    (hne : branches ≠ []) {r : Regex} (hr : parse? (['^', '(', '?', ':'] ++ ['|'].intercalate xs ++ [')', '$']) = some r) :
    r = anchored branches ∧ Level.heightOf (branches.map branchPart) + 2 ≤ nestLimit := by
  obtain ⟨p, hp, hr⟩ := Option.bind_eq_some_iff.mp hr
  have htext : ['^', '(', '?', ':'] ++ ['|'].intercalate xs ++ [')', '$'] =
      '^' :: (['(', '?', ':'] ++ ['|'].intercalate xs ++ [')'] ++ ['$']) := by
    simp
  rw [htext] at hp
  obtain ⟨next, m, htake, hm⟩ := takeAll_token (p := Parsing.start) (c := '^') rfl rfl hp
  cases htake
  obtain ⟨names, l, hl⟩ := takeAll_scope h hne (by rfl) hm
  obtain ⟨last, i, hlast, hi⟩ := takeAll_token (p := ⟨{}, names, [], _⟩) (c := '$') rfl rfl hl
  have hlevel : last.level = anchoredLevel branches := by
    cases hlast
    rfl
  have hverbose : last.flags.verbose = false := by
    cases hlast
    rfl
  rw [takeAll_end (by rw [hverbose]; rfl), Option.some_inj] at hi
  subst hi
  obtain ⟨_, _, hr⟩ := Option.bind_eq_some_iff.mp hr
  obtain ⟨_, hheight, hr⟩ := Option.bind_eq_some_iff.mp hr
  rw [hlevel, close_anchored] at hheight hr
  refine ⟨(Option.some_inj.mp hr).symm, ?_⟩
  by_contra hgt
  rw [guard, if_neg hgt] at hheight
  cases hheight

/-- A group that is not too deep can be anchored. -/
theorem parse?_group {x : List Char} {part : Part} {names : List String} (h : Grouped x part names)
    (hheight : part.height + 2 ≤ nestLimit) :
    parse? (['^', '(', '?', ':'] ++ x ++ [')', '$']) = some (anchored [[part]]) := by
  have htext : ['^', '(', '?', ':'] ++ x ++ [')', '$'] = '^' :: '(' :: '?' :: ':' :: (x ++ [')', '$']) := by
    simp
  have hopen : Token.read {} '(' ('?' :: ':' :: (x ++ [')', '$'])) = some (.scope [], x ++ [')', '$']) := rfl
  let start : Level := Level.empty.push ⟨.look .textStart, 0, true⟩
  obtain ⟨k, hk⟩ := h.reads (p := ⟨{}, [], [⟨.plain, {}, start⟩], .empty⟩) rfl (by simp) [')', '$']
  rw [List.append_nil] at hk
  have hlast : Reads 2 ⟨{}, names, [⟨.plain, {}, start⟩], Level.empty.push part⟩ [')', '$']
      ⟨{}, names, [], anchoredLevel [[part]]⟩ [] :=
    .token rfl rfl rfl (.token rfl rfl rfl .done)
  have hreads : Reads (k + 2 + 1 + 1) Parsing.start (['^', '(', '?', ':'] ++ x ++ [')', '$'])
      ⟨{}, names, [], anchoredLevel [[part]]⟩ [] := by
    rw [htext]
    exact .token rfl rfl rfl (.token rfl hopen rfl (hk.trans hlast))
  have hle : Level.heightOf ([[part]].map branchPart) + 2 ≤ nestLimit := hheight
  rw [parse?, hreads.takeAll rfl]
  simp only [Option.bind_eq_bind, Option.bind_some, close_anchored, guard, if_pos hle]
  rfl

/-! ### Groups between anchors -/

theorem le_heightOf {part : Part} {parts : List Part} (h : part ∈ parts) : part.height ≤ Level.heightOf parts := by
  have hfoldl (heights : List Nat) (m : Nat) : m ≤ heights.foldl max m ∧ ∀ n ∈ heights, n ≤ heights.foldl max m := by
    induction heights generalizing m with
    | nil => simp
    | cons n rest ih =>
      obtain ⟨hm, hrest⟩ := ih (max m n)
      refine ⟨(Nat.le_max_left m n).trans hm, List.forall_mem_cons.mpr ⟨(Nat.le_max_right m n).trans hm, hrest⟩⟩
  unfold Level.heightOf
  split
  · cases h
  · rw [List.mem_singleton.mp h]
  · have := (hfoldl (parts.map (·.height)) 0).2 part.height (List.mem_map_of_mem h)
    omega

/-- A part that is a named group, as it is written in a text. -/
def IsGroup (x : List Char) (part : Part) : Prop :=
  (∃ names, Grouped x part names) ∧ ∃ name body, part.regex = .group name body

theorem alternatives_groups {parts : List Part} (h : ∀ part ∈ parts, ∃ name body, part.regex = .group name body) :
    alternatives (parts.map ([·])) = altAll (parts.map (·.regex)) := by
  have hsequence : (parts.map ([·])).map (fun parts ↦ sequence (parts.map (·.regex))) = parts.map (·.regex) := by
    rw [List.map_map]
    refine List.map_congr_left fun part hpart ↦ ?_
    obtain ⟨name, body, hregex⟩ := h part hpart
    simp [hregex, sequence]
  rw [alternatives, hsequence]
  refine alternation_groups fun r hr ↦ ?_
  obtain ⟨part, hpart, rfl⟩ := List.mem_map.mp hr
  exact h part hpart

theorem anchored_groups {parts : List Part} (h : ∀ part ∈ parts, ∃ name body, part.regex = .group name body) :
    anchored (parts.map ([·])) = .sequence [.look .textStart, altAll (parts.map (·.regex)), .look .textEnd] := by
  rw [anchored, alternatives_groups h]

/-- Groups between bars and anchors denote what they denote alone, one behind the other, and each can be anchored
alone. -/
theorem parse?_groups {xs : List (List Char)} {parts : List Part} (h : List.Forall₂ IsGroup xs parts) {r : Regex}
    (hr : parse? (['^', '(', '?', ':'] ++ ['|'].intercalate xs ++ [')', '$']) = some r) :
    r = .sequence [.look .textStart, altAll (parts.map (·.regex)), .look .textEnd] ∧
      List.Forall₂ (fun x part ↦ parse? (['^', '(', '?', ':'] ++ x ++ [')', '$']) =
        some (.sequence [.look .textStart, part.regex, .look .textEnd])) xs parts := by
  by_cases hne : parts = []
  · subst hne
    cases h
    obtain ⟨rfl, -⟩ := parse?_anchored (.cons .nil .nil) (List.cons_ne_nil [] []) hr
    exact ⟨rfl, .nil⟩
  have hspells : List.Forall₂ Spells xs (parts.map ([·])) := by
    rw [List.forall₂_map_right_iff]
    exact h.imp fun x part hgroup ↦ hgroup.1.elim fun _ ↦ Grouped.spells
  have hgroups : ∀ part ∈ parts, ∃ name body, part.regex = .group name body := by
    intro part hpart
    rw [← List.map_snd_zip (Nat.le_of_eq h.length_eq.symm)] at hpart
    obtain ⟨⟨x, part⟩, hmem, rfl⟩ := List.mem_map.mp hpart
    exact ((List.forall₂_iff_zip.mp h).2 hmem).2
  obtain ⟨hanchored, hheight⟩ := parse?_anchored hspells (by simpa using hne) hr
  refine ⟨hanchored.trans (anchored_groups hgroups), List.forall₂_iff_zip.mpr ⟨h.length_eq, fun {x part} hmem ↦ ?_⟩⟩
  obtain ⟨⟨names, hgrouped⟩, hregex⟩ := (List.forall₂_iff_zip.mp h).2 hmem
  have hmem' : branchPart [part] ∈ (parts.map ([·])).map branchPart :=
    List.mem_map_of_mem (List.mem_map_of_mem (List.of_mem_zip hmem).2)
  have hle : (branchPart [part]).height ≤ Level.heightOf ((parts.map ([·])).map branchPart) := le_heightOf hmem'
  have hdepth : part.height + 2 ≤ nestLimit := (Nat.add_le_add_right hle 2).trans hheight
  have hone : anchored ([part].map ([·])) = .sequence [.look .textStart, part.regex, .look .textEnd] :=
    anchored_groups (by simpa using hregex)
  rw [parse?_group hgrouped hdepth, ← hone]
  rfl

end PathBinding.Regex
