import PathBinding.Proofs.Regex.Openings
import PathBinding.Proofs.Regex.Writing

/-!
Texts of expressions as stretches: text that is copied, and beginnings of groups that are written between. Stretches are
passed if, wherever they are read without flags, the reader comes to each group that they begin and behind them is in the
groups that were open before (`Passed`). Text is passed that is read character by character (`passed_simple`), and so is a
group around an expression that can be held together (`passed_held`) or around stretches that are passed
(`passed_enclosed`); stretches that stand behind each other are passed one after the other (`Passed.append`). In a text
that is passed as a whole the reader comes to each group (`beginsAt_of_passed`).
-/

set_option autoImplicit false
set_option relaxedAutoImplicit false

namespace PathBinding.Regex

/-- A stretch of the text of an expression: text, or the beginning of a group that captures under a name. -/
inductive Stretch
  | text (text : List Char)
  | opening (name : String)
  deriving DecidableEq, Repr

namespace Stretch

def toText : Stretch → List Char
  | .text content => content
  | .opening name => openNamed name

@[simp]
theorem toText_text (content : List Char) : (text content).toText = content :=
  rfl

@[simp]
theorem toText_opening (name : String) : (opening name).toText = openNamed name :=
  rfl

def name? : Stretch → Option String
  | .text _ => none
  | .opening name => some name

end Stretch

/-- The text that stretches make up. -/
def textOf (stretches : List Stretch) : List Char :=
  stretches.flatMap Stretch.toText

/-- The names of the groups that stretches begin, from left to right. -/
def namesOf (stretches : List Stretch) : List String :=
  stretches.filterMap Stretch.name?

@[simp]
theorem textOf_nil : textOf [] = [] :=
  rfl

@[simp]
theorem textOf_cons (stretch : Stretch) (stretches : List Stretch) :
    textOf (stretch :: stretches) = stretch.toText ++ textOf stretches :=
  rfl

@[simp]
theorem textOf_append (stretches more : List Stretch) : textOf (stretches ++ more) = textOf stretches ++ textOf more :=
  List.flatMap_append

@[simp]
theorem namesOf_nil : namesOf [] = [] :=
  rfl

@[simp]
theorem namesOf_text (text : List Char) (stretches : List Stretch) :
    namesOf (.text text :: stretches) = namesOf stretches :=
  rfl

@[simp]
theorem namesOf_opening (name : String) (stretches : List Stretch) :
    namesOf (.opening name :: stretches) = name :: namesOf stretches :=
  rfl

@[simp]
theorem namesOf_append (stretches more : List Stretch) :
    namesOf (stretches ++ more) = namesOf stretches ++ namesOf more :=
  List.filterMap_append

/-- Stretches in parentheses, of which the first stretch is the opening one. -/
def enclosed (first : Stretch) (inner : List Stretch) : List Stretch :=
  first :: (inner ++ [.text [')']])

@[simp]
theorem textOf_enclosed (first : Stretch) (inner : List Stretch) :
    textOf (enclosed first inner) = first.toText ++ textOf inner ++ [')'] := by
  simp [enclosed]

@[simp]
theorem namesOf_enclosed (first : Stretch) (inner : List Stretch) :
    namesOf (enclosed first inner) = namesOf [first] ++ namesOf inner := by
  cases first <;> simp [enclosed]

/-- The beginning of parentheses that capture nothing. -/
def scope : Stretch :=
  .text ['(', '?', ':']

/-- Alternatives in front of an ampersand, repeated as often as one likes. The last of them is text without ampersands. -/
def pairStretches (branches : List (List Stretch)) : List Stretch :=
  enclosed scope (enclosed scope (branches.flatMap (· ++ [.text ['|']]) ++ [.text ['[', '^', '&', ']'], .text ['*']]) ++
    [.text ['&']]) ++ [.text ['*']]

theorem namesOf_pairStretches (branches : List (List Stretch)) :
    namesOf (pairStretches branches) = branches.flatMap namesOf := by
  have hbranches : namesOf (branches.flatMap (· ++ [.text ['|']])) = branches.flatMap namesOf := by
    rw [namesOf, List.filterMap_flatMap]
    exact List.flatMap_congr fun branch _ ↦ (namesOf_append branch _).trans (List.append_nil _)
  simp [pairStretches, scope, hbranches]

/-- The group of the name begins at the place, which is given by the text from there on. -/
def BeginsIn (stretches : List Stretch) (name : String) (place : List Char) : Prop :=
  ∃ before after, stretches = before ++ .opening name :: after ∧ place = textOf (.opening name :: after)

/-- If a name is begun once, it is begun at one place. -/
theorem existsUnique_beginsIn {stretches : List Stretch} {name : String} (hnodup : (namesOf stretches).Nodup)
    (hname : name ∈ namesOf stretches) : ∃! place, BeginsIn stretches name place := by
  have hopening {stretches : List Stretch} (h : name ∉ namesOf stretches) : .opening name ∉ stretches :=
    fun hmem ↦ h (List.mem_filterMap.mpr ⟨_, hmem, rfl⟩)
  obtain ⟨stretch, hstretch, hown⟩ := List.mem_filterMap.mp hname
  obtain rfl : stretch = .opening name := by
    cases stretch <;> cases hown
    rfl
  obtain ⟨before, after, rfl⟩ := List.append_of_mem hstretch
  rw [namesOf_append, namesOf_opening, List.nodup_middle, List.nodup_cons, List.mem_append, not_or] at hnodup
  obtain ⟨⟨hbefore, hafter⟩, -⟩ := hnodup
  refine ⟨_, ⟨before, after, rfl, rfl⟩, ?_⟩
  rintro _ ⟨before', after', hstretches, rfl⟩
  obtain ⟨-, -, rfl⟩ := (List.append_cons_inj_of_notMem (hopening hbefore) (hopening hafter)).mp hstretches
  rfl

/-! ### Passing by -/

/-- Wherever the stretches are read without flags in front of the text, the reader comes to each group that they begin, and
behind them it is in the groups that were open before. -/
def Passed (s : List Char) (stretches : List Stretch) : Prop :=
  ∀ ⦃p r : Parsing⦄ ⦃n : Nat⦄, p.flags = {} → p.takeAll n (textOf stretches ++ s) = some r →
    (∃ k q, Reads k p (textOf stretches ++ s) q s ∧ q.flags = {} ∧ q.enclosing = p.enclosing) ∧
      ∀ name place, BeginsIn stretches name place → ∃ k q, Reads k p (textOf stretches ++ s) q (place ++ s) ∧ q.flags = {}

theorem Reads.takeAll_behind {k n : Nat} {p q r : Parsing} {x y : List Char} (h : Reads k p x q y)
    (hr : p.takeAll n x = some r) : ∃ m, q.takeAll m y = some r := by
  induction h generalizing n with
  | done => exact ⟨n, hr⟩
  | token blanks read take _ ih =>
    obtain ⟨next, m, htake, hm⟩ := takeAll_token blanks read hr
    cases take.symm.trans htake
    exact ih hm

/-- Without flags no blanks are skipped, so the next token is read as it stands. -/
theorem takeAll_unflagged {c : Char} {rest rest' : List Char} {token : Token} {p r : Parsing} {n : Nat}
    (hflags : p.flags = {}) (hread : Token.read {} c rest = some (token, rest')) (hr : p.takeAll n (c :: rest) = some r) :
    ∃ next m, p.take token = some next ∧ Reads 1 p (c :: rest) next rest' ∧ next.takeAll m rest' = some r := by
  have hblanks : skipBlanks p.flags.verbose (c :: rest) = c :: rest := by
    rw [hflags]
    rfl
  rw [← hflags] at hread
  obtain ⟨next, m, hnext, hm⟩ := takeAll_token hblanks hread hr
  exact ⟨next, m, hnext, .token hblanks hread hnext .done, hm⟩

section BeginsIn

variable {stretches more : List Stretch} {name : String} {place : List Char}

theorem not_beginsIn_nil : ¬BeginsIn [] name place := by
  rintro ⟨before, after, hstretches, -⟩
  simp at hstretches

theorem beginsIn_cons {stretch : Stretch} : BeginsIn (stretch :: stretches) name place ↔
    (stretch = .opening name ∧ place = textOf (stretch :: stretches)) ∨ BeginsIn stretches name place := by
  constructor
  · rintro ⟨before, after, hstretches, rfl⟩
    cases before with
    | nil =>
      cases hstretches
      exact Or.inl ⟨rfl, rfl⟩
    | cons first before =>
      cases hstretches
      exact Or.inr ⟨before, after, rfl, rfl⟩
  · rintro (⟨rfl, rfl⟩ | ⟨before, after, rfl, rfl⟩)
    · exact ⟨[], stretches, rfl, rfl⟩
    · exact ⟨stretch :: before, after, rfl, rfl⟩

theorem not_beginsIn_text {content : List Char} : ¬BeginsIn [.text content] name place := by
  rw [beginsIn_cons]
  rintro (⟨hstretch, -⟩ | hnil)
  · cases hstretch
  · exact not_beginsIn_nil hnil

theorem beginsIn_append : BeginsIn (stretches ++ more) name place ↔
    (∃ inner, BeginsIn stretches name inner ∧ place = inner ++ textOf more) ∨ BeginsIn more name place := by
  induction stretches with
  | nil => simp [not_beginsIn_nil]
  | cons stretch stretches ih =>
    rw [List.cons_append, beginsIn_cons, ih, ← or_assoc]
    refine or_congr_left ⟨?_, ?_⟩
    · rintro (⟨hstretch, rfl⟩ | ⟨inner, hinner, rfl⟩)
      · exact ⟨_, beginsIn_cons.mpr (Or.inl ⟨hstretch, rfl⟩), by simp⟩
      · exact ⟨inner, beginsIn_cons.mpr (Or.inr hinner), rfl⟩
    · rintro ⟨inner, hinner, rfl⟩
      rcases beginsIn_cons.mp hinner with ⟨hstretch, rfl⟩ | hrest
      · exact Or.inl ⟨hstretch, by simp⟩
      · exact Or.inr ⟨inner, hrest, rfl⟩

end BeginsIn

section Passed

variable {s : List Char}

theorem passed_nil : Passed s [] := by
  intro p r n hflags _
  exact ⟨⟨0, p, .done, hflags, rfl⟩, fun name place hplace ↦ absurd hplace not_beginsIn_nil⟩

theorem Passed.append {stretches more : List Stretch} (h : Passed (textOf more ++ s) stretches) (h' : Passed s more) :
    Passed s (stretches ++ more) := by
  intro p r n hflags hr
  rw [textOf_append, List.append_assoc] at hr ⊢
  obtain ⟨⟨k, q, hreads, hq, henclosing⟩, hopens⟩ := h hflags hr
  obtain ⟨m, hm⟩ := hreads.takeAll_behind hr
  obtain ⟨⟨k', q', hreads', hq', henclosing'⟩, hopens'⟩ := h' hq hm
  refine ⟨⟨k + k', q', hreads.trans hreads', hq', henclosing'.trans henclosing⟩, fun name place hplace ↦ ?_⟩
  rcases beginsIn_append.mp hplace with ⟨inner, hinner, rfl⟩ | hmore
  · rw [List.append_assoc]
    exact hopens name inner hinner
  · obtain ⟨l, q'', hl, hq''⟩ := hopens' name place hmore
    exact ⟨k + l, q'', hreads.trans hl, hq''⟩

/-- A token is passed that neither begins nor ends a group. -/
theorem passed_token {c : Char} {x : List Char} {token : Token} (hread : Token.read {} c (x ++ s) = some (token, s))
    (htake : ∀ ⦃p q : Parsing⦄, p.take token = some q → q.flags = p.flags ∧ q.enclosing = p.enclosing) :
    Passed s [.text (c :: x)] := by
  intro p r n hflags hr
  have htext : textOf [.text (c :: x)] ++ s = c :: (x ++ s) := by simp
  rw [htext] at hr ⊢
  obtain ⟨next, m, hnext, hstep, -⟩ := takeAll_unflagged hflags hread hr
  obtain ⟨hsame, henclosing⟩ := htake hnext
  exact ⟨⟨1, next, hstep, hsame.trans hflags, henclosing⟩,
    fun name place hplace ↦ absurd hplace not_beginsIn_text⟩

theorem passed_atom {c : Char} {x : List Char} {r : Regex} {height : Nat}
    (hread : Token.read {} c (x ++ s) = some (.atom r height, s)) : Passed s [.text (c :: x)] := by
  refine passed_token hread fun p q h ↦ ?_
  cases h
  exact ⟨rfl, rfl⟩

theorem passed_plain {c : Char} (hc : c ∉ syntaxCharacters) : Passed s [.text [c]] :=
  passed_atom (read_plain hc s)

theorem passed_escaped {c : Char} (hc : isMeta c = true) : Passed s [.text ['\\', c]] :=
  passed_atom (read_escaped (isEscapable_of_isMeta hc) s)

theorem passed_bar : Passed s [.text ['|']] := by
  have hread : Token.read {} '|' ([] ++ s) = some (.bar, s) := rfl
  refine passed_token hread fun p q h ↦ ?_
  cases h
  exact ⟨rfl, rfl⟩

theorem passed_repeat {c : Char} {x : List Char} {min : Nat} {max : Option Nat} {greedy : Bool}
    (hread : Token.read {} c (x ++ s) = some (.repeat min max greedy, s)) : Passed s [.text (c :: x)] := by
  refine passed_token hread fun p q h ↦ ?_
  rw [Parsing.take, Parsing.repeatLast] at h
  split at h
  · cases h
  · split at h
    · cases h
      exact ⟨rfl, rfl⟩
    · cases h

/-! ### Groups -/

/-- What a token does that begins a group. -/
theorem take_opening {token : Token} {grouping : Grouping} {own : List String} {p next : Parsing}
    (hopens : token.opens? = some (grouping, [], own)) (htake : p.take token = some next) :
    next = (Parsing.inside p.flags).on (own ++ p.names) (⟨grouping, p.flags, p.level⟩ :: p.enclosing) := by
  rw [take_opens hopens] at htake
  split at htake
  · cases htake
    rfl
  · cases htake

/-- The end of the innermost group brings back the flags outside it. -/
theorem take_close {p next : Parsing} {outer : Enclosing} {enclosing : List Enclosing}
    (houter : p.enclosing = outer :: enclosing) (h : p.take .close = some next) :
    next.flags = outer.flags ∧ next.enclosing = enclosing := by
  rw [Parsing.take, Parsing.leave, houter] at h
  cases h
  exact ⟨rfl, rfl⟩

theorem passed_enclosed {first : Stretch} {opening : List Char} {token : Token} {grouping : Grouping} {own : List String}
    (hfirst : first.toText = '(' :: opening) (hread : ∀ s, Token.read {} '(' (opening ++ s) = some (token, s))
    (hopens : token.opens? = some (grouping, [], own)) {stretches : List Stretch} (h : Passed (')' :: s) stretches) :
    Passed s (enclosed first stretches) := by
  intro p r n hflags hr
  have htext : textOf (enclosed first stretches) ++ s = '(' :: (opening ++ (textOf stretches ++ ')' :: s)) := by
    simp [hfirst]
  rw [htext] at hr ⊢
  obtain ⟨next, m, hnext, hopen, hm⟩ := takeAll_unflagged hflags (hread _) hr
  obtain rfl := take_opening hopens hnext
  obtain ⟨⟨k, q, hreads, hq, henclosing⟩, hinner⟩ := h (p := (Parsing.inside p.flags).on _ _) hflags hm
  obtain ⟨l, hl⟩ := hreads.takeAll_behind hm
  have hend : Token.read {} ')' s = some (.close, s) := rfl
  obtain ⟨last, i, hlast, hclose, -⟩ := takeAll_unflagged hq hend hl
  obtain ⟨hsame, houter⟩ := take_close henclosing hlast
  refine ⟨⟨_, last, hopen.trans (hreads.trans hclose), hsame.trans hflags, houter⟩, fun name place hplace ↦ ?_⟩
  rcases beginsIn_cons.mp hplace with ⟨-, rfl⟩ | hplace
  · refine ⟨0, p, ?_, hflags⟩
    change Reads 0 p _ p (textOf (enclosed first stretches) ++ s)
    rw [htext]
    exact .done
  rcases beginsIn_append.mp hplace with ⟨inner, hbegins, rfl⟩ | hplace
  · obtain ⟨j, q', hj, hq'⟩ := hinner name inner hbegins
    rw [List.append_assoc]
    exact ⟨1 + j, q', hopen.trans hj, hq'⟩
  · exact absurd hplace not_beginsIn_text

theorem passed_named {name : String} (hname : IsGroupName name) {stretches : List Stretch}
    (h : Passed (')' :: s) stretches) : Passed s (enclosed (.opening name) stretches) :=
  passed_enclosed rfl (read_openNamed hname) rfl h

theorem passed_scope {stretches : List Stretch} (h : Passed (')' :: s) stretches) :
    Passed s (enclosed scope stretches) := by
  have hread (s : List Char) : Token.read {} '(' (['?', ':'] ++ s) = some (.scope [], s) := rfl
  exact passed_enclosed rfl hread rfl h

/-- The group around what can be held together. -/
theorem passed_held {name : String} (hname : IsGroupName name) {regex : String} (h : (held? regex).isSome) :
    Passed s [.opening name, .text (regex.toList ++ [')'])] := by
  obtain ⟨body, hbody⟩ := Option.isSome_iff_exists.mp h
  obtain ⟨inner, ⟨k, z, hreads, houter, hclose⟩, -⟩ := interior_of_held? hbody
  have hz := ne_nil_of_close hclose
  intro p r n hflags hr
  have htext : textOf [.opening name, .text (regex.toList ++ [')'])] ++ s =
      '(' :: (['?', 'P', '<'] ++ name.toList ++ ['>'] ++ (regex.toList ++ [')'] ++ s)) := by
    simp [openNamed]
  rw [htext] at hr ⊢
  obtain ⟨next, m, hnext, hopen, hm⟩ := takeAll_unflagged hflags (read_openNamed hname (regex.toList ++ [')'] ++ s)) hr
  obtain rfl := take_opening rfl hnext
  rw [hflags] at hopen hm
  obtain ⟨hnames, l, hl⟩ := (hreads.extend hz s).takeAll_on hm (List.append_ne_nil_of_left_ne_nil hz s)
  have hclosed : Reads 1 (inner.on ([name] ++ p.names) (⟨.capturing (some name), {}, p.level⟩ :: p.enclosing)) (z ++ s)
      ⟨{}, inner.names ++ ([name] ++ p.names), p.enclosing, p.level.push (inner.part (.capturing (some name)))⟩ s :=
    .token (close_append hclose s) rfl (take_close_on houter) .done
  refine ⟨⟨_, _, hopen.trans (((hreads.extend hz s).on hnames).trans hclosed), rfl, rfl⟩, ?_⟩
  intro other place hplace
  rcases beginsIn_cons.mp hplace with ⟨-, rfl⟩ | hplace
  · refine ⟨0, p, ?_, hflags⟩
    rw [htext]
    exact .done
  · exact absurd hplace not_beginsIn_text

theorem passed_empty : Passed s [.text []] := by
  intro p r n hflags _
  exact ⟨⟨0, p, .done, hflags, rfl⟩, fun name place hplace ↦ absurd hplace not_beginsIn_text⟩

theorem passed_text_append {x y : List Char} (h : Passed (y ++ s) [.text x]) (h' : Passed s [.text y]) :
    Passed s [.text (x ++ y)] := by
  have happend : Passed s ([.text x] ++ [.text y]) := Passed.append (by simpa using h) h'
  intro p r n hflags hr
  have htext : textOf [.text (x ++ y)] = textOf ([.text x] ++ [.text y]) := by simp
  rw [htext] at hr ⊢
  exact ⟨(happend hflags hr).1, fun name place hplace ↦ absurd hplace not_beginsIn_text⟩

/-! ### Simple text -/

/-- The characters that are not read on their own. -/
def combining : List Char :=
  ['(', ')', '[', '\x7b', '?', '\\']

/-- Whether a text is read character by character: no parenthesis, bracket or brace stands in it without a backslash. -/
def isSimple : List Char → Bool
  | [] => true
  | '\\' :: c :: rest => isMeta c && isSimple rest
  | '*' :: '?' :: rest | '+' :: '?' :: rest => isSimple rest
  | c :: rest => !combining.contains c && isSimple rest

theorem head?_of_isSimple {x : List Char} (h : isSimple x = true) : x.head? ≠ some '?' := by
  cases x with
  | nil => simp
  | cons c x =>
    rintro hhead
    cases hhead
    simp [isSimple, combining] at h

theorem passed_single {c : Char} (hc : c ∉ combining) (hs : s.head? ≠ some '?') : Passed s [.text [c]] := by
  by_cases hsyntax : c ∈ syntaxCharacters
  swap
  · exact passed_plain hsyntax
  have hcases : c = '|' ∨ c = '*' ∨ c = '+' ∨ c = '.' ∨ c = '^' ∨ c = '$' := by
    simp only [combining, syntaxCharacters, List.mem_cons, List.not_mem_nil, or_false] at hc hsyntax
    tauto
  have hrepeat (min : Nat) : Token.simpleRepeat min none s = (.repeat min none true, s) := by
    rw [Token.simpleRepeat, laziness_of_head hs]
  rcases hcases with rfl | rfl | rfl | rfl | rfl | rfl
  · exact passed_bar
  · exact passed_repeat (congrArg some (hrepeat 0))
  · exact passed_repeat (congrArg some (hrepeat 1))
  iterate 3 exact passed_atom rfl

theorem passed_simple {x : List Char} (h : isSimple x = true) (hs : s.head? ≠ some '?') : Passed s [.text x] := by
  induction x using isSimple.induct with
  | case1 => exact passed_empty
  | case2 c rest ih =>
    rw [isSimple, Bool.and_eq_true] at h
    exact passed_text_append (x := ['\\', c]) (passed_escaped h.1) (ih h.2)
  | case3 rest ih => exact passed_text_append (x := ['*', '?']) (passed_repeat rfl) (ih h)
  | case4 rest ih => exact passed_text_append (x := ['+', '?']) (passed_repeat rfl) (ih h)
  | case5 c rest hescape hstar hplus ih =>
    rw [isSimple, Bool.and_eq_true, Bool.not_eq_true'] at h
    · have hhead : (rest ++ s).head? ≠ some '?' := by
        cases rest with
        | nil => exact hs
        | cons d rest =>
          have hrest := head?_of_isSimple h.2
          exact hrest
      exact passed_text_append (x := [c]) (passed_single (by simpa using h.1) hhead) (ih h.2)
    all_goals assumption

theorem passed_pairs {branches : List (List Stretch)}
    (h : ∀ branch ∈ branches, ∀ s : List Char, s.head? ≠ some '?' → Passed s branch) (hs : s.head? ≠ some '?') :
    Passed s (pairStretches branches) := by
  have hbranches (s : List Char) : Passed s (branches.flatMap (· ++ [.text ['|']])) := by
    induction branches with
    | nil => exact passed_nil
    | cons branch branches ih =>
      obtain ⟨hbranch, hrest⟩ := List.forall_mem_cons.mp h
      exact ((hbranch _ (by simp)).append passed_bar).append (ih hrest)
  have hunseparated (s : List Char) (hs : s.head? ≠ some '?') :
      Passed s ([.text ['[', '^', '&', ']']] ++ [.text ['*']]) :=
    Passed.append (passed_atom rfl) (passed_single (by decide) hs)
  have hinner (s : List Char) : Passed s (enclosed scope
      (branches.flatMap (· ++ [.text ['|']]) ++ [.text ['[', '^', '&', ']'], .text ['*']])) :=
    passed_scope ((hbranches _).append (hunseparated _ (by simp)))
  exact (passed_scope ((hinner _).append (passed_plain (by decide)))).append (passed_single (by decide) hs)

end Passed

/-- The reader comes to each group that a text begins that is passed as a whole. -/
theorem beginsAt_of_passed {stretches : List Stretch} {name : String} {place : List Char} {regex : Regex}
    (h : Passed [] stretches) (hparse : parse? (textOf stretches) = some regex) (hplace : BeginsIn stretches name place) :
    BeginsAt (textOf stretches) place := by
  obtain ⟨q, hq, -⟩ := Option.bind_eq_some_iff.mp ((parse?_eq _).symm.trans hparse)
  rw [← List.append_nil (textOf stretches)] at hq
  obtain ⟨k, p, hreads, hp⟩ := (h (p := .start) rfl hq).2 name place hplace
  rw [List.append_nil, List.append_nil] at hreads
  refine ⟨k, p, place, hreads, ?_⟩
  rw [hp]
  rfl

end PathBinding.Regex
