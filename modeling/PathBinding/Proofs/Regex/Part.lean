import PathBinding.Proofs.Regex.Reads

/-!
Texts that are read as one part. Such a text that ends in a parenthesis is a group (`grouped_of_takeAll`): whatever
stands behind the group makes a second part or a second alternative, except a repetition, which ends otherwise. So the
text is read as the same part in front of any text, in any state with the same flags whose names it does not use
(`Grouped.reads`), and it is read in no other way (`Grouped.takeAll`).
-/

set_option autoImplicit false
set_option relaxedAutoImplicit false

namespace PathBinding.Regex

/-- What a text denotes that is exactly one part. -/
def part? (text : List Char) : Option Regex :=
  match Parsing.start.takeAll text.length text with
  | some ⟨flags, _, [], ⟨[], [part]⟩⟩ => if flags = {} ∧ part.repeatable then some part.regex else none
  | _ => none

theorem takeAll_of_part? {text : List Char} {r : Regex} (h : part? text = some r) : ∃ names height,
    Parsing.start.takeAll text.length text = some ⟨{}, names, [], ⟨[], [⟨r, height, true⟩]⟩⟩ := by
  unfold part? at h
  split at h
  · next flags names part hpart =>
    split at h
    · next hflags =>
      obtain ⟨regex, height, repeatable⟩ := part
      obtain ⟨rfl, hrepeatable⟩ : flags = {} ∧ repeatable = true := hflags
      cases h
      exact ⟨names, height, hrepeatable ▸ hpart⟩
    · cases h
  · cases h

/-- The group that a token begins, with the flags it switches and the names it takes. -/
def Token.opens? : Token → Option (Grouping × FlagChanges × List String)
  | .group name => some (.capturing name, [], name.toList)
  | .scope changes => some (.plain, changes, [])
  | _ => none

/-- The state inside a group that has just begun. -/
def Parsing.inside (flags : Flags) : Parsing :=
  ⟨flags, [], [], .empty⟩

/-- A text that is read up to the end of a group that has begun. -/
def Interior (flags : Flags) (x : List Char) (inner : Parsing) : Prop :=
  ∃ k z, Reads k (.inside flags) x inner z ∧ inner.enclosing = [] ∧ skipBlanks inner.flags.verbose z = [')']

/-- The part that a group makes. -/
def Parsing.part (inner : Parsing) (grouping : Grouping) : Part :=
  ⟨grouping.around inner.level.close.regex, inner.level.close.height + 1, true⟩

/-- A text that begins a group and ends with it. -/
inductive Grouped : List Char → Part → List String → Prop
  | mk {c : Char} {rest rest' : List Char} {token : Token} {grouping : Grouping} {changes : FlagChanges}
      {own : List String} {inner : Parsing}
      (read : Token.read {} c rest = some (token, rest'))
      (opens : token.opens? = some (grouping, changes, own))
      (interior : Interior (({} : Flags).apply changes) rest' inner)
      (fresh : ∀ name ∈ inner.names, name ∉ own) :
      Grouped (c :: rest) (inner.part grouping) (inner.names ++ own)

section Take

variable {p q : Parsing} {token : Token} {names : List String} {enclosing : List Enclosing}

theorem take_opens {grouping : Grouping} {changes : FlagChanges} {own : List String}
    (h : token.opens? = some (grouping, changes, own)) (p : Parsing) :
    p.take token = if ∀ name ∈ own, name ∉ p.names then
      some ((Parsing.inside (p.flags.apply changes)).on (own ++ p.names) (⟨grouping, p.flags, p.level⟩ :: p.enclosing))
    else none := by
  cases token with
  | group name =>
    cases h
    cases name with
    | none => simp [Parsing.take, Parsing.enter, Parsing.on, Parsing.inside, Flags.apply]
    | some name =>
      by_cases hname : name ∈ p.names
      · simp [Parsing.take, hname]
      · simp [Parsing.take, hname, Parsing.enter, Parsing.on, Parsing.inside, Flags.apply]
  | scope changes =>
    cases h
    simp [Parsing.take, Parsing.enter, Parsing.on, Parsing.inside]
  | atom => cases h
  | «repeat» => cases h
  | bar => cases h
  | close => cases h
  | switch => cases h

theorem take_close_on {grouping : Grouping} {flags : Flags} {level : Level} (h : p.enclosing = []) :
    (p.on names (⟨grouping, flags, level⟩ :: enclosing)).take .close = some ⟨flags, p.names ++ names, enclosing,
      level.push (p.part grouping)⟩ := by
  simp [Parsing.take, Parsing.leave, Parsing.on, Parsing.part, h]

/-- Inside open groups a token can do nothing but what it does outside, apart from ending the innermost of them. -/
theorem take_of_on (h : (p.on names enclosing).take token = some q) :
    (token = .close ∧ p.enclosing = []) ∨ ∃ q, p.take token = some q := by
  cases token with
  | atom regex height => exact Or.inr ⟨_, rfl⟩
  | «repeat» min max greedy =>
    right
    simp only [Parsing.take, Parsing.repeatLast, Parsing.on] at h ⊢
    split at h
    · cases h
    next part parts hparts =>
    split at h
    · next hrepeatable => simp [hrepeatable]
    · cases h
  | bar => exact Or.inr ⟨_, rfl⟩
  | close =>
    rw [Parsing.take, Parsing.leave]
    cases henclosing : p.enclosing with
    | nil => exact Or.inl ⟨rfl, rfl⟩
    | cons outer rest => exact Or.inr ⟨_, rfl⟩
  | group name =>
    right
    cases name with
    | none => exact ⟨_, rfl⟩
    | some name =>
      by_cases hname : name ∈ p.names
      · simp [Parsing.take, Parsing.on, hname] at h
      · exact ⟨_, by rw [Parsing.take, if_neg hname]⟩
  | scope changes => exact Or.inr ⟨_, rfl⟩
  | switch changes => exact Or.inr ⟨_, rfl⟩

end Take

/-! ### Groups in their surroundings -/

theorem ne_nil_of_close {verbose : Bool} {z : List Char} (h : skipBlanks verbose z = [')']) : z ≠ [] := by
  rintro rfl
  have hskip := (skipBlanks_suffix verbose []).length_le
  rw [h] at hskip
  cases hskip

theorem close_append {verbose : Bool} {z : List Char} (h : skipBlanks verbose z = [')']) (s : List Char) :
    skipBlanks verbose (z ++ s) = ')' :: s := by
  rw [skipBlanks_append (by simp [h]), h]
  rfl

section Grouped

variable {c : Char} {rest rest' s text : List Char} {token : Token} {grouping : Grouping} {changes : FlagChanges}
  {own names : List String} {inner p r : Parsing} {part : Part} {n : Nat}

theorem ne_nil_of_interior {flags : Flags} {x : List Char} (h : Interior flags x inner) : x ≠ [] := by
  obtain ⟨k, z, hreads, -, hclose⟩ := h
  exact ne_nil_of_suffix hreads.suffix (ne_nil_of_close hclose)

/-- A group is read in one way only, if at all. -/
theorem takeAll_group (read : Token.read {} c rest = some (token, rest'))
    (opens : token.opens? = some (grouping, changes, own)) (h : Interior (({} : Flags).apply changes) rest' inner)
    (hflags : p.flags = {}) (hr : p.takeAll n (c :: rest ++ s) = some r) :
    ∃ m, (⟨{}, inner.names ++ own ++ p.names, p.enclosing, p.level.push (inner.part grouping)⟩ : Parsing).takeAll m s =
      some r := by
  have hread := (Token.settles_token _ _).extend read (ne_nil_of_interior h) s
  obtain ⟨k, z, hreads, houter, hclose⟩ := h
  have hz := ne_nil_of_close hclose
  obtain ⟨flags, known, enclosing, level⟩ := p
  cases hflags
  obtain ⟨next, m, htake, hm⟩ := takeAll_token (p := ⟨{}, known, enclosing, level⟩) rfl hread hr
  rw [take_opens opens] at htake
  split at htake
  swap
  · cases htake
  cases htake
  obtain ⟨-, l, hl⟩ := (hreads.extend hz s).takeAll_on hm (List.append_ne_nil_of_left_ne_nil hz s)
  obtain ⟨last, i, hlast, hi⟩ := takeAll_token (p := inner.on _ _) (close_append hclose s) (by rfl : Token.read inner.flags ')' s = some (.close, s)) hl
  rw [take_close_on houter] at hlast
  cases hlast
  refine ⟨i, ?_⟩
  rw [List.append_assoc]
  exact hi

theorem Grouped.takeAll (h : Grouped text part names) (hflags : p.flags = {}) (hr : p.takeAll n (text ++ s) = some r) :
    ∃ m, (⟨{}, names ++ p.names, p.enclosing, p.level.push part⟩ : Parsing).takeAll m s = some r := by
  cases h with
  | mk read opens interior _ => exact takeAll_group read opens interior hflags hr

theorem Grouped.reads (h : Grouped text part names) (hflags : p.flags = {}) (hnames : ∀ name ∈ names, name ∉ p.names)
    (s : List Char) : ∃ k, Reads k p (text ++ s) ⟨{}, names ++ p.names, p.enclosing, p.level.push part⟩ s := by
  cases h with
  | @mk c rest rest' token grouping changes own inner read opens interior fresh =>
    have hread := (Token.settles_token _ _).extend read (ne_nil_of_interior interior) s
    obtain ⟨k, z, hreads, houter, hclose⟩ := interior
    obtain ⟨flags, known, enclosing, level⟩ := p
    cases hflags
    have htake := take_opens opens ⟨{}, known, enclosing, level⟩
    rw [if_pos fun name hname ↦ hnames name (List.mem_append_right _ hname)] at htake
    have hinner : Reads k ((Parsing.inside (({} : Flags).apply changes)).on (own ++ known)
        (⟨grouping, {}, level⟩ :: enclosing)) (rest' ++ s)
        (inner.on (own ++ known) (⟨grouping, {}, level⟩ :: enclosing)) (z ++ s) := by
      refine (hreads.extend (ne_nil_of_close hclose) s).on fun name hname _ hin ↦ ?_
      rcases List.mem_append.mp hin with hown | hknown
      · exact fresh name hname hown
      · exact hnames name (List.mem_append_left _ hname) hknown
    refine ⟨k + (0 + 1) + 1, .token rfl hread htake
      (hinner.trans (.token (close_append hclose s) rfl (take_close_on houter) ?_))⟩
    rw [List.append_assoc]
    exact .done

end Grouped

/-! ### What a part on its own looks like -/

section Split

variable {k n : Nat} {p q outer : Parsing} {x y : List Char} {names : List String} {around : Enclosing}

/-- The first token that ends an open group. -/
theorem Reads.split_on (h : Reads k (p.on names [around]) x q y) (hq : q.enclosing = []) :
    ∃ l m inner z rest, Reads l p x inner z ∧ inner.enclosing = [] ∧
      (∀ name ∈ inner.names, name ∉ p.names → name ∉ names) ∧ skipBlanks inner.flags.verbose z = ')' :: rest ∧
      Reads m ⟨around.flags, inner.names ++ names, [], around.level.push (inner.part around.grouping)⟩ rest q y := by
  generalize hstart : p.on names [around] = start at h
  induction h generalizing p with
  | done =>
    rw [← hstart] at hq
    simp [Parsing.on] at hq
  | @token m start next q x rest rest' y c token blanks read take tail ih =>
    subst hstart
    rcases take_of_on take with ⟨rfl, houter⟩ | ⟨own, hown⟩
    · obtain ⟨rfl, rfl⟩ := Token.read_eq_close read
      rw [take_close_on houter] at take
      cases take
      exact ⟨0, m, p, x, rest', .done, houter, fun name hname hnew ↦ absurd hname hnew, blanks, tail⟩
    · rw [take_on hown] at take
      split at take
      swap
      · cases take
      next hfresh =>
      cases take
      obtain ⟨l, m, inner, z, rest'', hreads, houter, hnames, hclose, htail⟩ := ih hq rfl
      refine ⟨l + 1, m, inner, z, rest'', .token blanks read hown hreads, houter, fun name hname hnew ↦ ?_, hclose,
        htail⟩
      by_cases hin : name ∈ own.names
      · exact hfresh name hin hnew
      · exact hnames name hname hin

/-- How many parts and alternatives there are, where an alternative counts twice. -/
def Level.weight (level : Level) : Nat :=
  2 * level.alternatives.length + level.parts.length

/-- The weight of the outermost level, where an open group counts as a part. -/
def Level.weightIn : List Enclosing → Level → Nat
  | [], level => level.weight
  | around :: enclosing, _ => (around.level.push ⟨.empty, 0, true⟩).weightIn enclosing

def Parsing.weight (p : Parsing) : Nat :=
  p.level.weightIn p.enclosing

theorem weightIn_congr {level level' : Level} (h : level.weight = level'.weight) (enclosing : List Enclosing) :
    level.weightIn enclosing = level'.weightIn enclosing := by
  cases enclosing with
  | nil => exact h
  | cons around enclosing => rfl

theorem weightIn_push (level : Level) (part part' : Part) (enclosing : List Enclosing) :
    (level.push part).weightIn enclosing = (level.push part').weightIn enclosing := by
  apply weightIn_congr
  rfl

theorem two_le_weightIn {level level' : Level} {enclosing : List Enclosing}
    (h : 2 ≤ level.weightIn enclosing ∨ enclosing = []) (hlevel : enclosing = [] → 2 ≤ level'.weight) :
    2 ≤ level'.weightIn enclosing := by
  cases enclosing with
  | nil => exact hlevel rfl
  | cons around enclosing => simpa [Level.weightIn] using h

/-- Behind a part there is nothing but a repetition of it, unless there are to be more parts. -/
theorem two_le_weight_of_take {token : Token} (htake : p.take token = some q)
    (h : 2 ≤ p.weight ∨ p.enclosing = [] ∧ 1 ≤ p.level.weight ∧ ∀ min max greedy, token ≠ .repeat min max greedy) :
    2 ≤ q.weight := by
  have hcase : 2 ≤ p.level.weightIn p.enclosing ∨ p.enclosing = [] := h.imp_right And.left
  have hpush (part : Part) : 2 ≤ (p.level.push part).weightIn p.enclosing := by
    refine two_le_weightIn hcase fun hnil ↦ ?_
    have hweight : (p.level.push part).weight = p.level.weight + 1 := rfl
    rw [Parsing.weight, hnil, Level.weightIn] at h
    omega
  cases token with
  | atom regex height =>
    cases htake
    exact hpush _
  | «repeat» min max greedy =>
    have hweight : 2 ≤ p.weight := h.resolve_right fun hrepeat ↦ hrepeat.2.2 min max greedy rfl
    simp only [Parsing.take, Parsing.repeatLast] at htake
    split at htake
    · cases htake
    next part parts hparts =>
    split at htake
    · cases htake
      refine hweight.trans_eq (weightIn_congr ?_ p.enclosing)
      simp [Level.weight, hparts]
    · cases htake
  | bar =>
    cases htake
    refine two_le_weightIn hcase fun _ ↦ ?_
    simp only [Level.weight, Level.bar, List.length_cons]
    omega
  | close =>
    simp only [Parsing.take, Parsing.leave] at htake
    split at htake
    · cases htake
    next around enclosing henclosing =>
    cases htake
    rcases h with h | h
    · rw [Parsing.weight, henclosing, Level.weightIn] at h
      exact h.trans_eq (weightIn_push around.level _ _ enclosing)
    · rw [henclosing] at h
      cases h.1
  | group name =>
    cases name with
    | none =>
      cases htake
      exact hpush _
    | some name =>
      simp only [Parsing.take] at htake
      split at htake
      · cases htake
      · cases htake
        exact hpush _
  | scope changes =>
    cases htake
    exact hpush _
  | switch changes =>
    cases htake
    exact hpush _

theorem Reads.two_le_weight (h : Reads k p x q y) (hp : 2 ≤ p.weight) : 2 ≤ q.weight := by
  induction h with
  | done => exact hp
  | token _ _ take _ ih => exact ih (two_le_weight_of_take take (Or.inl hp))

theorem getLast_of_suffix {x y : List Char} {c : Char} (h : y <:+ x)
    (hlast : x.getLast? = none ∨ x.getLast? = some c) : y.getLast? = none ∨ y.getLast? = some c := by
  obtain ⟨z, rfl⟩ := h
  cases y with
  | nil => exact Or.inl rfl
  | cons d y =>
    rw [List.getLast?_append] at hlast
    simpa using hlast

/-- Nothing that ends in a parenthesis can follow a part without making another one. -/
theorem Reads.eq_nil_of_getLast (h : Reads k p x q y) (hy : y = []) (hverbose : p.flags.verbose = false)
    (houter : p.enclosing = []) (hweight : 1 ≤ p.level.weight) (hq : q.weight < 2)
    (hlast : x.getLast? = none ∨ x.getLast? = some ')') : x = [] := by
  induction h with
  | done => exact hy
  | @token m p next q x rest rest' y c token blanks read take tail ih =>
    exfalso
    by_cases hrepeat : ∀ min max greedy, token ≠ .repeat min max greedy
    · have := tail.two_le_weight (two_le_weight_of_take take (Or.inr ⟨houter, hweight, hrepeat⟩))
      omega
    push Not at hrepeat
    obtain ⟨min, max, greedy, rfl⟩ := hrepeat
    rw [hverbose] at blanks
    obtain rfl : x = c :: rest := blanks
    have hsuffix := ((Token.settles_token _ _).suffix read).trans (List.suffix_cons c rest)
    simp only [Parsing.take, Parsing.repeatLast] at take
    split at take
    · cases take
    next part parts hparts =>
    split at take
    swap
    · cases take
    cases take
    have hrest' : rest' = [] := by
      refine ih hy hverbose houter ?_ hq (getLast_of_suffix hsuffix hlast)
      simp only [Level.weight, List.length_cons]
      omega
    rw [hrest'] at read
    refine Token.getLast_of_repeat hverbose read (hlast.resolve_left ?_)
    simp

/-- A part that cannot be repeated stays alone only at the end of the text. -/
theorem Reads.eq_of_fixed {part : Part} (h : Reads k p x q y) (houter : p.enclosing = []) (hparts : p.level.parts = [part])
    (hfixed : part.repeatable = false) (hq : q.weight < 2) : q = p := by
  cases h with
  | done => rfl
  | @token _ _ next _ _ _ _ _ _ token _ _ take tail =>
    exfalso
    have hrepeat : ∀ min max greedy, token ≠ .repeat min max greedy := by
      rintro min max greedy rfl
      simp [Parsing.take, Parsing.repeatLast, hparts, hfixed] at take
    have hweight : 1 ≤ p.level.weight := by
      simp [Level.weight, hparts]
    have := tail.two_le_weight (two_le_weight_of_take take (Or.inr ⟨houter, hweight, hrepeat⟩))
    omega

end Split

theorem grouped_of_takeAll {n : Nat} {rest : List Char} {part : Part} {names : List String}
    (h : Parsing.start.takeAll n ('(' :: rest) = some ⟨{}, names, [], ⟨[], [part]⟩⟩) (hpart : part.repeatable = true)
    (hlast : ('(' :: rest).getLast? = some ')') : Grouped ('(' :: rest) part names := by
  obtain ⟨k, y, hreads, hend⟩ := Reads.of_takeAll h
  have hy : y = [] := hend
  have hweight : (⟨{}, names, [], ⟨[], [part]⟩⟩ : Parsing).weight < 2 := Nat.lt_succ_self 1
  generalize hstart : Parsing.start = start at hreads
  cases hreads with
  | done =>
    rw [hy] at hlast
    cases hlast
  | @token k _ next _ _ rest rest' _ c token blanks read take tail =>
    subst hstart
    obtain ⟨rfl, rfl⟩ : '(' = c ∧ _ = rest := List.cons.inj blanks
    have hrest' := getLast_of_suffix (((Token.settles_token _ _).suffix read).trans (List.suffix_cons '(' _)) (Or.inr hlast)
    have hopening := Token.isOpening_of_openGroup read
    cases hopens : token.opens? with
    | none =>
      cases token with
      | switch changes =>
        cases take
        have hsame := tail.eq_of_fixed rfl rfl rfl hweight
        cases (Level.mk.inj (Parsing.mk.inj hsame).2.2.2).2
        cases hpart
      | group => cases hopens
      | scope => cases hopens
      | _ => cases hopening
    | some opened =>
      obtain ⟨grouping, changes, own⟩ := opened
      rw [take_opens hopens, if_pos (by simp [Parsing.start])] at take
      cases take
      have hown : own ++ Parsing.start.names = own := List.append_nil own
      rw [hown] at tail
      obtain ⟨l, m, inner, z, rest'', hinner, houter, hfresh, hclose, htail⟩ := tail.split_on rfl
      have hsuffix : rest'' <:+ rest' :=
        (List.suffix_cons _ _).trans ((hclose ▸ skipBlanks_suffix _ z).trans hinner.suffix)
      have hnil := htail.eq_nil_of_getLast hy rfl rfl (Nat.le_refl 1) hweight
        (getLast_of_suffix hsuffix hrest')
      subst hnil hy
      cases htail with
      | done =>
        exact .mk read hopens ⟨l, z, hinner, houter, hclose⟩ fun name hname ↦ hfresh name hname (by simp [Parsing.inside])
      | token blanks => cases blanks

end PathBinding.Regex
