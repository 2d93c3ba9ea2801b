import Mathlib.Logic.Equiv.Basic
import PathBinding.Proofs.Regex.Names
import PathBinding.Proofs.Regex.Renaming
import PathBinding.Proofs.Regex.Spelling

/-!
Where groups are written. What the reader makes of a text does not depend on the names of the groups, as long as no two of
them share one (`Parsing.take_rename`, `Reads.rename`), so any single group can be read under another name (`parseAs?`). A
place of a text is where the captures of a name come from if they come under any other name that is read there instead
(`CapturesFrom`). That is so if the reader comes to a group of the name at the place (`capturesFrom_of_beginsAt`); if it
does not, nothing written there is read as a group (`parseAs?_eq`).
-/

set_option autoImplicit false
set_option relaxedAutoImplicit false

namespace PathBinding.Regex

/-! ### Reading with other names -/

section Rename

variable (f : String → String)

def Part.rename (part : Part) : Part :=
  { part with regex := part.regex.rename f }

def Level.rename (level : Level) : Level :=
  ⟨level.alternatives.map (Part.rename f), level.parts.map (Part.rename f)⟩

def Grouping.rename : Grouping → Grouping
  | .plain => .plain
  | .capturing name => .capturing (name.map f)

def Enclosing.rename (outer : Enclosing) : Enclosing :=
  ⟨outer.grouping.rename f, outer.flags, outer.level.rename f⟩

/-- The state of the reader with other names for all groups so far. -/
def Parsing.rename (p : Parsing) : Parsing :=
  ⟨p.flags, p.names.map f, p.enclosing.map (Enclosing.rename f), p.level.rename f⟩

def Token.rename : Token → Token
  | .atom regex height => .atom (regex.rename f) height
  | .group name => .group (name.map f)
  | token => token

variable {f}

theorem map_regex_rename (parts : List Part) :
    (parts.map (Part.rename f)).map (·.regex) = (parts.map (·.regex)).map (Regex.rename f) := by
  rw [List.map_map, List.map_map]
  rfl

theorem heightOf_rename (parts : List Part) : Level.heightOf (parts.map (Part.rename f)) = Level.heightOf parts := by
  match parts with
  | [] => rfl
  | [part] => rfl
  | first :: second :: rest =>
    have hheights : ((first :: second :: rest).map (Part.rename f)).map (·.height) =
        (first :: second :: rest).map (·.height) := by
      rw [List.map_map]
      rfl
    exact congrArg (fun heights : List Nat ↦ heights.foldl max 0 + 1) hheights

namespace Level

theorem rename_sequence (level : Level) : (level.rename f).sequence = level.sequence.rename f := by
  rw [sequence, rename, ← List.map_reverse, map_regex_rename, sequence_rename, heightOf_rename]
  rfl

theorem rename_bar (level : Level) : (level.rename f).bar = level.bar.rename f := by
  rw [bar, rename_sequence]
  rfl

theorem rename_close (hf : f.Injective) (level : Level) : (level.rename f).close = level.close.rename f := by
  have hbranches : ((level.rename f).sequence :: (level.rename f).alternatives).reverse =
      (level.sequence :: level.alternatives).reverse.map (Part.rename f) := by
    rw [rename_sequence, List.map_reverse]
    rfl
  rw [close, hbranches, map_regex_rename, alternation_rename hf, heightOf_rename]
  rfl

end Level

theorem Grouping.rename_around (grouping : Grouping) (r : Regex) :
    (grouping.rename f).around (r.rename f) = (grouping.around r).rename f := by
  cases grouping <;> rfl

namespace Parsing

/-- What a token does, it does whatever the names of the groups are, unless two names become one. -/
theorem take_rename (hf : f.Injective) (p : Parsing) (token : Token) :
    (p.rename f).take (token.rename f) = (p.take token).map (rename f) := by
  cases token with
  | atom regex height => rfl
  | «repeat» min max greedy =>
    change (p.rename f).repeatLast min max greedy = (p.repeatLast min max greedy).map (rename f)
    obtain ⟨flags, names, enclosing, alternatives, parts⟩ := p
    cases parts with
    | nil => rfl
    | cons part parts =>
      obtain ⟨regex, height, repeatable⟩ := part
      cases repeatable with
      | false => rfl
      | true =>
        have hbody := repetition_rename (f := f) min max (greedy != flags.swapGreed) regex
        simp [repeatLast, rename, Level.rename, Part.rename, hbody]
  | bar => exact congrArg (fun level ↦ some { p.rename f with level }) p.level.rename_bar
  | close =>
    change (p.rename f).leave = p.leave.map (rename f)
    obtain ⟨flags, names, enclosing, level⟩ := p
    cases enclosing with
    | nil => rfl
    | cons outer enclosing =>
      have hclose := Level.rename_close hf level
      have haround := outer.grouping.rename_around (f := f) level.close.regex
      simp only [leave, rename, List.map_cons, Enclosing.rename, hclose, Part.rename, haround, Option.map_some]
      rfl
  | group name =>
    cases name with
    | none => rfl
    | some name =>
      have hmem : f name ∈ (p.rename f).names ↔ name ∈ p.names := List.mem_map_of_injective hf
      change (if f name ∈ (p.rename f).names then none else _) = (if name ∈ p.names then none else _).map (rename f)
      by_cases hname : name ∈ p.names
      · rw [if_pos hname, if_pos (hmem.mpr hname)]
        rfl
      · rw [if_neg hname, if_neg (hmem.not.mpr hname)]
        rfl
  | scope changes => rfl
  | switch changes => rfl

end Parsing

/-- The token stays the same if its own name does, since the expressions in tokens have no groups. -/
theorem Token.rename_of_read {flags : Flags} {c : Char} {rest rest' : List Char} {token : Token}
    (h : Token.read flags c rest = some (token, rest')) (hname : ∀ name, token = .group (some name) → f name = name) :
    token.rename f = token := by
  cases token with
  | atom regex height =>
    have hregex : regex.rename f = regex := rename_of_groupNames (by simp [Token.groupNames_of_atom h])
    rw [Token.rename, hregex]
  | group name =>
    cases name with
    | none => rfl
    | some name => rw [Token.rename, Option.map_some, hname name rfl]
  | _ => rfl

theorem names_of_take {p q : Parsing} {name : String} (h : p.take (.group (some name)) = some q) :
    name ∉ p.names ∧ name ∈ q.names := by
  rw [Parsing.take] at h
  split at h
  · cases h
  next hname =>
  cases h
  exact ⟨hname, List.mem_cons_self⟩

/-- A text is read alike behind groups of whatever names, if it does not name them itself. -/
theorem Reads.rename (hf : f.Injective) {k : Nat} {p q : Parsing} {x y : List Char} (h : Reads k p x q y)
    (hnames : ∀ name ∈ q.names, name ∉ p.names → f name = name) : Reads k (p.rename f) x (q.rename f) y := by
  induction h with
  | done => exact .done
  | @token _ p next q _ _ _ _ _ token blanks read take tail ih =>
    have htoken : token.rename f = token := by
      refine Token.rename_of_read read fun name hname ↦ ?_
      subst hname
      obtain ⟨hnew, hin⟩ := names_of_take take
      exact hnames name (tail.names_subset hin) hnew
    have hnext := Parsing.take_rename hf p token
    rw [htoken, take, Option.map_some] at hnext
    exact .token blanks read hnext
      (ih fun name hname hnew ↦ hnames name hname fun hold ↦ hnew (names_subset_of_take take hold))

/-! ### Names that have not been taken -/

theorem map_eq_self {α : Type} {g : α → α} {as : List α} (h : ∀ a ∈ as, g a = a) : as.map g = as :=
  (List.map_congr_left h).trans (List.map_id as)

theorem Level.rename_of_groupNames {level : Level} (h : ∀ name ∈ level.groupNames, f name = name) :
    level.rename f = level := by
  have hpart : ∀ part ∈ level.alternatives ++ level.parts, part.rename f = part := by
    intro part hpart
    have hregex : part.regex.rename f = part.regex :=
      Regex.rename_of_groupNames fun name hname ↦ h name (List.mem_flatMap.mpr ⟨part, hpart, hname⟩)
    rw [Part.rename, hregex]
  obtain ⟨halternatives, hparts⟩ := List.forall_mem_append.mp hpart
  rw [rename, map_eq_self halternatives, map_eq_self hparts]

theorem Enclosing.rename_of_groupNames {outer : Enclosing} (h : ∀ name ∈ outer.groupNames, f name = name) :
    outer.rename f = outer := by
  obtain ⟨grouping, flags, level⟩ := outer
  obtain ⟨hown, hlevel⟩ := List.forall_mem_append.mp h
  have hgrouping : grouping.rename f = grouping := by
    cases grouping with
    | plain => rfl
    | capturing name =>
      cases name with
      | none => rfl
      | some name => rw [Grouping.rename, Option.map_some, List.forall_mem_singleton.mp hown]
  rw [rename, hgrouping, Level.rename_of_groupNames hlevel]

/-- A state knows no names but those that have been taken. -/
theorem Parsing.rename_of_names {p : Parsing} (hp : p.Distinct) (h : ∀ name ∈ p.names, f name = name) :
    p.rename f = p := by
  have hgroups : ∀ name ∈ p.groupNames, f name = name := by
    intro name hname
    have hcount := (List.count_pos_iff.mpr hname).trans_le (hp.count_le name)
    exact h name (List.count_pos_iff.mp hcount)
  obtain ⟨hlevel, henclosing⟩ := List.forall_mem_append.mp hgroups
  rw [List.forall_mem_flatMap] at henclosing
  have houter : p.enclosing.map (Enclosing.rename f) = p.enclosing :=
    map_eq_self fun outer houter ↦ Enclosing.rename_of_groupNames (henclosing outer houter)
  rw [rename, map_eq_self h, houter, Level.rename_of_groupNames hlevel]

end Rename

/-! ### One group under another name -/

/-- The expression that has been read, if it is complete. -/
def Parsing.finish? (p : Parsing) : Option Regex := do
  guard p.enclosing.isEmpty
  let whole := p.level.close
  guard (whole.height ≤ nestLimit)
  return whole.regex

theorem parse?_eq (source : List Char) :
    parse? source = (Parsing.start.takeAll source.length source).bind Parsing.finish? :=
  rfl

theorem Parsing.finish?_rename {f : String → String} (hf : f.Injective) (p : Parsing) :
    (p.rename f).finish? = p.finish?.map (Regex.rename f) := by
  have hclose := p.level.rename_close hf
  have henclosing : (p.rename f).enclosing.isEmpty = p.enclosing.isEmpty := List.isEmpty_map
  have hheight : (p.level.close.rename f).height = p.level.close.height := rfl
  have hlevel : (p.rename f).level = p.level.rename f := rfl
  rw [finish?, finish?, henclosing, hlevel, hclose]
  dsimp only
  rw [hheight]
  cases p.enclosing.isEmpty with
  | false => rfl
  | true =>
    by_cases hle : p.level.close.height ≤ nestLimit
    · simp [guard, hle, Part.rename]
    · simp [guard, hle]

/-- The token with another name for the group that it begins. -/
def Token.named (fresh : String) : Token → Token
  | .group (some _) => .group (some fresh)
  | token => token

/-- Takes the tokens of a text, where the group that begins at a place has another name. A place is given by the text from
there on. -/
def Parsing.takeAllAs (place : List Char) (fresh : String) : Nat → Parsing → List Char → Option Parsing
  | bound, p, text =>
    match skipBlanks p.flags.verbose text with
    | [] => some p
    | c :: rest =>
      match bound with
      | 0 => none
      | bound + 1 => do
        let (token, rest') ← Token.read p.flags c rest
        let next ← p.take (if c :: rest = place then token.named fresh else token)
        takeAllAs place fresh bound next rest'

/-- What a text denotes if the group that begins at a place has another name. -/
def parseAs? (place : List Char) (fresh : String) (source : List Char) : Option Regex :=
  (Parsing.start.takeAllAs place fresh source.length source).bind Parsing.finish?

/-- The names that groups of a text take. -/
def namesIn (source : List Char) : List String :=
  ((Parsing.start.takeAll source.length source).map (·.names)).getD []

/-- What is captured under the name comes from the group that is written at the place: it is captured under whatever other
name the group at the place has. -/
def CapturesFrom (source place : List Char) (name : String) : Prop :=
  ∀ fresh, fresh ∉ namesIn source → ∃ regex regex', parse? source = some regex ∧
    parseAs? place fresh source = some regex' ∧
    ∀ text, (regex'.search text).map (·.captured? fresh) = (regex.search text).map (·.captured? name)

/-- The reader comes to a token at the place. -/
def BeginsAt (source place : List Char) : Prop :=
  ∃ k p x, Reads k .start source p x ∧ skipBlanks p.flags.verbose x = place

section Place

variable {place : List Char} {fresh : String} {p q : Parsing} {x y rest : List Char} {c : Char} {k : Nat}

theorem takeAllAs_end (h : skipBlanks p.flags.verbose x = []) (n : Nat) : p.takeAllAs place fresh n x = some p := by
  cases n <;> (unfold Parsing.takeAllAs; rw [h])

theorem takeAllAs_succ (h : skipBlanks p.flags.verbose x = c :: rest) (n : Nat) : p.takeAllAs place fresh (n + 1) x =
    (Token.read p.flags c rest).bind fun (token, rest') ↦
      (p.take (if c :: rest = place then token.named fresh else token)).bind fun next ↦
        next.takeAllAs place fresh n rest' := by
  rw [Parsing.takeAllAs, h]
  rfl

/-- Where no token begins at the place, no name is changed. -/
theorem Reads.takeAllAs (h : Reads k p x q y)
    (hplace : ∀ l r z, Reads l p x r z → l < k → skipBlanks r.flags.verbose z ≠ place) (n : Nat) :
    p.takeAllAs place fresh (k + n) x = q.takeAllAs place fresh n y := by
  induction h with
  | done => rw [Nat.zero_add]
  | token blanks read take _ ih =>
    have hnot := hplace 0 _ _ .done (Nat.succ_pos _)
    rw [blanks] at hnot
    rw [Nat.add_right_comm, takeAllAs_succ blanks, read, Option.bind_some]
    dsimp only
    rw [if_neg hnot, take, Option.bind_some]
    exact ih fun l r z hreads hl ↦ hplace (l + 1) r z (.token blanks read take hreads) (Nat.succ_lt_succ hl)

/-- There is one way to read on. -/
theorem Reads.onward {l : Nat} {r : Parsing} {z : List Char} (h : Reads l p x r z) (h' : Reads k p x q y) (hle : l ≤ k) :
    Reads (k - l) r z q y := by
  induction h generalizing k with
  | done => exact h'
  | @token l _ _ _ _ _ _ _ _ _ blanks read take _ ih =>
    cases h' with
    | done => cases hle
    | token blanks' read' take' tail' =>
      cases blanks.symm.trans blanks'
      cases read.symm.trans read'
      cases take.symm.trans take'
      rw [Nat.add_sub_add_right]
      exact ih tail' (Nat.le_of_succ_le_succ hle)

/-- What is behind a token is shorter than what begins with it. -/
theorem Reads.length_lt (h : Reads k p x q y) (hk : 0 < k) : y.length < (skipBlanks p.flags.verbose x).length := by
  cases h with
  | done => cases hk
  | token blanks read _ tail =>
    have hrest := ((Token.settles_token _ _).suffix read).length_le
    have htail := tail.suffix.length_le
    rw [blanks, List.length_cons]
    omega

theorem length_skipBlanks_le (verbose : Bool) (x : List Char) : (skipBlanks verbose x).length ≤ x.length :=
  (skipBlanks_suffix verbose x).length_le

/-- What a text denotes does not depend on a name that is written where no token begins. -/
theorem parseAs?_eq {source : List Char} {regex : Regex} (h : ¬BeginsAt source place)
    (hparse : parse? source = some regex) : parseAs? place fresh source = some regex := by
  obtain ⟨q, hq, hfinish⟩ := Option.bind_eq_some_iff.mp ((parse?_eq source).symm.trans hparse)
  obtain ⟨k, y, hreads, hend⟩ := Reads.of_takeAll hq
  obtain ⟨n, hn⟩ := Nat.exists_eq_add_of_le (Nat.le_of_add_right_le hreads.length_le)
  rw [parseAs?, hn, hreads.takeAllAs (fun l r z hl _ heq ↦ h ⟨l, r, z, hl, heq⟩), takeAllAs_end hend]
  exact hfinish

/-- Flags do not matter between a parenthesis and a question mark. -/
theorem read_question (flags : Flags) (x : List Char) :
    Token.read flags '(' ('?' :: x) = Token.read {} '(' ('?' :: x) := by
  have hblanks : skipBlanks flags.verbose ('?' :: x) = '?' :: x := by
    cases flags.verbose <;> rfl
  rw [Token.read, hblanks]
  rfl

theorem Thread.captured?_rename {f : String → String} (hf : f.Injective) (t : Thread) (name : String) :
    (t.rename f).captured? (f name) = t.captured? name := by
  have hbeq (other : String) : (f other == f name) = (other == name) := by
    rw [Bool.eq_iff_iff, beq_iff_eq, beq_iff_eq, hf.eq_iff]
  rw [captured?, captured?, rename]
  dsimp only
  rw [List.find?_map, Option.map_map]
  simp only [Function.comp_def, hbeq]
  rfl

/-- Behind a group that has another name everything is read as it was, if it does not use that name. -/
theorem Reads.swap {name : String} {next : Parsing} (h : Reads k next x q y) (hp : p.Distinct)
    (htake : p.take (.group (some name)) = some next) (hfresh : fresh ∉ q.names) :
    p.take (.group (some fresh)) = some (next.rename (Equiv.swap name fresh)) ∧
      Reads k (next.rename (Equiv.swap name fresh)) x (q.rename (Equiv.swap name fresh)) y := by
  have hf : Function.Injective (Equiv.swap name fresh) := (Equiv.swap name fresh).injective
  obtain ⟨hnew, hin⟩ := names_of_take htake
  have hold := names_subset_of_take htake
  have hkept : p.rename (Equiv.swap name fresh) = p := by
    refine Parsing.rename_of_names hp fun other hother ↦ Equiv.swap_apply_of_ne_of_ne ?_ ?_
    · rintro rfl
      exact hnew hother
    · rintro rfl
      exact hfresh (h.names_subset (hold hother))
  have htaken := Parsing.take_rename hf p (.group (some name))
  rw [hkept, htake, Token.rename, Option.map_some, Equiv.swap_apply_left] at htaken
  refine ⟨htaken, h.rename hf fun other hother hlater ↦ Equiv.swap_apply_of_ne_of_ne ?_ ?_⟩
  · rintro rfl
    exact hlater hin
  · rintro rfl
    exact hfresh hother

/-- A text that is read to its end is read on behind each token. -/
theorem Reads.behind {source rest' : List Char} {token : Token} (h : Reads k .start source p x)
    (hq : Parsing.start.takeAll source.length source = some q) (hblanks : skipBlanks p.flags.verbose x = c :: rest)
    (hread : Token.read p.flags c rest = some (token, rest')) : ∃ next j y n, source.length = k + (j + n + 1) ∧
      p.take token = some next ∧ Reads j next rest' q y ∧ skipBlanks q.flags.verbose y = [] := by
  obtain ⟨m, hm⟩ := Nat.exists_eq_add_of_le (Nat.le_of_add_right_le h.length_le)
  rw [hm, h.takeAll_add] at hq
  cases m with
  | zero =>
    rw [takeAll_zero hblanks] at hq
    cases hq
  | succ m =>
    rw [takeAll_succ hblanks, hread, Option.bind_some] at hq
    obtain ⟨next, htake, htail⟩ := Option.bind_eq_some_iff.mp hq
    obtain ⟨j, y, hreads, hend⟩ := Reads.of_takeAll htail
    have hlength := (h.trans (.token hblanks hread htake hreads)).length_le
    exact ⟨next, j, y, m - j, by omega, htake, hreads, hend⟩

/-- The reader goes on with another name behind the group at the place. -/
theorem takeAllAs_of_reads {source rest' : List Char} {name : String} (h : Reads k .start source p x)
    (hq : Parsing.start.takeAll source.length source = some q) (hblanks : skipBlanks p.flags.verbose x = c :: rest)
    (hread : Token.read p.flags c rest = some (.group (some name), rest')) (hfresh : fresh ∉ q.names) :
    Parsing.start.takeAllAs (c :: rest) fresh source.length source = some (q.rename (Equiv.swap name fresh)) := by
  obtain ⟨next, j, y, n, hn, htake, hreads, hend⟩ := h.behind hq hblanks hread
  have hp : p.Distinct := h.distinct ⟨fun name ↦ Nat.le_refl 0, List.nodup_nil⟩
  obtain ⟨htake', hreads'⟩ := hreads.swap hp htake hfresh
  have hbefore : ∀ l r z, Reads l .start source r z → l < k → skipBlanks r.flags.verbose z ≠ c :: rest := by
    intro l r z hl hlt heq
    have hshorter := (hl.onward h (Nat.le_of_lt hlt)).length_lt (Nat.sub_pos_of_lt hlt)
    have hplace := length_skipBlanks_le p.flags.verbose x
    rw [hblanks] at hplace
    rw [heq] at hshorter
    exact absurd hplace (Nat.not_le.mpr hshorter)
  have hafter : ∀ l r z, Reads l (next.rename (Equiv.swap name fresh)) rest' r z → l < j →
      skipBlanks r.flags.verbose z ≠ c :: rest := by
    intro l r z hl _ heq
    have hplace := (length_skipBlanks_le r.flags.verbose z).trans hl.suffix.length_le
    have hrest := ((Token.settles_token _ _).suffix hread).length_le
    rw [heq, List.length_cons] at hplace
    omega
  rw [hn, h.takeAllAs hbefore, takeAllAs_succ hblanks, hread, Option.bind_some]
  dsimp only
  rw [if_pos rfl, Token.named, htake', Option.bind_some, hreads'.takeAllAs hafter]
  exact takeAllAs_end (p := q.rename _) hend n

/-- What is captured under a name comes from the place at which the reader comes to a group of that name. -/
theorem capturesFrom_of_beginsAt {source : List Char} {regex : Regex} {name : String} (hname : IsGroupName name)
    (hparse : parse? source = some regex) (h : BeginsAt source (openNamed name ++ rest)) :
    CapturesFrom source (openNamed name ++ rest) name := by
  intro fresh hfresh
  obtain ⟨k, p, x, hreads, hblanks⟩ := h
  obtain ⟨q, hq, hfinish⟩ := Option.bind_eq_some_iff.mp ((parse?_eq source).symm.trans hparse)
  rw [namesIn, hq] at hfresh
  have hplace : openNamed name ++ rest = '(' :: '?' :: (['P', '<'] ++ name.toList ++ ['>'] ++ rest) := by
    simp [openNamed]
  have hread : Token.read p.flags '(' ('?' :: (['P', '<'] ++ name.toList ++ ['>'] ++ rest)) =
      some (.group (some name), rest) := by
    rw [read_question]
    exact read_openNamed hname rest
  rw [hplace] at hblanks ⊢
  have hf : Function.Injective (Equiv.swap name fresh) := (Equiv.swap name fresh).injective
  have hother := takeAllAs_of_reads hreads hq hblanks hread hfresh
  refine ⟨regex, regex.rename (Equiv.swap name fresh), hparse, ?_, fun text ↦ ?_⟩
  · rw [parseAs?, hother, Option.bind_some, Parsing.finish?_rename hf, hfinish, Option.map_some]
  · have hcaptured (t : Thread) : (t.rename (Equiv.swap name fresh)).captured? fresh = t.captured? name := by
      rw [← t.captured?_rename hf name, Equiv.swap_apply_left]
    rw [search_rename, Option.map_map]
    exact congrArg (fun g ↦ (regex.search text).map g) (funext hcaptured)

end Place

end PathBinding.Regex
