import PathBinding.Proofs.Regex.SettledToken
import PathBinding.Regex.Parser

/-!
Readings of expression text, token by token. A reading of a part of a text is a reading of it inside any text that goes
on (`Reads.extend`) and inside any open groups (`Reads.on`), provided that its groups have names of their own; and since
there is only one reading, a text that is read as a whole has no other (`Reads.takeAll_on`).
-/

set_option autoImplicit false
set_option relaxedAutoImplicit false

namespace PathBinding.Regex

/-- From one state and text to another by a number of tokens. -/
inductive Reads : Nat → Parsing → List Char → Parsing → List Char → Prop
  | done {p : Parsing} {x : List Char} : Reads 0 p x p x
  | token {k : Nat} {p next q : Parsing} {x rest rest' y : List Char} {c : Char} {token : Token}
    (blanks : skipBlanks p.flags.verbose x = c :: rest)
    (read : Token.read p.flags c rest = some (token, rest')) (take : p.take token = some next)
    (tail : Reads k next rest' q y) : Reads (k + 1) p x q y

section TakeAll

variable {n : Nat} {p : Parsing} {x rest : List Char} {c : Char}

theorem takeAll_end (h : skipBlanks p.flags.verbose x = []) (n : Nat) : p.takeAll n x = some p := by
  cases n <;> (unfold Parsing.takeAll; rw [h])

theorem takeAll_zero (h : skipBlanks p.flags.verbose x = c :: rest) : p.takeAll 0 x = none := by
  unfold Parsing.takeAll
  rw [h]

theorem takeAll_succ (h : skipBlanks p.flags.verbose x = c :: rest) (n : Nat) :
    p.takeAll (n + 1) x = (Token.read p.flags c rest).bind fun (token, rest') ↦
      (p.take token).bind fun next ↦ next.takeAll n rest' := by
  rw [Parsing.takeAll, h]
  rfl

/-- A text that is read to its end begins with a token that is taken. -/
theorem takeAll_token {token : Token} {rest' : List Char} {r : Parsing}
    (hblanks : skipBlanks p.flags.verbose x = c :: rest) (hread : Token.read p.flags c rest = some (token, rest'))
    (h : p.takeAll n x = some r) : ∃ next m, p.take token = some next ∧ next.takeAll m rest' = some r := by
  cases n with
  | zero =>
    rw [takeAll_zero hblanks] at h
    cases h
  | succ n =>
    rw [takeAll_succ hblanks, hread, Option.bind_some] at h
    obtain ⟨next, htake, htail⟩ := Option.bind_eq_some_iff.mp h
    exact ⟨next, n, htake, htail⟩

end TakeAll

namespace Reads

variable {k l n : Nat} {p q r : Parsing} {x y z : List Char}

theorem trans (h : Reads k p x q y) (h' : Reads l q y r z) : Reads (k + l) p x r z := by
  induction h with
  | done => rwa [Nat.zero_add]
  | token blanks read take _ ih =>
    rw [Nat.add_right_comm]
    exact .token blanks read take (ih h')

theorem suffix (h : Reads k p x q y) : y <:+ x := by
  induction h with
  | done => exact List.suffix_rfl
  | @token _ p _ _ x _ _ _ _ _ blanks read _ _ ih =>
    have hskip := skipBlanks_suffix p.flags.verbose x
    rw [blanks] at hskip
    have hrest := (Token.settles_token _ _).suffix read
    exact (ih.trans hrest).trans ((List.suffix_cons _ _).trans hskip)

/-- Each token takes at least a character. -/
theorem length_le (h : Reads k p x q y) : k + y.length ≤ x.length := by
  induction h with
  | done => exact Nat.le_of_eq (Nat.zero_add _)
  | @token _ p _ _ x _ _ _ _ _ blanks read _ _ ih =>
    have hskip := (skipBlanks_suffix p.flags.verbose x).length_le
    rw [blanks, List.length_cons] at hskip
    have hrest := ((Token.settles_token _ _).suffix read).length_le
    omega

theorem takeAll_add (h : Reads k p x q y) (n : Nat) : p.takeAll (k + n) x = q.takeAll n y := by
  induction h with
  | done => rw [Nat.zero_add]
  | token blanks read take _ ih =>
    rw [Nat.add_right_comm, takeAll_succ blanks, read, Option.bind_some]
    dsimp only
    rw [take, Option.bind_some]
    exact ih

/-- The bound on the number of tokens is not reached. -/
theorem takeAll (h : Reads k p x q y) (hend : skipBlanks q.flags.verbose y = []) :
    p.takeAll x.length x = some q := by
  obtain ⟨n, hn⟩ := Nat.exists_eq_add_of_le (Nat.le_of_add_right_le h.length_le)
  rw [hn, h.takeAll_add, takeAll_end hend]

theorem of_takeAll (h : p.takeAll n x = some q) :
    ∃ k y, Reads k p x q y ∧ skipBlanks q.flags.verbose y = [] := by
  induction n generalizing p x with
  | zero =>
    cases hblanks : skipBlanks p.flags.verbose x with
    | nil =>
      rw [takeAll_end hblanks] at h
      cases h
      exact ⟨0, x, .done, hblanks⟩
    | cons c rest =>
      rw [takeAll_zero hblanks] at h
      cases h
  | succ n ih =>
    cases hblanks : skipBlanks p.flags.verbose x with
    | nil =>
      rw [takeAll_end hblanks] at h
      cases h
      exact ⟨0, x, .done, hblanks⟩
    | cons c rest =>
      rw [takeAll_succ hblanks] at h
      obtain ⟨⟨token, rest'⟩, hread, h⟩ := Option.bind_eq_some_iff.mp h
      obtain ⟨next, htake, h⟩ := Option.bind_eq_some_iff.mp h
      obtain ⟨k, y, hreads, hend⟩ := ih h
      exact ⟨k + 1, y, .token hblanks hread htake hreads, hend⟩

/-- What is read stays the same in a text that goes on. -/
theorem extend (h : Reads k p x q y) (hy : y ≠ []) (s : List Char) :
    Reads k p (x ++ s) q (y ++ s) := by
  induction h with
  | done => exact .done
  | token blanks read take tail ih =>
    have hrest := ne_nil_of_suffix tail.suffix hy
    refine .token ?_ ((Token.settles_token _ _).extend read hrest s) take (ih hy)
    rw [skipBlanks_append (by simp [blanks]), blanks]
    rfl

end Reads

/-! ### Inside open groups -/

/-- The same state with names used before and groups open around it. -/
def Parsing.on (p : Parsing) (names : List String) (enclosing : List Enclosing) : Parsing :=
  { p with names := p.names ++ names, enclosing := p.enclosing ++ enclosing }

section Frame

variable {k n : Nat} {p q r : Parsing} {x y : List Char} {names : List String}
  {enclosing : List Enclosing} {token : Token}

theorem names_subset_of_take (h : p.take token = some q) : p.names ⊆ q.names := by
  unfold Parsing.take at h
  split at h
  · cases h; exact List.Subset.refl _
  · unfold Parsing.repeatLast at h
    split at h
    · cases h
    · split at h
      · cases h; exact List.Subset.refl _
      · cases h
  · cases h; exact List.Subset.refl _
  · unfold Parsing.leave at h
    split at h
    · cases h
    · cases h; exact List.Subset.refl _
  · cases h; exact List.Subset.refl _
  · split at h
    · cases h
    · cases h; exact List.subset_cons_self _ _
  · cases h; exact List.Subset.refl _
  · cases h; exact List.Subset.refl _

theorem Reads.names_subset (h : Reads k p x q y) : p.names ⊆ q.names := by
  induction h with
  | done => exact List.Subset.refl _
  | token _ _ take _ ih => exact List.Subset.trans (names_subset_of_take take) ih

/-- A token does inside open groups what it does outside, unless it names a group that is named already. -/
theorem take_on (h : p.take token = some q) : (p.on names enclosing).take token =
    if ∀ name ∈ q.names, name ∉ p.names → name ∉ names then some (q.on names enclosing) else none := by
  have hold (hsame : q.names = p.names) : ∀ name ∈ q.names, name ∉ p.names → name ∉ names :=
    fun name hname hnew ↦ absurd (hsame ▸ hname) hnew
  cases token with
  | atom regex height =>
    cases h
    rw [if_pos (hold rfl)]
    rfl
  | «repeat» min max greedy =>
    simp only [Parsing.take, Parsing.repeatLast] at h
    split at h
    · cases h
    next part parts hparts =>
    split at h
    swap
    · cases h
    next hrepeatable =>
    cases h
    rw [if_pos (hold rfl)]
    simp [Parsing.take, Parsing.repeatLast, Parsing.on, hparts, hrepeatable]
  | bar =>
    cases h
    rw [if_pos (hold rfl)]
    rfl
  | close =>
    simp only [Parsing.take, Parsing.leave] at h
    split at h
    · cases h
    next outer rest henclosing =>
    cases h
    rw [if_pos (hold rfl)]
    simp [Parsing.take, Parsing.leave, Parsing.on, henclosing]
  | group name =>
    cases name with
    | none =>
      cases h
      rw [if_pos (hold rfl)]
      rfl
    | some name =>
      simp only [Parsing.take] at h
      split at h
      · cases h
      next hname =>
      cases h
      by_cases hin : name ∈ names
      · rw [if_neg fun hall ↦ hall name List.mem_cons_self hname hin]
        simp [Parsing.take, Parsing.on, hin]
      · rw [if_pos]
        · simp [Parsing.take, Parsing.on, hname, hin, Parsing.enter]
        · intro other hother hnew
          rcases List.mem_cons.mp hother with rfl | hold
          · exact hin
          · exact absurd hold hnew
  | scope changes =>
    cases h
    rw [if_pos (hold rfl)]
    rfl
  | switch changes =>
    cases h
    rw [if_pos (hold rfl)]
    rfl

/-- A reading, inside open groups that share no name with it. -/
theorem Reads.on (h : Reads k p x q y) (hnames : ∀ name ∈ q.names, name ∉ p.names → name ∉ names) :
    Reads k (p.on names enclosing) x (q.on names enclosing) y := by
  induction h with
  | done => exact .done
  | token blanks read take tail ih =>
    have hsub := names_subset_of_take take
    refine .token blanks read ?_ (ih fun name hname hnew ↦ hnames name hname fun hold ↦ hnew (hsub hold))
    rw [take_on take, if_pos]
    exact fun name hname hnew ↦ hnames name (tail.names_subset hname) hnew

/-- What is read inside open groups goes the one way there is. -/
theorem Reads.takeAll_on (h : Reads k p x q y) (hr : (p.on names enclosing).takeAll n x = some r)
    (hend : y ≠ []) : (∀ name ∈ q.names, name ∉ p.names → name ∉ names) ∧
      ∃ m, (q.on names enclosing).takeAll m y = some r := by
  induction h generalizing n with
  | done => exact ⟨fun name hname hnew ↦ absurd hname hnew, n, hr⟩
  | @token _ p next q x rest rest' y c token blanks read take tail ih =>
    obtain ⟨next', m, htake, hm⟩ := takeAll_token (p := p.on names enclosing) blanks read hr
    rw [take_on take] at htake
    split at htake
    swap
    · cases htake
    next hnew =>
    cases htake
    obtain ⟨htail, hlast⟩ := ih hm hend
    refine ⟨fun name hname hp ↦ ?_, hlast⟩
    by_cases hnext : name ∈ next.names
    · exact hnew name hnext hp
    · exact htail name hname hnext

end Frame

end PathBinding.Regex
