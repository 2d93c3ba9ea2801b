import PathBinding.Proofs.Segment.Rooted

/-!
Routes: patterns of components, each of them literal text or a parameter, with optional groups nested at the end. The text
of a route is read as its tree, in which the slashes between components have become parts of literals (`read_text`). The
tree has the parameters of the route, plain literals only and in each group a placeholder of its own.
-/

set_option autoImplicit false
set_option relaxedAutoImplicit false

namespace PathBinding

namespace Segment

variable {u v : List Char}

/-! ### Literals side by side -/

theorem isLiteral_slash_append (hu : isLiteral u = true) (hv : isLiteral v = true) : isLiteral (u ++ '/' :: v) = true := by
  induction u using isLiteral.induct with
  | case1 => exact (isLiteral_slash v).trans hv
  | case2 => cases hu
  | case3 c u ih =>
    rw [isLiteral] at hu
    exact ih hu
  | case4 c u ih =>
    rw [isLiteral, Bool.and_eq_true] at hu
    exact Bool.and_eq_true_iff.mpr ⟨hu.1, ih hu.2⟩
  | case5 c u hescape hescaped hcolon ih =>
    rw [isLiteral.eq_5 _ _ hescape hescaped hcolon, Bool.and_eq_true] at hu
    have hrest := ih hu.2
    cases u with
    | nil =>
      by_cases hc : c = ':'
      · rw [hc]
        exact hrest
      · rw [List.singleton_append, isLiteral]
        · exact Bool.and_eq_true_iff.mpr ⟨hu.1, hrest⟩
        · exact fun _ ↦ List.cons_ne_nil _ _
        · exact fun _ _ h _ ↦ hescape h rfl
        · exact fun _ _ h _ ↦ hc h
    | cons d u =>
      rw [List.cons_append, List.cons_append, isLiteral]
      · exact Bool.and_eq_true_iff.mpr ⟨hu.1, hrest⟩
      · exact fun _ ↦ List.cons_ne_nil _ _
      · exact fun _ _ h _ ↦ hescaped d u h rfl
      · exact fun _ _ h _ ↦ hcolon d u h rfl

theorem unescapeChars_append (hu : isLiteral u = true) (v : List Char) :
    unescapeChars (u ++ v) = unescapeChars u ++ unescapeChars v := by
  induction u using isLiteral.induct with
  | case1 => rfl
  | case2 => cases hu
  | case3 c u ih =>
    rw [isLiteral] at hu
    exact congrArg (c :: ·) (ih hu)
  | case4 c u ih =>
    rw [isLiteral, Bool.and_eq_true] at hu
    exact congrArg (':' :: ·) (ih hu.2)
  | case5 c u hescape hescaped hcolon ih =>
    rw [isLiteral.eq_5 _ _ hescape hescaped hcolon, Bool.and_eq_true] at hu
    have hc : c ≠ '\\' := by
      rintro rfl
      cases u with
      | nil => exact hescape rfl rfl
      | cons d u => exact hescaped d u rfl rfl
    have hplain (rest : List Char) : unescapeChars (c :: rest) = c :: unescapeChars rest := by
      rw [unescapeChars]
      · exact fun h _ ↦ hc h
      · exact fun _ _ h _ ↦ hc h
    rw [List.cons_append, hplain, hplain, ih hu.2]
    rfl

theorem unescapeChars_sublist (u : List Char) : (unescapeChars u).Sublist u := by
  induction u using unescapeChars.induct with
  | case1 => exact .slnil
  | case2 => exact .cons _ .slnil
  | case3 c u ih => exact (ih.cons_cons c).cons _
  | case4 c u hescape hescaped ih =>
    rw [unescapeChars.eq_4 _ _ hescape hescaped]
    exact ih.cons_cons c

theorem unescapeChars_ne_nil (hne : u ≠ []) (hu : isLiteral u = true) : unescapeChars u ≠ [] := by
  cases u using unescapeChars.induct with
  | case1 => exact absurd rfl hne
  | case2 => cases hu
  | case3 c u => exact List.cons_ne_nil _ _
  | case4 c u hescape hescaped =>
    rw [unescapeChars.eq_4 _ _ hescape hescaped]
    exact List.cons_ne_nil _ _

theorem isPlain_append (hu : isPlain u = true) (hv : isPlain v = true) : isPlain (u ++ v) = true := by
  induction u using isPlain.induct with
  | case1 => exact hv
  | case2 c u ih =>
    rw [isPlain, Bool.and_eq_true] at hu
    exact Bool.and_eq_true_iff.mpr ⟨hu.1, ih hu.2⟩
  | case3 c u hescape ih =>
    rw [isPlain.eq_3 _ _ hescape, Bool.and_eq_true] at hu
    have hc : c ≠ '\\' := by
      rintro rfl
      cases hu.1
    rw [List.cons_append, isPlain]
    · exact Bool.and_eq_true_iff.mpr ⟨hu.1, ih hu.2⟩
    · exact fun _ _ h _ ↦ hc h

end Segment

/-! ### Components -/

/-- A component of a path: literal text, or a parameter without an expression of its own. -/
inductive Component
  | literal (text : String)
  | parameter (name : String)
  deriving DecidableEq, Repr

namespace Component

/-- The component in a pattern. -/
def letters : Component → List Char
  | .literal text => text.toList
  | .parameter name => ':' :: name.toList

def lettersAll (steps : List Component) : List Char :=
  steps.flatMap fun c ↦ '/' :: c.letters

def names : Component → List String
  | .literal _ => []
  | .parameter name => [name]

def namesAll (steps : List Component) : List String :=
  steps.flatMap names

/-- The component with a text in place of its parameter. -/
def filled (value : String → Option (List Char)) : Component → List Char
  | .literal text => Segment.unescapeChars text.toList
  | .parameter name => (value name).getD []

def filledAll (value : String → Option (List Char)) (steps : List Component) : List Char :=
  steps.flatMap fun c ↦ '/' :: c.filled value

/-- Literal text is plain, has no slash in it and is no part of a query. Parameters have names that are no positions. -/
def IsSound : Component → Prop
  | .literal text => text.toList ≠ [] ∧ Segment.isLiteral text.toList = true ∧ Segment.isPlain text.toList = true ∧
    '/' ∉ text.toList ∧ '?' ∉ text.toList
  | .parameter name => Segment.IsName name ∧ name.toList.all Char.isDigit = false

instance (name : String) : Decidable (Segment.IsName name) :=
  inferInstanceAs (Decidable (_ ∧ _))

instance : DecidablePred IsSound
  | .literal _ => inferInstanceAs (Decidable (_ ∧ _))
  | .parameter _ => inferInstanceAs (Decidable (_ ∧ _))

/-- The segments of components, each with a slash in front, between literal text and further segments. -/
def treeBetween (before : List Char) : List Component → List Segment → List Segment
  | [], after => Segment.behind before after
  | .literal text :: rest, after => treeBetween (before ++ '/' :: text.toList) rest after
  | .parameter name :: rest, after =>
    .literal (.ofList (before ++ ['/'])) :: .placeholder name none :: treeBetween [] rest after

end Component

open Component

/-- A path pattern of components, with optional groups of components nested at its end, the outermost first. Each group
has a parameter of its own. -/
structure Route where
  first : Component
  rest : List Component
  tails : List (List Component)
  sound : ∀ c ∈ first :: (rest ++ tails.flatten), c.IsSound
  anchored : ∀ tail ∈ tails, namesAll tail ≠ []

namespace Route

def lettersTails : List (List Component) → List Char
  | [] => []
  | tail :: more => '[' :: (lettersAll tail ++ lettersTails more ++ [']'])

def treeTails : List (List Component) → List Segment
  | [] => []
  | tail :: more => [.optional (treeBetween [] tail (treeTails more))]

/-- Groups with texts in place of their parameters, up to the first with a parameter that has none. -/
def filledTails (value : String → Option (List Char)) : List (List Component) → List Char
  | [] => []
  | tail :: more =>
    if (namesAll tail).all fun name ↦ (value name).isSome then filledAll value tail ++ filledTails value more else []

def text (route : Route) : String :=
  .ofList (route.first.letters ++ lettersAll route.rest ++ lettersTails route.tails)

/-- The segments of the pattern with a slash in front. -/
def tree (route : Route) : List Segment :=
  treeBetween [] (route.first :: route.rest) (treeTails route.tails)

def names (route : Route) : List String :=
  namesAll (route.first :: route.rest) ++ route.tails.flatMap namesAll

def filled (route : Route) (value : String → Option (List Char)) : List Char :=
  filledAll value (route.first :: route.rest) ++ filledTails value route.tails

end Route

/-! ### Patterns are read as their segments -/

namespace Component

variable {before s : List Char} {steps : List Component} {after : List Segment}

open Segment

theorem head_lettersAll {c : Char} (h : c ∈ (lettersAll steps ++ s).head?) (hs : ∀ c ∈ s.head?, c = '[') :
    c = '/' ∨ c = '[' := by
  cases steps with
  | nil => exact .inr (hs c h)
  | cons step rest =>
    cases h
    exact .inl rfl

theorem parted_of_open (hcanonical : CanonicalAll after) (hspells : SpellsAll after s) (hs : ∀ c ∈ s.head?, c = '[')
    (text : String) : Parted (.literal text) after := by
  cases after with
  | nil => trivial
  | cons segment rest =>
    cases segment with
    | literal own =>
      obtain ⟨u, v, rfl, rfl, -⟩ := hspells
      obtain ⟨hne, hliteral⟩ := hcanonical.1
      obtain ⟨c, letters, hown⟩ := List.exists_cons_of_ne_nil hne
      obtain rfl : c = '[' := hs c (by rw [hown]; rfl)
      rw [hown] at hliteral
      simp [isLiteral] at hliteral
    | placeholder name regex => trivial
    | positional index => trivial
    | optional inner => trivial

theorem spells_treeBetween (before : List Char) (steps : List Component) (hafter : SpellsAll after s) :
    SpellsAll (treeBetween before steps after) (before ++ lettersAll steps ++ s) := by
  induction steps generalizing before with
  | nil =>
    rw [treeBetween, behind]
    by_cases hbefore : before = []
    · rw [if_pos hbefore, hbefore]
      exact hafter
    · rw [if_neg hbefore]
      refine ⟨before, s, ?_, String.toList_ofList.symm, hafter⟩
      simp [lettersAll]
  | cons step rest ih =>
    cases step with
    | literal text =>
      have hrest := ih (before ++ '/' :: text.toList)
      rw [List.append_assoc before] at hrest
      simpa [treeBetween, lettersAll, letters] using hrest
    | parameter name =>
      refine ⟨before ++ ['/'], ':' :: name.toList ++ (lettersAll rest ++ s), ?_, String.toList_ofList.symm,
        ':' :: name.toList, lettersAll rest ++ s, rfl, ?_, ?_⟩
      · simp [lettersAll, letters]
      · rw [Spells, toList_print_placeholder]
        simp
      · exact ih []

/-- Assumes: sound components stand in front of a group or of nothing. Their segments are canonical. -/
theorem canonical_treeBetween (hbefore : isLiteral before = true) (hsound : ∀ c ∈ steps, c.IsSound)
    (hafter : CanonicalAll after) (hspells : SpellsAll after s) (hs : ∀ c ∈ s.head?, c = '[') :
    CanonicalAll (treeBetween before steps after) := by
  induction steps generalizing before with
  | nil =>
    rw [treeBetween, behind]
    by_cases hempty : before = []
    · rw [if_pos hempty]
      exact hafter
    · rw [if_neg hempty]
      refine ⟨?_, ?_, hafter⟩
      · rw [Canonical, String.toList_ofList]
        exact ⟨hempty, hbefore⟩
      · exact parted_of_open hafter hspells hs _
  | cons step rest ih =>
    obtain ⟨hstep, hrest⟩ := List.forall_mem_cons.mp hsound
    cases step with
    | literal text => exact ih (isLiteral_slash_append hbefore hstep.2.1) hrest
    | parameter name =>
      refine ⟨?_, trivial, ⟨hstep.1, hstep.2, fun _ h ↦ absurd h.symm (Option.some_ne_none _)⟩, ?_, ih rfl hrest⟩
      · rw [Canonical, String.toList_ofList]
        exact ⟨by simp, isLiteral_slash_append hbefore rfl⟩
      · intro c hc
        rw [← head?_spellsAll (spells_treeBetween [] rest hspells), List.nil_append] at hc
        rcases head_lettersAll hc hs with rfl | rfl <;> exact ⟨rfl, by decide⟩

end Component

namespace Route

open Segment

theorem spells_treeTails (tails : List (List Component)) : SpellsAll (treeTails tails) (lettersTails tails) := by
  induction tails with
  | nil => rfl
  | cons tail more ih => exact ⟨_, [], by simp [lettersTails], ⟨_, rfl, spells_treeBetween [] tail ih⟩, rfl⟩

theorem head_lettersTails (tails : List (List Component)) : ∀ c ∈ (lettersTails tails).head?, c = '[' := by
  cases tails with
  | nil => exact nofun
  | cons tail more =>
    intro c hc
    exact (Option.some.inj hc).symm

theorem canonical_treeTails {tails : List (List Component)} (h : ∀ c ∈ tails.flatten, c.IsSound) :
    CanonicalAll (treeTails tails) := by
  induction tails with
  | nil => trivial
  | cons tail more ih =>
    obtain ⟨htail, hmore⟩ := List.forall_mem_append.mp (List.flatten_cons ▸ h)
    refine ⟨?_, trivial, trivial⟩
    exact canonical_treeBetween rfl htail (ih hmore) (spells_treeTails more) (head_lettersTails more)

/-- With a slash in front, a pattern of components is read as their segments. -/
theorem read_text (route : Route) : read ("/" ++ route.text) = .ok route.tree := by
  have hsound := route.sound
  rw [← List.cons_append] at hsound
  obtain ⟨hfront, htails⟩ := List.forall_mem_append.mp hsound
  refine read_eq_ok_iff.mpr ⟨?_, ?_⟩
  · exact canonical_treeBetween rfl hfront (canonical_treeTails htails) (spells_treeTails _) (head_lettersTails _)
  · have hspells := spells_treeBetween [] (route.first :: route.rest) (spells_treeTails route.tails)
    rw [String.toList_append, text, String.toList_ofList]
    simpa [tree, lettersAll] using hspells

theorem rooted_text (route : Route) : Fragment.rooted route.text = "/" ++ route.text := by
  obtain ⟨c, more, hletters, hslash, hopen⟩ : ∃ c more, route.first.letters = c :: more ∧ c ≠ '/' ∧ c ≠ '[' := by
    have hfirst := route.sound _ List.mem_cons_self
    cases hstep : route.first with
    | literal text =>
      rw [hstep] at hfirst
      obtain ⟨hne, hliteral, -, hslash, -⟩ := hfirst
      obtain ⟨c, more, htext⟩ := List.exists_cons_of_ne_nil hne
      rw [htext] at hliteral hslash
      refine ⟨c, more, htext, fun hc ↦ hslash (hc ▸ List.mem_cons_self), ?_⟩
      rintro rfl
      simp [isLiteral] at hliteral
    | parameter name => exact ⟨':', name.toList, rfl, by decide, by decide⟩
  have htext : route.text.toList = c :: (more ++ (lettersAll route.rest ++ lettersTails route.tails)) := by
    rw [text, String.toList_ofList, hletters]
    simp
  unfold Fragment.rooted
  split
  · next heq => exact absurd (List.cons.inj (htext.symm.trans heq)).1 hslash
  · next heq => exact absurd (List.cons.inj (htext.symm.trans heq)).1 hopen
  · rfl

end Route

/-! ### What the segments contain -/

namespace Component

variable {before : List Char} {steps : List Component} {after : List Segment}

open Segment

theorem placeholders_treeBetween (before : List Char) (steps : List Component) (after : List Segment) :
    placeholdersAll (treeBetween before steps after) = (namesAll steps).map (·, none) ++ placeholdersAll after := by
  induction steps generalizing before with
  | nil =>
    rw [treeBetween, behind]
    split <;> rfl
  | cons step rest ih =>
    cases step with
    | literal text => exact ih _
    | parameter name => exact congrArg ((name, none) :: ·) (ih [])

theorem plain_treeBetween (hbefore : isPlain before = true) (hsound : ∀ c ∈ steps, c.IsSound)
    (hafter : Fragment.IsPlainPath after) : Fragment.IsPlainPath (treeBetween before steps after) := by
  induction steps generalizing before with
  | nil =>
    rw [treeBetween, behind]
    split
    · exact hafter
    · refine List.forall_mem_cons.mpr ⟨?_, hafter⟩
      rwa [String.toList_ofList]
  | cons step rest ih =>
    obtain ⟨hstep, hrest⟩ := List.forall_mem_cons.mp hsound
    cases step with
    | literal text =>
      have hslash : isPlain ('/' :: text.toList) = true := isPlain_append (u := ['/']) rfl hstep.2.2.1
      exact ih (isPlain_append hbefore hslash) hrest
    | parameter name =>
      refine List.forall_mem_cons.mpr ⟨?_, ih rfl hrest⟩
      rw [String.toList_ofList]
      exact isPlain_append hbefore rfl

theorem anchored_treeBetween (before : List Char) (steps : List Component) (hafter : AllAnchored after) :
    AllAnchored (treeBetween before steps after) := by
  induction steps generalizing before with
  | nil =>
    rw [treeBetween]
    exact allAnchored_behind hafter
  | cons step rest ih =>
    cases step with
    | literal text => exact ih _
    | parameter name => exact ⟨trivial, trivial, ih []⟩

theorem placeholder_mem_treeBetween (before : List Char) {steps : List Component} {name : String} (h : name ∈ namesAll steps)
    (after : List Segment) : .placeholder name none ∈ treeBetween before steps after := by
  induction steps generalizing before with
  | nil => cases h
  | cons step rest ih =>
    cases step with
    | literal text => exact ih _ h
    | parameter own =>
      rcases List.mem_cons.mp h with rfl | h
      · exact List.mem_cons_of_mem _ List.mem_cons_self
      · exact List.mem_cons_of_mem _ (List.mem_cons_of_mem _ (ih [] h))

end Component

namespace Route

open Segment

theorem placeholders_treeTails (tails : List (List Component)) :
    placeholdersAll (treeTails tails) = (tails.flatMap namesAll).map (·, none) := by
  induction tails with
  | nil => rfl
  | cons tail more ih =>
    rw [treeTails, placeholdersAll, placeholders, placeholders_treeBetween, ih, List.flatMap_cons, List.map_append]
    exact List.append_nil _

theorem placeholders_tree (route : Route) : placeholdersAll route.tree = route.names.map (·, none) := by
  rw [tree, placeholders_treeBetween, placeholders_treeTails, names, List.map_append]

theorem plain_tree (route : Route) : Fragment.IsPlainPath route.tree := by
  have htails {tails : List (List Component)} (h : ∀ c ∈ tails.flatten, c.IsSound) :
      Fragment.IsPlainPath (treeTails tails) := by
    induction tails with
    | nil => exact nofun
    | cons tail more ih =>
      obtain ⟨htail, hmore⟩ := List.forall_mem_append.mp (List.flatten_cons ▸ h)
      have hplain : Fragment.IsPlainPath (treeBetween [] tail (treeTails more)) := plain_treeBetween rfl htail (ih hmore)
      rw [Fragment.IsPlainPath, treeTails, literalsAll, literals]
      exact List.forall_mem_append.mpr ⟨hplain, nofun⟩
  obtain ⟨hfront, hsound⟩ := List.forall_mem_append.mp (List.cons_append ▸ route.sound)
  exact plain_treeBetween rfl hfront (htails hsound)

theorem anchored_tree (route : Route) : AllAnchored route.tree := by
  have htails {tails : List (List Component)} (h : ∀ tail ∈ tails, namesAll tail ≠ []) : AllAnchored (treeTails tails) := by
    induction tails with
    | nil => trivial
    | cons tail more ih =>
      obtain ⟨htail, hmore⟩ := List.forall_mem_cons.mp h
      obtain ⟨name, hname⟩ := List.exists_mem_of_ne_nil _ htail
      exact ⟨⟨⟨name, none, placeholder_mem_treeBetween [] hname _⟩, anchored_treeBetween [] tail (ih hmore)⟩, trivial⟩
  exact anchored_treeBetween [] _ (htails route.anchored)

end Route

end PathBinding
