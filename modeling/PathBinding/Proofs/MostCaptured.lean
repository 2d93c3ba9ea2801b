import PathBinding.Proofs.Decomposition

/-!
The policy `mostCaptured`. It ranks the patterns that took part in one match of the joined expression, and only one takes
part, so it selects what the policy of declaration order selects (`select_policy`). This is the pattern with the most
captured parameters exactly if no other that matches alone captures more than the first that does
(`mostCaptured_iff`).
-/

set_option autoImplicit false
set_option relaxedAutoImplicit false

namespace PathBinding.Mapping

open Regex

variable {declaration : Declaration} {settings : Settings} {mapping : Mapping} {text : String} {regex : Regex}

/-- What pattern number `i` captures from a path when its fragment is anchored alone, if it matches. -/
def capturedAlone? (declaration : Declaration) (mapping : Mapping) (path : String) (i : Nat) :
    Option (List (String × String)) := do
  let t ← declaration.matchAlone? i path
  let definition ← mapping.patterns[i]?
  return capturedBy t definition

/-- The first among the patterns that capture the most parameters. -/
def IsMostCaptured (captured : Nat → Option (List (String × String))) (i : Nat) : Prop :=
  ∃ own, captured i = some own ∧ ∀ j other, captured j = some other →
    other.length < own.length ∨ other.length = own.length ∧ i ≤ j

/-- Both policies select the same. -/
theorem select_policy (hbuild : build declaration settings = .ok mapping)
    (hstatic : mapping.source = .static text regex) (hstandalone : declaration.Standalone)
    (policy : SelectionPolicy) (path : String) :
    ({ mapping with selection := policy } : Mapping).select regex path = mapping.select regex path := by
  obtain ⟨groups, hgroups, rfl, hnodup, -⟩ := groups_of_build hbuild hstatic hstandalone
  rw [select_groups hgroups hnodup path]
  have hgroups' : List.Forall₂ IsGroupOf ({ mapping with selection := policy } : Mapping).patterns groups := hgroups
  exact select_groups hgroups' hnodup path

theorem capturedAlone?_eq_none {path : String} {i : Nat} (h : declaration.matchAlone? i path = none) :
    capturedAlone? declaration mapping path i = none := by
  rw [capturedAlone?, h]
  rfl

theorem capturedAlone?_eq_some {path : String} {i : Nat} {t : Thread} {definition : Definition}
    (h : declaration.matchAlone? i path = some t) (hdefinition : mapping.patterns[i]? = some definition) :
    capturedAlone? declaration mapping path i = some (capturedBy t definition) := by
  rw [capturedAlone?, h, hdefinition]
  rfl

/-- The first of all patterns that match is among those that capture the most if none captures more. -/
theorem isMostCaptured_iff {captured : Nat → Option (List (String × String))} {i : Nat} {own : List (String × String)}
    (hown : captured i = some own) (hfirst : ∀ j < i, captured j = none) :
    IsMostCaptured captured i ↔ ∀ j other, captured j = some other → other.length ≤ own.length := by
  constructor
  · rintro ⟨own', hown', hmost⟩ j other hother
    cases hown.symm.trans hown'
    rcases hmost j other hother with hlt | ⟨heq, -⟩
    · exact Nat.le_of_lt hlt
    · exact Nat.le_of_eq heq
  · intro hle
    refine ⟨own, hown, fun j other hother ↦ ?_⟩
    rcases Nat.lt_or_eq_of_le (hle j other hother) with hlt | heq
    · exact Or.inl hlt
    · refine Or.inr ⟨heq, ?_⟩
      by_contra hlt
      rw [hfirst j (Nat.lt_of_not_le hlt)] at hother
      cases hother

/-- Assumes: the declaration builds to a static mapping, under the policy `mostCaptured` or the other, and each fragment
is one group on its own. The winner is the first pattern that matches alone. It is the first among those that capture
the most parameters if and only if no pattern that matches alone captures more. -/
theorem mostCaptured_iff (hbuild : build declaration settings = .ok mapping)
    (hstatic : mapping.source = .static text regex) (hstandalone : declaration.Standalone) (path : String) :
    ((mapping.select regex path).winner = none ↔ ∀ i, capturedAlone? declaration mapping path i = none) ∧
      ∀ definition, (mapping.select regex path).winner = some definition →
        capturedAlone? declaration mapping path definition.index = some (mapping.select regex path).captured ∧
        (∀ j < definition.index, capturedAlone? declaration mapping path j = none) ∧
        (IsMostCaptured (capturedAlone? declaration mapping path) definition.index ↔
          ∀ j other, capturedAlone? declaration mapping path j = some other →
            other.length ≤ (mapping.select regex path).captured.length) := by
  obtain ⟨groups, hgroups, rfl, hnodup, hindex, -, halone⟩ := groups_of_build hbuild hstatic hstandalone
  rcases select_cases hgroups hnodup (matchAlone?_eq halone) path with
    ⟨hselect, hnone⟩ | ⟨i, definition, t, u, hdefinition, ht, hbefore, hselect, -⟩
  · rw [hselect]
    constructor
    · exact ⟨fun _ i ↦ capturedAlone?_eq_none (hnone i), fun _ ↦ rfl⟩
    · intro definition hwinner
      cases hwinner
  · have hown := capturedAlone?_eq_some ht hdefinition
    have hfirst : ∀ j < i, capturedAlone? declaration mapping path j = none := fun j hj ↦
      capturedAlone?_eq_none (hbefore j hj)
    rw [hselect]
    constructor
    · constructor
      · exact nofun
      · intro hnone
        rw [hnone i] at hown
        cases hown
    · intro winner hwinner
      cases hwinner
      rw [hindex i definition hdefinition]
      exact ⟨hown, hfirst, isMostCaptured_iff hown hfirst⟩

/-- Where a later pattern captures more, the policy does not select what it is documented to select. -/
theorem mostCaptured_overlapping : ∃ found definition,
    staticBuild? overlapping { selectionPolicy := .mostCaptured } = some found ∧
      found.1.selection = .mostCaptured ∧ overlapping.Standalone ∧
      (found.1.select found.2 "/x/y").winner = some definition ∧
      ¬ IsMostCaptured (capturedAlone? overlapping found.1 "/x/y") definition.index := by
  have hstandalone : overlapping.Standalone := by decide +kernel
  have hsome : (staticBuild? overlapping { selectionPolicy := .mostCaptured }).any (fun found ↦
      found.1.selection = .mostCaptured ∧
      (found.1.select found.2 "/x/y").winner.isSome ∧ (found.1.select found.2 "/x/y").captured.length = 1 ∧
      (capturedAlone? overlapping found.1 "/x/y" 1).any (·.length = 2)) := by decide +kernel
  obtain ⟨found, hfound, hsome⟩ := (Option.any_eq_true _ _).mp hsome
  rw [decide_eq_true_iff] at hsome
  obtain ⟨hpolicy, hwinner, hone, htwo⟩ := hsome
  obtain ⟨text, hbuild, hstatic⟩ := staticBuild?_eq_some hfound
  obtain ⟨definition, hdefinition⟩ := Option.isSome_iff_exists.mp hwinner
  obtain ⟨other, hother, htwo⟩ := (Option.any_eq_true _ _).mp htwo
  refine ⟨found, definition, hfound, hpolicy, hstandalone, hdefinition, fun hmost ↦ ?_⟩
  have hcondition := ((mostCaptured_iff hbuild hstatic hstandalone "/x/y").2 definition hdefinition).2.2.mp hmost
  have hle := hcondition 1 other hother
  rw [hone, decide_eq_true_iff.mp htwo] at hle
  exact absurd hle (by decide)

end PathBinding.Mapping
