import PathBinding.Proofs.NormalForm
import PathBinding.Proofs.Regex.Alternatives

/-!
Selection with an expression that has one group for each pattern. A match passes one of the groups, so one pattern is a
candidate whatever the policy is: the first whose group matches alone, and the text captured is what the group captures
alone (`first_of_search`, `select_groups`).
-/

set_option autoImplicit false
set_option relaxedAutoImplicit false

namespace PathBinding

namespace Mapping

open Regex

/-- The match of the whole text by an expression alone. -/
def matchAlone (r : Regex) (text : List Char) : Option Thread :=
  (sequence [.look .textStart, r, .look .textEnd]).search text

/-- The expression is the group of the pattern. -/
def IsGroupOf (definition : Definition) (r : Regex) : Prop :=
  ∃ body, r = .group (some definition.fragment) body

section Choice

variable {mapping : Mapping} {t u : Thread} {definition : Definition}

theorem capturedBy_congr (h : ∀ name ∈ definition.parameters,
      t.captured? (definition.groupName name) = u.captured? (definition.groupName name)) :
    capturedBy t definition = capturedBy u definition :=
  List.filterMap_congr fun name hname ↦ by rw [h name hname]

theorem lookup_filterMap (f : String → Option String) (names : List String) (name : String) :
    (names.filterMap fun n ↦ (f n).map (n, ·)).lookup name = if name ∈ names then f name else none := by
  induction names with
  | nil => rfl
  | cons first rest ih =>
    rw [List.filterMap_cons]
    by_cases hname : name = first
    · subst hname
      rw [if_pos List.mem_cons_self]
      cases hf : f name with
      | none => rw [Option.map_none, ih, hf, ite_self]
      | some text => simp
    · have hne : (name == first) = false := by simpa using hname
      simp only [List.mem_cons, hname, false_or]
      cases f first with
      | none => rw [Option.map_none, ih]
      | some text => rw [Option.map_some, List.lookup_cons, hne, ih]

/-- What a selection tells about a parameter. -/
theorem lookup_capturedBy (t : Thread) (definition : Definition) (name : String) :
    (capturedBy t definition).lookup name =
      if name ∈ definition.parameters then (t.captured? (definition.groupName name)).map String.ofList else none := by
  have hmap (n : String) : ((t.captured? (definition.groupName n)).map fun text ↦ (n, String.ofList text)) =
      ((t.captured? (definition.groupName n)).map String.ofList).map (n, ·) := by
    rw [Option.map_map]
    rfl
  simp only [capturedBy, hmap]
  exact lookup_filterMap (fun n ↦ (t.captured? (definition.groupName n)).map String.ofList) _ name

/-- A single candidate is chosen by each policy. -/
theorem choose_of_filter (h : mapping.patterns.filter (fun p ↦ (t.captured? p.fragment).isSome) = [definition]) :
    mapping.choose t = ⟨some definition, capturedBy t definition⟩ := by
  unfold choose
  rw [h]
  cases mapping.selection <;> rfl

end Choice

/-- Only the pattern takes part whose group has been passed. -/
theorem filter_candidates {before after : List (Definition × Regex)} {definition : Definition} {r : Regex}
    (hgroups : ∀ p ∈ before ++ (definition, r) :: after, IsGroupOf p.1 p.2)
    (hnodup : ((before ++ (definition, r) :: after).flatMap fun p ↦ p.2.groupNames).Nodup) {text : List Char}
    {t : Thread} (ht : t ∈ run none r [.start 0 none text]) :
    ((before ++ (definition, r) :: after).map Prod.fst).filter (fun p ↦ (t.captured? p.fragment).isSome) =
      [definition] := by
  have hown : (t.captured? definition.fragment).isSome := by
    obtain ⟨body, hbody⟩ := hgroups (definition, r) (by simp)
    have hr : r = .group (some definition.fragment) body := hbody
    rw [hr] at ht
    exact captured_of_group ht
  have hname : ∀ p ∈ before ++ after, p.1.fragment ∈ p.2.groupNames := by
    intro p hp
    obtain ⟨body, hbody⟩ := hgroups p (by
      rcases List.mem_append.mp hp with hp | hp
      · exact List.mem_append_left _ hp
      · exact List.mem_append_right _ (List.mem_cons_of_mem _ hp))
    rw [hbody]
    exact List.mem_cons_self
  rw [List.flatMap_append, List.flatMap_cons] at hnodup
  have hother : ∀ p ∈ before ++ after, (t.captured? p.1.fragment).isSome = false := by
    intro p hp
    rw [← Bool.not_eq_true]
    intro hcaptured
    have hr := mem_groupNames_of_captured ht hcaptured
    rcases List.mem_append.mp hp with hin | hin
    · exact (List.disjoint_of_nodup_append hnodup) (List.mem_flatMap.mpr ⟨p, hin, hname p hp⟩)
        (List.mem_append_left _ hr)
    · exact (List.disjoint_of_nodup_append (List.nodup_append.mp hnodup).2.1) hr
        (List.mem_flatMap.mpr ⟨p, hin, hname p hp⟩)
  have hnil {ps : List (Definition × Regex)} (hps : ∀ p ∈ ps, (t.captured? p.1.fragment).isSome = false) :
      (ps.map Prod.fst).filter (fun p ↦ (t.captured? p.fragment).isSome) = [] := by
    rw [List.filter_eq_nil_iff]
    intro definition hdefinition
    obtain ⟨p, hp, rfl⟩ := List.mem_map.mp hdefinition
    simp [hps p hp]
  rw [List.map_append, List.map_cons, List.filter_append, List.filter_cons, if_pos hown,
    hnil fun p hp ↦ hother p (List.mem_append_left _ hp), hnil fun p hp ↦ hother p (List.mem_append_right _ hp)]
  rfl

section Groups

variable {mapping : Mapping} {groups : List Regex} {text : List Char}

/-- The joined groups. -/
def joined (groups : List Regex) : Regex :=
  sequence [.look .textStart, altAll groups, .look .textEnd]

theorem captures_joined (hlength : mapping.patterns.length = groups.length) (hne : groups ≠ []) (text : List Char) :
    (mapping.patterns.zip groups).findSome? (fun p ↦ (matchAlone p.2 text).map Thread.captured?) =
      ((joined groups).search text).map Thread.captured? := by
  have hsnd : (mapping.patterns.zip groups).map Prod.snd = groups := List.map_snd_zip (Nat.le_of_eq hlength.symm)
  have hcaptures := captures_altAll hne (t := .start 0 none text) (o := text.length) (by simp [Thread.start])
  simp only [← search_anchored] at hcaptures
  rw [joined, hcaptures]
  conv_rhs => rw [← hsnd, List.findSome?_map]
  rfl

/-- Where the joined groups do not match, none of them matches alone. -/
theorem matchAlone_of_search_none (hlength : mapping.patterns.length = groups.length)
    (hu : (joined groups).search text = none) (hne : groups ≠ []) :
    ∀ p ∈ mapping.patterns.zip groups, matchAlone p.2 text = none := by
  have hcaptures := captures_joined hlength hne text
  rw [hu, Option.map_none, List.findSome?_eq_none_iff] at hcaptures
  intro p hp
  simpa using hcaptures p hp

/-- Assumes: the patterns come with groups of their own, and no name is taken twice. A match of the joined groups captures
what the first group captures that matches alone, and no other pattern takes part in it. -/
theorem first_of_search (hgroups : List.Forall₂ IsGroupOf mapping.patterns groups)
    (hnodup : (groups.flatMap groupNames).Nodup) (hne : groups ≠ []) {u : Thread}
    (hu : (joined groups).search text = some u) :
    ∃ before definition r after t, mapping.patterns.zip groups = before ++ (definition, r) :: after ∧
      (∀ p ∈ before, matchAlone p.2 text = none) ∧ matchAlone r text = some t ∧ t.captured? = u.captured? ∧
      mapping.patterns.filter (fun p ↦ (u.captured? p.fragment).isSome) = [definition] := by
  have hlength := hgroups.length_eq
  have hsnd : (mapping.patterns.zip groups).map Prod.snd = groups := List.map_snd_zip (Nat.le_of_eq hlength.symm)
  have hfst : (mapping.patterns.zip groups).map Prod.fst = mapping.patterns := List.map_fst_zip (Nat.le_of_eq hlength)
  have hzip : ∀ p ∈ mapping.patterns.zip groups, IsGroupOf p.1 p.2 := fun p hp ↦
    (List.forall₂_iff_zip.mp hgroups).2 hp
  have hcaptures := captures_joined hlength hne text
  rw [hu, Option.map_some, List.findSome?_eq_some_iff] at hcaptures
  obtain ⟨before, ⟨definition, r⟩, after, hsplit, hr, hbefore⟩ := hcaptures
  obtain ⟨t, ht, hsame⟩ := Option.map_eq_some_iff.mp hr
  have hmem : t ∈ run none r [.start 0 none text] := mem_of_threadAt ((search_anchored r text).symm.trans ht)
  have hnames : ((before ++ (definition, r) :: after).flatMap fun p ↦ p.2.groupNames).Nodup := by
    rw [← hsplit, ← List.flatMap_map Prod.snd groupNames, hsnd]
    exact hnodup
  have hfilter := filter_candidates (hsplit ▸ hzip) hnames hmem
  rw [← hsplit, hfst, hsame] at hfilter
  exact ⟨before, definition, r, after, t, hsplit, fun p hp ↦ by simpa using hbefore p hp, ht, hsame, hfilter⟩

/-- Assumes: the patterns come with groups of their own, and no name is taken twice. The joined groups select the first
pattern whose group matches alone, with the text that is captured there. -/
theorem select_groups (hgroups : List.Forall₂ IsGroupOf mapping.patterns groups)
    (hnodup : (groups.flatMap groupNames).Nodup) (path : String) :
    mapping.select (joined groups) path =
      ((mapping.patterns.zip groups).findSome? fun p ↦
        (matchAlone p.2 (normalizePath path).toList).map fun t ↦ ⟨some p.1, capturedBy t p.1⟩).getD .none := by
  have hlength := hgroups.length_eq
  rw [select, select?]
  by_cases hne : groups = []
  · -- Without patterns there is nothing to choose from.
    have hpatterns : mapping.patterns = [] := List.length_eq_zero_iff.mp (by rw [hlength, hne]; rfl)
    have hchoose (t : Thread) : mapping.choose t = .none := by
      unfold choose
      rw [hpatterns]
      cases mapping.selection <;> rfl
    rw [hpatterns]
    cases search _ (normalizePath path).toList with
    | none => rfl
    | some t => exact hchoose t
  cases hu : (joined groups).search (normalizePath path).toList with
  | none =>
    have hnone := matchAlone_of_search_none hlength hu hne
    rw [List.findSome?_eq_none_iff.mpr fun p hp ↦ by rw [hnone p hp]; rfl]
    rfl
  | some u =>
    obtain ⟨before, definition, r, after, t, hsplit, hbefore, ht, hsame, hfilter⟩ :=
      first_of_search hgroups hnodup hne hu
    have hfirst : ((mapping.patterns.zip groups).findSome? fun p ↦
        (matchAlone p.2 (normalizePath path).toList).map fun t ↦ (⟨some p.1, capturedBy t p.1⟩ : Selection)) =
        some ⟨some definition, capturedBy t definition⟩ := by
      refine List.findSome?_eq_some_iff.mpr ⟨before, (definition, r), after, hsplit, ?_, fun p hp ↦ ?_⟩
      · rw [ht, Option.map_some]
      · rw [hbefore p hp, Option.map_none]
    rw [hfirst, Option.map_some, Option.getD_some, Option.getD_some, choose_of_filter hfilter,
      capturedBy_congr fun _ _ ↦ congrFun hsame _]

end Groups

end Mapping

end PathBinding
