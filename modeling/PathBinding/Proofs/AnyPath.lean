import PathBinding.Proofs.Expansion
import PathBinding.Proofs.NormalForm

/-!
The pattern for any path. It is written in the language of expressions, as any number of any characters, and there a line
break is not among any characters. So it stands for all texts that are a slash and no line break behind it
(`accepts_anyPath`), and a mapping that has no other pattern selects it for exactly those paths that have no line break in
front of their first question mark (`matchAny_selected`). What stands in the query does not matter.
-/

set_option autoImplicit false
set_option relaxedAutoImplicit false

namespace PathBinding

open Regex

namespace Mapping

/-! ### The expression -/

/-- A slash, and as little text without line breaks as possible. -/
def anyPath : List Regex :=
  [.set (.single '/'), .repeat 0 none false (.set (.compl (.single '\n')))]

/-- The group of the pattern for any path, if the pattern is the first. -/
def anyPathGroup : Regex :=
  .group (some (Definition.fragmentName 0)) (sequence (anyPath ++ query []))

theorem lookFree_anyPath : ∀ r ∈ anyPath, r.lookFree = true := by
  decide

theorem accepts_anyPath (e : List Char) : (sequence anyPath).Accepts e ↔ ∃ w, e = '/' :: w ∧ '\n' ∉ w := by
  have hseq : sequence anyPath = .seq (.set (.single '/')) (.repeat 0 none false (.set (.compl (.single '\n')))) := rfl
  rw [hseq, accepts_seq rfl rfl]
  simp only [accepts_set, single_contains, accepts_allBut]
  constructor
  · rintro ⟨_, w, rfl, ⟨c, rfl, rfl⟩, hw⟩
    exact ⟨w, rfl, hw⟩
  · rintro ⟨w, rfl, hw⟩
    exact ⟨['/'], w, rfl, ⟨'/', rfl, rfl⟩, hw⟩

/-- What stands in front of the first question mark stands in front of any. -/
theorem mem_of_mem_takeWhile {c : Char} {e q : List Char} (h : c ∈ (e ++ '?' :: q).takeWhile (· != '?')) : c ∈ e := by
  rw [List.takeWhile_append] at h
  split at h
  · simpa using h
  · exact (List.takeWhile_sublist _).subset h

/-- The group matches a path if there is no line break in front of the first question mark. -/
theorem matchAlone_anyPathGroup (path : String) : (matchAlone anyPathGroup (normalizePath path).toList).isSome ↔
    '\n' ∉ path.toList.takeWhile (· != '?') := by
  have hmatch : (matchAlone anyPathGroup (normalizePath path).toList).isSome ↔
      ∃ e q, (normalizePath path).toList = e ++ '?' :: q ∧ ∃ w, e = '/' :: w ∧ '\n' ∉ w := by
    refine (search_anchored_isSome _ _).trans ?_
    refine (Fragment.accepts_query lookFree_anyPath [] _ (getLast?_normalizePath path)).trans ?_
    simp only [accepts_anyPath]
  rw [hmatch, ← mem_front_normalizePath (by decide) path]
  constructor
  · rintro ⟨_, q, htext, w, rfl, hw⟩ hin
    rw [htext] at hin
    exact (List.mem_cons.mp (mem_of_mem_takeWhile hin)).elim (by decide) hw
  · intro hnone
    obtain ⟨front, query, htext, hfront⟩ := exists_query path
    have htext' : (normalizePath path).toList = front ++ '?' :: (query ++ ['&']) := by
      rw [htext, List.append_assoc, List.cons_append]
    obtain ⟨w, hw, -⟩ := front_slash htext'
    refine ⟨front, _, htext', w, hw, fun hin ↦ hnone ?_⟩
    have hbefore : ∀ c ∈ front, (c != '?') = true := fun c hc ↦ bne_iff_ne.mpr fun heq ↦ hfront (heq ▸ hc)
    rw [htext', List.takeWhile_append_of_pos hbefore, hw]
    exact List.mem_append_left _ (List.mem_cons_of_mem _ hin)

/-! ### Mappings -/

/-- The pattern as it takes part in selection, if it is the first. -/
def anyPathDefinition : Definition :=
  ⟨matchAny, 0, [], [], []⟩

/-- The text of its group. -/
def anyPathText : String := "(?P<p0>/.*?\\?(?:(?:[^&]*)&)*)"

/-- The text of the expression of a mapping that has no other pattern. -/
def anyPathSource : String := "^(?:(?P<p0>/.*?\\?(?:(?:[^&]*)&)*))$"

theorem compileFrom_matchAny (declaration : Declaration) : compileFrom declaration 0 [⟨matchAny, []⟩] =
    .ok [(anyPathDefinition, [.text anyPathText])] :=
  rfl

/-- The text of the expression denotes the group between anchors. -/
theorem parse?_anyPath : parse? anyPathSource.toList = some (joined [anyPathGroup]) := by
  decide +kernel

/-- The expression of the pattern for any path is compiled if the limit leaves room for it. -/
theorem compileRegex_anyPath (owner : String) (limit : Nat) :
    compileRegex owner limit anyPathSource =
      if (joined [anyPathGroup]).programBytes .forwards ≤ limit ∧ (joined [anyPathGroup]).programBytes .backwards ≤ limit
      then .ok (joined [anyPathGroup]) else .error (.invalidRegex owner) := by
  unfold compileRegex compile?
  rw [parse?_anyPath]
  by_cases hfits : (joined [anyPathGroup]).programBytes .forwards ≤ limit ∧
      (joined [anyPathGroup]).programBytes .backwards ≤ limit
  · rw [if_pos hfits]
    simp [guard, hfits]
  · rw [if_neg hfits]
    simp [guard, hfits]

section Built

variable {declaration : Declaration} {settings : Settings} {mapping : Mapping}

/-- Nothing but the names of the parameters and the limit decides whether the declaration builds. -/
theorem build_matchAny (honly : declaration.patterns = [⟨matchAny, []⟩]) : build declaration settings =
    (checkDescriptors declaration.owner [] declaration.parameters).bind fun _ ↦
      ((compileRegex declaration.owner settings.regexSizeLimit anyPathSource).map (Source.static anyPathSource)).map
        (withSource declaration settings [anyPathDefinition]) := by
  have hcompiled : compileFrom declaration 0 declaration.patterns = .ok [(anyPathDefinition, [.text anyPathText])] := by
    rw [honly, compileFrom_matchAny]
  have hstatic : (join ([(anyPathDefinition, [.text anyPathText])].map Prod.snd)).static? = some anyPathSource := rfl
  cases hcheck : checkDescriptors declaration.owner [] declaration.parameters with
  | error e => rw [build_eq, hcheck]; rfl
  | ok u =>
    rw [build_of_compileFrom hcheck hcompiled, sourceOf_of_static? hstatic]
    rfl

/-- Selection with the pattern for any path alone. -/
theorem select_anyPath (hpatterns : mapping.patterns = [anyPathDefinition]) (path : String) :
    (mapping.select (joined [anyPathGroup]) path).winner =
      if '\n' ∈ path.toList.takeWhile (· != '?') then none else some anyPathDefinition := by
  have hof : List.Forall₂ IsGroupOf mapping.patterns [anyPathGroup] := hpatterns ▸ .cons ⟨_, rfl⟩ .nil
  rw [select_groups hof (by decide), hpatterns]
  have hmatch := matchAlone_anyPathGroup path
  cases halone : matchAlone anyPathGroup (normalizePath path).toList with
  | none =>
    rw [halone] at hmatch
    rw [if_pos (not_not.mp fun hnone ↦ Bool.false_ne_true (hmatch.mpr hnone))]
    simp [halone, Selection.none]
  | some t =>
    rw [halone] at hmatch
    rw [if_neg (hmatch.mp rfl)]
    simp [halone]

end Built

/-- Assumes: the pattern for any path is the only pattern of a declaration. The declaration builds if its parameters have
names of their own and known kinds, and the limit leaves room for the expression. The mapping selects the pattern for all
paths but those with a line break in front of the first question mark, which have no winner. -/
theorem matchAny_selected {declaration : Declaration} (honly : declaration.patterns = [⟨matchAny, []⟩])
    (settings : Settings) :
    ((∃ mapping, build declaration settings = .ok mapping) ↔
      checkDescriptors declaration.owner [] declaration.parameters = .ok () ∧
        (joined [anyPathGroup]).programBytes .forwards ≤ settings.regexSizeLimit ∧
        (joined [anyPathGroup]).programBytes .backwards ≤ settings.regexSizeLimit) ∧
    ∀ mapping, build declaration settings = .ok mapping → ∃ text regex, mapping.source = .static text regex ∧
      ∃ definition ∈ mapping.patterns, definition.raw = matchAny ∧ ∀ path,
        (mapping.select regex path).winner = if '\n' ∈ path.toList.takeWhile (· != '?') then none else some definition := by
  rw [build_matchAny honly, compileRegex_anyPath]
  cases checkDescriptors declaration.owner [] declaration.parameters with
  | error e =>
    refine ⟨⟨fun ⟨_, h⟩ ↦ (nomatch h), fun ⟨h, _⟩ ↦ (nomatch h)⟩, fun _ h ↦ (nomatch h)⟩
  | ok u =>
    split
    · next hfits =>
      refine ⟨⟨fun _ ↦ ⟨rfl, hfits⟩, fun _ ↦ ⟨_, rfl⟩⟩, fun mapping hmapping ↦ ?_⟩
      cases hmapping
      exact ⟨_, _, rfl, anyPathDefinition, List.mem_singleton_self _, rfl, select_anyPath rfl⟩
    · next hfits =>
      exact ⟨⟨fun ⟨_, h⟩ ↦ (nomatch h), fun ⟨_, h⟩ ↦ (hfits h).elim⟩, fun _ h ↦ (nomatch h)⟩

/-- A view for any path. -/
def anywhere : Declaration :=
  { owner := "Anywhere", parameters := [], patterns := [⟨matchAny, []⟩] }

/-- The view is found for the empty path and for line breaks in a query, but not for a path of two lines. -/
theorem anywhere_selected : ∃ mapping text regex, build anywhere {} = .ok mapping ∧ mapping.source = .static text regex ∧
    (mapping.select regex "").winner.isSome = true ∧ (mapping.select regex "//a?b=\n&?").winner.isSome = true ∧
    (mapping.select regex "a\nb").winner.isSome = false := by
  have honly : anywhere.patterns = [⟨matchAny, []⟩] := rfl
  obtain ⟨hbuild, hselect⟩ := matchAny_selected honly {}
  obtain ⟨mapping, hmapping⟩ := hbuild.mpr ⟨rfl, by decide, by decide⟩
  obtain ⟨text, regex, hstatic, definition, -, -, hwinner⟩ := hselect mapping hmapping
  refine ⟨mapping, text, regex, hmapping, hstatic, ?_, ?_, ?_⟩
  · rw [hwinner, if_neg (by decide)]
    rfl
  · rw [hwinner, if_neg (by decide)]
    rfl
  · rw [hwinner, if_pos (by decide)]
    rfl

end Mapping

end PathBinding
