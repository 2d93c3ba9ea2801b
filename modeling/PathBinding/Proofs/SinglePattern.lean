import PathBinding.Proofs.RoundTrip

/-!
Mappings with a single pattern. The pattern wins for a path exactly if the path in its normal form is an expansion of it
with a query behind it (`Mapping.winner_iff_expansion`). A pattern may begin with an optional group that has the first
slash in it. The normal form of a path has a slash in front in any case, so the group can be left out only where what
follows it brings a slash of its own; otherwise the group is required (`Mapping.winner_of_leading_group`).
-/

set_option autoImplicit false
set_option relaxedAutoImplicit false

namespace PathBinding

open Regex

namespace Mapping

variable {declaration : Declaration} {settings : Settings} {mapping : Mapping} {text : String} {regex : Regex}
  {pattern : PatternDeclaration}

/-- Assumes: the only pattern of a static mapping has no query, its literals are plain, and its expressions can be held
together and are without conditions on positions. It wins for a path if and only if the path in its normal form is an
expansion of it with a question mark and any query behind it. -/
theorem winner_iff_expansion (hbuild : build declaration settings = .ok mapping)
    (hstatic : mapping.source = .static text regex) {path : List Segment} (honly : declaration.patterns = [pattern])
    (hdeclares : declaration.Declares 0 pattern path []) (hplain : Fragment.IsPlainPath path)
    (hpath : ∀ p ∈ Segment.placeholdersAll path, ∃ body, held? (declaration.pathRegex p.1 p.2) = some body ∧
      body.lookFree = true) (request : String) :
    (mapping.select regex request).winner.isSome ↔ ∃ e q, (normalizePath request).toList = e ++ '?' :: q ∧
      Segment.ExpandsAll (fun name inline? ↦ FullyMatches (declaration.pathRegex name inline?)) path e := by
  let context : Fragment.Context := ⟨declaration, pattern.pattern, 0⟩
  let r := Fragment.fragmentRegex context (fun _ ↦ "") path []
  obtain ⟨hregexes, -⟩ := regexOf_of_static hbuild hstatic hdeclares fun _ ↦ ""
  obtain ⟨hself, hfree, hmeans⟩ := Fragment.means_of_held context hregexes hpath
  obtain ⟨⟨definition, pieces⟩, -, hok, hpatterns, rfl, hof, hnodup⟩ :=
    group_of_single hbuild hstatic honly hdeclares hplain hself
  obtain ⟨own, _, _, _, hparse, hsegments, -⟩ := Fragment.compile_ok (fun _ ↦ "") hok
  cases hdeclares.parsed.symm.trans hparse
  have halone : (mapping.select (joined [r]) request).winner.isSome ↔
      (matchAlone r (normalizePath request).toList).isSome := by
    constructor
    · intro hwinner
      obtain ⟨own, hwinner⟩ := Option.isSome_iff_exists.mp hwinner
      obtain ⟨i, t, -, ht, -⟩ := first_of_select hof hnodup hwinner
      cases i with
      | zero => exact Option.isSome_iff_exists.mpr ⟨t, ht⟩
      | succ i => cases ht
    · intro hmatch
      obtain ⟨t, ht⟩ := Option.isSome_iff_exists.mp hmatch
      rw [select_of_single hpatterns hof hnodup ht]
      rfl
  rw [halone, matchAlone, search_anchored_isSome]
  refine (Fragment.accepts_query (Fragment.lookFree_segments hfree) _ _ (getLast?_normalizePath request)).trans ?_
  refine exists₂_congr fun e q ↦ and_congr_right fun _ ↦ ?_
  exact (Fragment.accepts_segments hsegments hfree e).trans (Segment.expandsAll_congr hmeans e)

/-! ### A group in front -/

/-- Assumes: moreover, the pattern begins with an optional group, so that no slash is put in front of it. It wins for a path
if the group and what follows it expand to a front of the path in its normal form, or else what follows the group does so
alone. The normal form has a slash in front, so a path without one is matched past the group only if what follows the group
expands to the path with a slash in front, and not if it expands to the path itself. If what follows the group expands to
no text with a slash in front, the group is required. -/
theorem winner_of_leading_group (hbuild : build declaration settings = .ok mapping)
    (hstatic : mapping.source = .static text regex) {inner rest : List Segment} (honly : declaration.patterns = [pattern])
    (hdeclares : declaration.Declares 0 pattern (.optional inner :: rest) [])
    (hplain : Fragment.IsPlainPath (.optional inner :: rest))
    (hpath : ∀ p ∈ Segment.placeholdersAll (.optional inner :: rest), ∃ body,
      held? (declaration.pathRegex p.1 p.2) = some body ∧ body.lookFree = true) :
    let fits : String → Option String → List Char → Prop := fun name inline? ↦ FullyMatches (declaration.pathRegex name inline?)
    let present (e : List Char) : Prop := ∃ u v, e = u ++ v ∧ Segment.ExpandsAll fits inner u ∧ Segment.ExpandsAll fits rest v
    (∀ request, (mapping.select regex request).winner.isSome ↔ ∃ e q, (normalizePath request).toList = e ++ '?' :: q ∧
      (present e ∨ Segment.ExpandsAll fits rest e)) ∧
    (∀ r, r.head? ≠ some '/' → '?' ∉ r → ((mapping.select regex (.ofList r)).winner.isSome ↔
      present ('/' :: r) ∨ Segment.ExpandsAll fits rest ('/' :: r))) ∧
    ((∀ r, Segment.ExpandsAll fits rest r → r.head? ≠ some '/') → ∀ request,
      ((mapping.select regex request).winner.isSome ↔ ∃ e q, (normalizePath request).toList = e ++ '?' :: q ∧ present e)) := by
  intro fits present
  have hexpands (e : List Char) : Segment.ExpandsAll fits (.optional inner :: rest) e ↔
      present e ∨ Segment.ExpandsAll fits rest e := by
    constructor
    · rintro ⟨u, v, rfl, rfl | hu, hv⟩
      · exact .inr hv
      · exact .inl ⟨u, v, rfl, hu, hv⟩
    · rintro (⟨u, v, rfl, hu, hv⟩ | hv)
      · exact ⟨u, v, rfl, .inr hu, hv⟩
      · exact ⟨[], e, rfl, .inl rfl, hv⟩
  have hwins (request : String) : (mapping.select regex request).winner.isSome ↔
      ∃ e q, (normalizePath request).toList = e ++ '?' :: q ∧ (present e ∨ Segment.ExpandsAll fits rest e) := by
    simp only [← hexpands]
    exact winner_iff_expansion hbuild hstatic honly hdeclares hplain hpath request
  refine ⟨hwins, fun r hslash hmark ↦ ?_, fun hrest request ↦ ?_⟩
  · have hmark' : '?' ∉ '/' :: r := fun hin ↦ (List.mem_cons.mp hin).elim (by decide) hmark
    have hnormal := normalizePath_rendered rfl hslash hmark' (.inr rfl : '/' :: r = r ∨ '/' :: r = '/' :: r)
    rw [hwins]
    constructor
    · rintro ⟨e, q, he, hexpansion⟩
      rwa [eq_of_one_mark hmark' (by decide) (hnormal.symm.trans he)]
    · exact fun hexpansion ↦ ⟨'/' :: r, ['&'], hnormal, hexpansion⟩
  · refine (hwins request).trans (exists₂_congr fun e q ↦ and_congr_right fun he ↦ or_iff_left fun hexpansion ↦ ?_)
    obtain ⟨r, rfl, -⟩ := front_slash he
    exact hrest _ hexpansion rfl

/-- A start page in some language. -/
def startPage : Declaration :=
  { owner := "Start", parameters := [⟨"lang", .string, none, false⟩], patterns := [⟨"[/:lang/]home", []⟩] }

/-- The page is found by its language only, although nothing but its name follows the group. -/
theorem startPage_needs_language : ∃ found, staticBuild? startPage {} = some found ∧
    (found.1.select found.2 "en/home").winner.isSome = true ∧ (found.1.select found.2 "home").winner.isSome = false ∧
    let fits : String → Option String → List Char → Prop := fun name inline? ↦ FullyMatches (startPage.pathRegex name inline?)
    Segment.ExpandsAll fits [.literal "home"] "home".toList ∧
    ∀ request, (found.1.select found.2 request).winner.isSome ↔
      ∃ e q, (normalizePath request).toList = e ++ '?' :: q ∧ ∃ u v, e = u ++ v ∧
        Segment.ExpandsAll fits [.literal "/", .placeholder "lang" none, .literal "/"] u ∧
        Segment.ExpandsAll fits [.literal "home"] v := by
  let inner : List Segment := [.literal "/", .placeholder "lang" none, .literal "/"]
  let rest : List Segment := [.literal "home"]
  have hselect : (staticBuild? startPage {}).any fun found ↦
      decide ((found.1.select found.2 "en/home").winner.isSome = true ∧
        (found.1.select found.2 "home").winner.isSome = false) := by
    decide +kernel
  obtain ⟨found, hfound, hselect⟩ := (Option.any_eq_true _ _).mp hselect
  obtain ⟨hpresent, habsent⟩ := of_decide_eq_true hselect
  obtain ⟨text, hbuild, hstatic⟩ := staticBuild?_eq_some hfound
  have hdeclares : startPage.Declares 0 ⟨"[/:lang/]home", []⟩ (.optional inner :: rest) [] := ⟨rfl, rfl, rfl⟩
  have hplain : Fragment.IsPlainPath (.optional inner :: rest) := by
    unfold Fragment.IsPlainPath
    decide +kernel
  have hpath : ∀ p ∈ Segment.placeholdersAll (.optional inner :: rest),
      (held? (startPage.pathRegex p.1 p.2)).any (·.lookFree) = true := by
    decide +kernel
  obtain ⟨-, -, hrequired⟩ := winner_of_leading_group hbuild hstatic rfl hdeclares hplain fun p hp ↦
    (Option.any_eq_true _ _).mp (hpath p hp)
  refine ⟨found, hfound, hpresent, habsent, ⟨_, [], rfl, rfl, rfl⟩, hrequired ?_⟩
  rintro r ⟨u, v, rfl, rfl, rfl⟩
  decide

end Mapping

end PathBinding
