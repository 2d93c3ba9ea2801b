import PathBinding.Proofs.Resolution
import PathBinding.Proofs.Session

/-!
Build errors behind a build. Once a type has its mapping, rendering fails for the template (`category_of_render`) and a
registration for the name of the parameter, and neither is a build error. A match can still end with one: the expression
that it assembles for a view is compiled then, and is rejected as the declaration would have been. That is the only way
(`build_error_iff`), so on a static mapping there is none, but with gaps one match of a view may report a build error and
the next one go through.
-/

set_option autoImplicit false
set_option relaxedAutoImplicit false

namespace PathBinding

/-! ### Rendering -/

namespace Template

mutual

theorem category_of_segment {context : Context} {inGroup : Bool} {draft : Draft} {e : Error} {segment : Segment}
    (h : Template.segment context inGroup draft segment = .error e) : e.category = .format := by
  cases segment with
  | literal text => cases h
  | placeholder name inline? =>
    cases inline? with
    | some regex =>
      cases h
      rfl
    | none =>
      rw [Template.segment] at h
      split at h
      · cases h
        rfl
      · split at h <;> cases h
  | positional index =>
    rw [Template.segment] at h
    split at h
    · cases h
    · split at h
      · cases h
      · cases h
        rfl
  | optional inner =>
    rcases bind_eq_error.mp h with h | ⟨_, -, h⟩
    · exact category_of_segments h
    · cases h

theorem category_of_segments {context : Context} {inGroup : Bool} {draft : Draft} {e : Error} {segments : List Segment}
    (h : Template.segments context inGroup draft segments = .error e) : e.category = .format := by
  cases segments with
  | nil => cases h
  | cons head rest =>
    rcases bind_eq_error.mp h with h | ⟨_, -, h⟩
    · exact category_of_segment h
    · exact category_of_segments h

end

/-- What cannot be rendered is a fault of the template or of what it is rendered with. -/
theorem category_of_render {mapping : Mapping} {view : View} {template : String} {arguments : List String}
    {settings : Settings} {e : Error} (h : render mapping view template arguments settings = .error e) : e.category = .format := by
  unfold render at h
  dsimp only at h
  split at h
  · cases h
    rfl
  · rcases bind_eq_error.mp h with h | ⟨draft, -, h⟩
    · exact category_of_segments h
    · split at h <;> cases h
      rfl

end Template

/-! ### Operations on types with a mapping -/

namespace Session

/-- Assumes: a session begins with a new registry, and behind a run some type has a mapping. Rendering and registering
report no build error then, whatever the type declares. A match reports one exactly if the expression that it assembles
for the view is rejected, and it is always the same one; on a mapping without gaps nothing is assembled. -/
theorem build_error_iff {start : Session} (hfresh : start.IsFresh) (operations : List Operation) {key : TypeKey}
    (hcached : (start.after operations).registry.isCached key = true) :
    let registry := (start.after operations).registry
    ∃ mapping, registry.mapping? key = some mapping ∧ ∀ declaration,
      (∀ view path e, (registry.matchPath key declaration view path).2.result = .error e ∧ e.isBuildError = true ↔
        e = .invalidRegex mapping.owner ∧ ∃ text, mapping.assemble? (registry.producersOf key) view = .ok (.text text) ∧
          Regex.compile? mapping.regexSizeLimit text = none) ∧
      (∀ view template arguments e, (registry.format key declaration view template arguments).result = .error e →
        e.isBuildError = false) ∧
      ∀ name producer e, (registry.setDynamicRegex key declaration name producer).result = .error e →
        e.isBuildError = false := by
  intro registry
  obtain ⟨mapping, hmapping⟩ := Option.isSome_iff_exists.mp hcached
  refine ⟨mapping, hmapping, fun declaration ↦ ?_⟩
  have hfound : (registry.mapping key declaration).result = .ok mapping :=
    congrArg Registry.Step.result (Registry.mapping_of_cached hmapping declaration)
  obtain ⟨source, hbuild⟩ := exists_build hfresh operations hfound
  refine ⟨fun view path e ↦ ?_, fun view template arguments e h ↦ ?_, fun name producer e h ↦ ?_⟩
  · rw [registry.matchPath_of_mapping hfound]
    exact Mapping.bind_isBuildError_iff hbuild path
  · rw [Registry.format, Registry.withMapping_of_mapping hfound] at h
    rw [Error.isBuildError, Template.category_of_render h]
    rfl
  · rcases registry.setDynamicRegex_cases key declaration name producer with
      ⟨_, _, -, -, -, hok, -⟩ | ⟨fault, hfault, -, hcause⟩
    · cases hok.symm.trans h
    · cases hfault.symm.trans h
      rcases hcause with hcause | hcategory
      · cases hcause.symm.trans hfound
      · rw [Error.isBuildError, hcategory]
        rfl

/-- Words that each view filters with an expression of its own. -/
def filters : Declaration where
  owner := "Filters"
  parameters := [⟨"word", .string, none, true⟩]
  patterns := [⟨":word", []⟩]

/-- One view filters with an open parenthesis and gets a build error, and the next one matches the same path. -/
theorem build_error_filters :
    let type : ViewType := ⟨.anyExcept [], true⟩
    let start : Session := ⟨{ settings := {} }, [(.declared 0, ⟨filters, type⟩)], [⟨.declared 0, [], none⟩]⟩
    let operations : List Operation := [.act 0 (.setDynamic "word" (Producer.current "filter"))]
    let view (filter : String) : View := ⟨type, [("filter", .string filter)], none⟩
    (start.after operations).registry.isCached (.declared 0) = true ∧
      ((start.after operations).registry.matchPath (.declared 0) filters (view "(") "inbox").2.result =
        .error (.invalidRegex "Filters") ∧
      (Error.invalidRegex "Filters").isBuildError = true ∧
      ((start.after operations).registry.matchPath (.declared 0) filters (view "[a-z]+") "inbox").2.result =
        .ok (.matched ":word") := by
  intro type start operations view
  have hfresh : start.IsFresh := ⟨rfl, rfl⟩
  have hcached : (start.after operations).registry.isCached (.declared 0) = true := by decide +kernel
  have hrejected : ((start.after operations).registry.mapping? (.declared 0)).any fun mapping ↦
      decide (mapping.owner = "Filters") &&
      (mapping.assemble? ((start.after operations).registry.producersOf (.declared 0)) (view "(")).toOption.any
        fun assembled ↦ assembled.text?.any fun text ↦ (Regex.compile? mapping.regexSizeLimit text).isNone := by
    decide +kernel
  have hmatched : ((start.after operations).registry.matchPath (.declared 0) filters (view "[a-z]+") "inbox").2.result.toOption =
      some (.matched ":word") := by
    decide +kernel
  obtain ⟨mapping, hmapping, hall⟩ := build_error_iff hfresh operations hcached
  obtain ⟨hmatch, -, -⟩ := hall filters
  obtain ⟨own, hown, hrejected⟩ := (Option.any_eq_true _ _).mp hrejected
  obtain ⟨howner, hrejected⟩ := Bool.and_eq_true_iff.mp hrejected
  obtain ⟨assembled, hassembled, hrejected⟩ := (Option.any_eq_true _ _).mp hrejected
  obtain ⟨text, htext, hnone⟩ := (Option.any_eq_true _ _).mp hrejected
  obtain rfl : mapping = own := Option.some.inj (hmapping.symm.trans hown)
  obtain rfl : assembled = .text text := by
    cases assembled <;> cases htext
    rfl
  have hresult := (hmatch (view "(") "inbox" (.invalidRegex "Filters")).mpr
    ⟨congrArg Error.invalidRegex (of_decide_eq_true howner).symm, text, eq_ok_of_toOption hassembled,
      Option.isNone_iff_eq_none.mp hnone⟩
  exact ⟨hcached, hresult.1, hresult.2, eq_ok_of_toOption hmatched⟩

end Session

end PathBinding
