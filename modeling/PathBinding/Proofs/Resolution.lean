import PathBinding.Proofs.Assembly

/-!
The gaps of a mapping and their producers. A mapping has the gaps that the occurrences in its patterns leave, in their
order (`gaps_of_build`). All parameters are of kinds with expressions to fall back to, so a gap is filled exactly if its
parameter has a producer (`resolve_of_unregistered`, `resolve_of_registered`). A match therefore misses a producer exactly
if some gap has none, and the first such gap is reported (`bind_noDynamicRegex_iff`); it reports a fault of a declaration
exactly if the expression assembled for the view is rejected (`bind_isBuildError_iff`).
-/

set_option autoImplicit false
set_option relaxedAutoImplicit false

namespace PathBinding

open Fragment

/-- The gaps that the patterns of a declaration leave, pattern by pattern. -/
def Declaration.gaps (declaration : Declaration) : List String :=
  gapsOf declaration (declaration.patterns.flatMap occurrences)

namespace Mapping

/-- The gaps of a mapping, which are filled at each match. -/
def gaps (mapping : Mapping) : List String :=
  match mapping.source with
  | .static .. => []
  | .dynamic pieces => pieces.slots

variable {declaration : Declaration} {settings : Settings} {mapping : Mapping} {producers : Producers} {view : View}
  {name : String}

theorem gaps_of_build (hbuild : build declaration settings = .ok mapping) : mapping.gaps = declaration.gaps := by
  obtain ⟨compiled, hcompiled, -, -, hsource⟩ := build_ok hbuild
  have hslots : (join (compiled.map Prod.snd)).slots = declaration.gaps := slots_of_compileFrom hcompiled
  unfold gaps
  rcases hsource with hsource | ⟨text, regex, hsource, hstatic, -⟩
  · rw [hsource]
    exact hslots
  · rw [hsource, ← hslots, Pieces.slots_of_static? hstatic]

theorem isDynamic_of_mem_gaps (hbuild : build declaration settings = .ok mapping) (h : name ∈ mapping.gaps) :
    IsDynamic declaration name :=
  isDynamic_of_mem_gapsOf (gaps_of_build hbuild ▸ h)

/-! ### Gaps with a producer, and gaps without -/

theorem resolve_of_unregistered (mapping : Mapping) (h : producers.lookup name = none) (view : View) :
    mapping.resolve producers view name = .error (.noDynamicRegex name mapping.owner) := by
  unfold resolve
  rw [h]
  cases mapping.find? name <;> rfl

theorem fallbackRegex_of_build (hbuild : build declaration settings = .ok mapping) {descriptor : Descriptor}
    (hmem : descriptor ∈ declaration.parameters) (owner : String) :
    ∃ regex, descriptor.fallbackRegex owner = .ok regex := by
  obtain ⟨hcheck, -⟩ := build_parts hbuild
  obtain ⟨default, hdefault⟩ := defaultRegex_of_checkDescriptors hcheck descriptor hmem
  unfold Descriptor.fallbackRegex Kind.requireDefaultRegex
  rw [hdefault]
  cases descriptor.regex with
  | none => exact ⟨default, rfl⟩
  | some regex => exact ⟨regex, rfl⟩

/-- A producer fills its gap, with an expression of its own or with the one to fall back to. -/
theorem resolve_of_registered (hbuild : build declaration settings = .ok mapping) (hname : name ∈ mapping.gaps)
    {producer : Producer} (h : producers.lookup name = some producer) (view : View) :
    ∃ text, mapping.resolve producers view name = .ok text := by
  obtain ⟨descriptor, hfind, -⟩ := isDynamic_of_mem_gaps hbuild hname
  rw [resolve_of_producer hbuild hfind h]
  cases producer view with
  | some regex => exact ⟨regex, rfl⟩
  | none => exact fallbackRegex_of_build hbuild (List.mem_of_find?_eq_some hfind) declaration.owner

theorem resolve_eq_ok_iff (hbuild : build declaration settings = .ok mapping) (hname : name ∈ mapping.gaps) :
    (∃ text, mapping.resolve producers view name = .ok text) ↔ (producers.lookup name).isNone = false := by
  cases hproducer : producers.lookup name with
  | none =>
    rw [resolve_of_unregistered mapping hproducer]
    exact iff_of_false nofun nofun
  | some producer => exact iff_of_true (resolve_of_registered hbuild hname hproducer view) rfl

theorem resolve_eq_error_iff (hbuild : build declaration settings = .ok mapping) (hname : name ∈ mapping.gaps)
    {e : Error} : mapping.resolve producers view name = .error e ↔
      (producers.lookup name).isNone = true ∧ e = .noDynamicRegex name mapping.owner := by
  cases hproducer : producers.lookup name with
  | none =>
    rw [resolve_of_unregistered mapping hproducer, Except.error.injEq, eq_comm]
    exact (and_iff_right rfl).symm
  | some producer =>
    obtain ⟨text, htext⟩ := resolve_of_registered hbuild hname hproducer view
    rw [htext]
    exact iff_of_false nofun nofun

/-- The first gap without a producer. -/
def missing? (mapping : Mapping) (producers : Producers) : Option String :=
  mapping.gaps.find? fun name ↦ (producers.lookup name).isNone

theorem missing?_eq_some_iff : mapping.missing? producers = some name ↔ ∃ before after,
    mapping.gaps = before ++ name :: after ∧ (∀ other ∈ before, (producers.lookup other).isNone = false) ∧
      (producers.lookup name).isNone = true := by
  rw [missing?, List.find?_eq_some_iff_append]
  simp only [Bool.not_eq_true']
  constructor
  · rintro ⟨hname, before, after, hgaps, hbefore⟩
    exact ⟨before, after, hgaps, hbefore, hname⟩
  · rintro ⟨before, after, hgaps, hbefore, hname⟩
    exact ⟨hname, before, after, hgaps, hbefore⟩

/-- An expression cannot be assembled exactly if some gap has no producer. -/
theorem assemble?_eq_error_iff (hbuild : build declaration settings = .ok mapping) {e : Error} :
    mapping.assemble? producers view = .error e ↔
      ∃ name, mapping.missing? producers = some name ∧ e = .noDynamicRegex name mapping.owner := by
  cases hsource : mapping.source with
  | static text regex =>
    have hgaps : mapping.gaps = [] := by rw [gaps, hsource]
    have hnone : mapping.missing? producers = none := by rw [missing?, hgaps, List.find?_nil]
    rw [assemble?, hsource, hnone]
    exact iff_of_false nofun nofun
  | dynamic pieces =>
    have hgaps : mapping.gaps = pieces.slots := by rw [gaps, hsource]
    have hassembled : mapping.assemble? producers view = .error e ↔
        pieces.assemble (mapping.resolve producers view) = .error e := by
      unfold assemble?
      rw [hsource]
      dsimp only
      cases pieces.assemble (mapping.resolve producers view) <;> simp [Except.map]
    simp only [hassembled, Pieces.assemble_eq_error_iff, missing?_eq_some_iff, ← hgaps]
    constructor
    · rintro ⟨before, name, after, hsplit, hbefore, hname⟩
      have hmem : ∀ other ∈ before, other ∈ mapping.gaps := fun _ h ↦ hsplit ▸ List.mem_append_left _ h
      have hown : name ∈ mapping.gaps := hsplit ▸ List.mem_append_right _ List.mem_cons_self
      obtain ⟨hnone, he⟩ := (resolve_eq_error_iff hbuild hown).mp hname
      exact ⟨name, ⟨before, after, hsplit, fun other h ↦ (resolve_eq_ok_iff hbuild (hmem other h)).mp (hbefore other h),
        hnone⟩, he⟩
    · rintro ⟨name, ⟨before, after, hsplit, hbefore, hnone⟩, he⟩
      have hmem : ∀ other ∈ before, other ∈ mapping.gaps := fun _ h ↦ hsplit ▸ List.mem_append_left _ h
      have hown : name ∈ mapping.gaps := hsplit ▸ List.mem_append_right _ List.mem_cons_self
      exact ⟨before, name, after, hsplit, fun other h ↦ (resolve_eq_ok_iff hbuild (hmem other h)).mpr (hbefore other h),
        (resolve_eq_error_iff hbuild hown).mpr ⟨hnone, he⟩⟩

/-- An expression that has been assembled, or needs not be, is rejected exactly if the engine does not compile it. -/
theorem regexOf_eq_error_iff {assembled : Assembly} (hassembled : mapping.assemble? producers view = .ok assembled)
    {e : Error} : mapping.regexOf assembled = .error e ↔ e = .invalidRegex mapping.owner ∧
      ∃ text, assembled = .text text ∧ Regex.compile? mapping.regexSizeLimit text = none := by
  cases hsource : mapping.source with
  | static text regex =>
    rw [assemble?, hsource] at hassembled
    cases hassembled
    exact iff_of_false nofun fun ⟨_, _, h, _⟩ ↦ nomatch h
  | dynamic pieces =>
    rw [assemble?, hsource] at hassembled
    dsimp only at hassembled
    cases htext : pieces.assemble (mapping.resolve producers view) with
    | error fault =>
      rw [htext] at hassembled
      cases hassembled
    | ok text =>
      rw [htext] at hassembled
      cases hassembled
      rw [regexOf, compileRegex]
      cases hcompile : Regex.compile? mapping.regexSizeLimit text with
      | some regex => exact iff_of_false nofun (by rintro ⟨-, _, ⟨⟩, h⟩; cases hcompile.symm.trans h)
      | none =>
        constructor
        · rintro ⟨⟩
          exact ⟨rfl, text, rfl, hcompile⟩
        · rintro ⟨rfl, -⟩
          rfl

/-! ### Matches that fail in front of a selection -/

/-- A match misses a producer exactly if some gap has none, and then that of the first such gap. -/
theorem bind_noDynamicRegex_iff (hbuild : build declaration settings = .ok mapping) (path parameter owner : String) :
    (mapping.bind producers view path).result = .error (.noDynamicRegex parameter owner) ↔
      owner = mapping.owner ∧ mapping.missing? producers = some parameter := by
  have hunresolved : mapping.assemble? producers view = .error (.noDynamicRegex parameter owner) ↔
      owner = mapping.owner ∧ mapping.missing? producers = some parameter := by
    rw [assemble?_eq_error_iff hbuild]
    constructor
    · rintro ⟨name, hname, h⟩
      obtain ⟨rfl, rfl⟩ := Error.noDynamicRegex.inj h
      exact ⟨rfl, hname⟩
    · rintro ⟨rfl, hname⟩
      exact ⟨parameter, hname, rfl⟩
  rw [← hunresolved]
  cases hassembled : mapping.assemble? producers view with
  | error e =>
    rw [bind_of_unresolved hassembled, Except.error.injEq, Except.error.injEq]
  | ok assembled =>
    refine iff_of_false ?_ nofun
    cases hregex : mapping.regexOf assembled with
    | error e =>
      rw [bind_of_rejected hassembled hregex]
      rintro ⟨⟩
      cases ((regexOf_eq_error_iff hassembled).mp hregex).1
    | ok regex =>
      rw [bind_of_regexOf hassembled hregex]
      dsimp only
      intro h
      rcases isRefusal_apply h with h | h <;> cases h

/-- A match reports a fault of a declaration exactly if an expression has been assembled that the engine rejects. -/
theorem bind_isBuildError_iff (hbuild : build declaration settings = .ok mapping) (path : String) {e : Error} :
    (mapping.bind producers view path).result = .error e ∧ e.isBuildError = true ↔ e = .invalidRegex mapping.owner ∧
      ∃ text, mapping.assemble? producers view = .ok (.text text) ∧
        Regex.compile? mapping.regexSizeLimit text = none := by
  cases hassembled : mapping.assemble? producers view with
  | error fault =>
    rw [bind_of_unresolved hassembled]
    refine iff_of_false ?_ nofun
    rintro ⟨⟨⟩, hcategory⟩
    obtain ⟨name, -, rfl⟩ := (assemble?_eq_error_iff hbuild).mp hassembled
    cases hcategory
  | ok assembled =>
    simp only [Except.ok.injEq]
    rw [← regexOf_eq_error_iff hassembled]
    cases hregex : mapping.regexOf assembled with
    | error fault =>
      rw [bind_of_rejected hassembled hregex, Except.error.injEq, Except.error.injEq]
      refine and_iff_left_of_imp ?_
      rintro rfl
      rw [((regexOf_eq_error_iff hassembled).mp hregex).1]
      rfl
    | ok regex =>
      rw [bind_of_regexOf hassembled hregex]
      dsimp only
      refine iff_of_false ?_ nofun
      rintro ⟨h, hcategory⟩
      cases (isRefusal_apply h).isBuildError.symm.trans hcategory

end Mapping

end PathBinding
