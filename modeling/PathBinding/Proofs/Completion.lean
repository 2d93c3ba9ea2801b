import PathBinding.Proofs.Binding
import PathBinding.Proofs.Rows

/-!
Mappings completed for a view. With gaps or without, the expression that a mapping matches with is read from the joined
fragments once their gaps are filled with what is resolved for the view (`Completes.compiled`). If each fragment writes a
group, the expression is made of these groups (`groups_of_writes`); with plain literals and expressions that can be held
together, the groups are what the patterns mean (`groups_of_plain`).
-/

set_option autoImplicit false
set_option relaxedAutoImplicit false

namespace PathBinding

open Regex

section Declares

variable {declaration : Declaration} {i : Nat} {pattern : PatternDeclaration} {path : List Segment}
  {parts : List Fragment.QueryPart}

/-- Pattern number `i` of a declaration, with its path and its query parts. -/
structure Declaration.Declares (declaration : Declaration) (i : Nat) (pattern : PatternDeclaration) (path : List Segment)
    (parts : List Fragment.QueryPart) : Prop where
  declared : declaration.patterns[i]? = some pattern
  parsed : Segment.parse (Fragment.rooted pattern.pattern) = .ok path
  queries : pattern.query.map Fragment.queryPart? = parts.map some

theorem Declaration.Declares.unique (h : declaration.Declares i pattern path parts) {path' : List Segment}
    {parts' : List Fragment.QueryPart} (h' : declaration.Declares i pattern path' parts') : path' = path ∧ parts' = parts :=
  ⟨Except.ok.inj (h'.parsed.symm.trans h.parsed),
    List.map_injective_iff.mpr (Option.some_injective _) (h'.queries.symm.trans h.queries)⟩

/-- All that a declaration with a single pattern declares. -/
theorem Declaration.Declares.eq_of_single (h : declaration.Declares 0 pattern path parts)
    (honly : declaration.patterns = [pattern]) {own : PatternDeclaration} {path' : List Segment}
    {parts' : List Fragment.QueryPart} (h' : declaration.Declares i own path' parts') :
    i = 0 ∧ own = pattern ∧ path' = path ∧ parts' = parts := by
  have hdeclared := h'.declared
  rw [honly] at hdeclared
  cases i with
  | succ i => cases hdeclared
  | zero =>
    cases hdeclared
    exact ⟨rfl, rfl, h.unique h'⟩

/-- What the pattern is compiled to. -/
theorem Declaration.Declares.compiled (h : declaration.Declares i pattern path parts) {definition : Definition}
    {pieces : Pieces} (hok : Fragment.compile declaration pattern i = .ok (definition, pieces)) :
    definition.parameters = (Segment.placeholdersAll path).map Prod.fst ++ parts.map Fragment.QueryPart.name ∧
      ∀ filling, pieces.fill filling = Fragment.fragmentText ⟨declaration, pattern.pattern, i⟩ filling path parts := by
  have hall (filling : String → String) := Fragment.compile_ok filling hok
  refine ⟨?_, fun filling ↦ ?_⟩
  · obtain ⟨path', parts', _, _, hpath, -, hparts, -, hparameters, -⟩ := hall fun _ ↦ ""
    obtain ⟨rfl, rfl⟩ := h.unique ⟨h.declared, hpath, hparts⟩
    exact hparameters
  · obtain ⟨path', parts', _, _, hpath, -, hparts, -, -, -, hfill⟩ := hall filling
    obtain ⟨rfl, rfl⟩ := h.unique ⟨h.declared, hpath, hparts⟩
    exact hfill

/-- The pattern that a fragment has been compiled from declares something. -/
theorem exists_declares (hpattern : declaration.patterns[i]? = some pattern) {c : Definition × Pieces}
    (hok : Fragment.compile declaration pattern i = .ok c) : ∃ path parts, declaration.Declares i pattern path parts := by
  obtain ⟨path, parts, _, _, hpath, -, hparts, -⟩ := Fragment.compile_ok (fun _ ↦ "") hok
  exact ⟨path, parts, hpattern, hpath, hparts⟩

end Declares

namespace Mapping

variable {declaration : Declaration} {settings : Settings} {mapping : Mapping} {producers : Producers} {view : View}
  {regex : Regex}

/-- What fills the gaps of a mapping for a view. -/
def filling (mapping : Mapping) (producers : Producers) (view : View) (name : String) : String :=
  (mapping.resolve producers view name).toOption.getD ""

/-- The mapping of a declaration, and the expression that it matches with for a view. -/
structure Completes (declaration : Declaration) (settings : Settings) (mapping : Mapping) (producers : Producers)
    (view : View) (regex : Regex) : Prop where
  build : build declaration settings = .ok mapping
  assembled : ∃ assembled, mapping.assemble? producers view = .ok assembled ∧ mapping.regexOf assembled = .ok regex

/-- The expression is read from the joined fragments with their gaps filled. -/
theorem Completes.compiled (h : Completes declaration settings mapping producers view regex) :
    ∃ compiled, compileFrom declaration 0 declaration.patterns = .ok compiled ∧
      mapping.patterns = compiled.map Prod.fst ∧
      parse? ((join (compiled.map Prod.snd)).fill (mapping.filling producers view)).toList = some regex := by
  obtain ⟨compiled, hcompiled, hpatterns, -, hsource⟩ := build_ok h.build
  obtain ⟨assembled, hassemble, hregex⟩ := h.assembled
  refine ⟨compiled, hcompiled, hpatterns, ?_⟩
  unfold assemble? at hassemble
  rcases hsource with hsource | ⟨static, own, hsource, hjoin, hparse⟩
  · rw [hsource] at hassemble
    dsimp only at hassemble
    cases hfilled : (join (compiled.map Prod.snd)).assemble (mapping.resolve producers view) with
    | error e =>
      rw [hfilled] at hassemble
      cases hassemble
    | ok filled =>
      rw [hfilled] at hassemble
      cases hassemble
      have hfill : (join (compiled.map Prod.snd)).fill (mapping.filling producers view) = filled :=
        Pieces.assemble_eq hfilled
      rw [hfill]
      exact parse?_of_compileRegex hregex
  · rw [hsource] at hassemble
    cases hassemble
    cases hregex
    rw [Pieces.static?_eq (mapping.filling producers view) hjoin]
    exact hparse

/-- A static mapping matches with its own expression for each view. -/
theorem completes_of_static {text : String} (hbuild : Mapping.build declaration settings = .ok mapping)
    (hstatic : mapping.source = .static text regex) (producers : Producers) (view : View) :
    Completes declaration settings mapping producers view regex :=
  ⟨hbuild, _, assemble?_of_static hstatic producers view, rfl⟩

/-- What the expression of a static mapping is read from has no gaps to fill. -/
theorem compiled_of_static {text : String} (hbuild : Mapping.build declaration settings = .ok mapping)
    (hstatic : mapping.source = .static text regex) (filling : String → String) :
    ∃ compiled, compileFrom declaration 0 declaration.patterns = .ok compiled ∧
      mapping.patterns = compiled.map Prod.fst ∧
      parse? ((join (compiled.map Prod.snd)).fill filling).toList = some regex := by
  obtain ⟨compiled, hcompiled, hpatterns, -, hsource⟩ := build_ok hbuild
  rw [hstatic] at hsource
  obtain ⟨_, _, hown, hjoin, hparse⟩ := hsource.resolve_left nofun
  cases hown
  refine ⟨compiled, hcompiled, hpatterns, ?_⟩
  rw [Pieces.static?_eq filling hjoin]
  exact hparse

/-- The fragments of a static mapping have no gaps to fill. -/
theorem standaloneWith_of_build {text : String} (hbuild : Mapping.build declaration settings = .ok mapping)
    (hstatic : mapping.source = .static text regex) (hstandalone : declaration.Standalone) (filling : String → String) :
    declaration.StandaloneWith filling := by
  obtain ⟨compiled, hcompiled, -, -, hsource⟩ := build_ok hbuild
  rw [hstatic] at hsource
  obtain ⟨_, _, -, hjoin, -⟩ := hsource.resolve_left nofun
  exact (standaloneWith_of_static hcompiled hjoin hstandalone filling).1

/-- Fragments that write groups join to an expression of these groups. -/
theorem groups_of_writes {filling : String → String} {compiled : List (Definition × Pieces)}
    {R : Definition × Pieces → Regex → Prop}
    (hparse : parse? ((join (compiled.map Prod.snd)).fill filling).toList = some regex)
    (hexists : ∀ c ∈ compiled, ∃ r, R c r)
    (hR : ∀ c ∈ compiled, ∀ r, R c r → IsGroupOf c.1 r ∧ Writes (c.2.fill filling).toList [r]) :
    ∃ groups, List.Forall₂ R compiled groups ∧ List.Forall₂ IsGroupOf (compiled.map Prod.fst) groups ∧
      regex = joined groups ∧ (groups.flatMap groupNames).Nodup := by
  obtain ⟨groups, hgroups⟩ := exists_forall₂ hexists
  have hall : List.Forall₂ (fun c r ↦ IsGroupOf c.1 r ∧ Writes (c.2.fill filling).toList [r]) compiled groups := by
    rw [List.forall₂_iff_zip] at hgroups ⊢
    exact ⟨hgroups.1, fun {c r} hmem ↦ hR c (List.of_mem_zip hmem).1 r (hgroups.2 hmem)⟩
  have hof : List.Forall₂ IsGroupOf (compiled.map Prod.fst) groups := by
    rw [List.forall₂_map_left_iff]
    exact hall.imp fun _ _ h ↦ h.1
  have hwrites : List.Forall₂ (fun x r ↦ Writes x [r]) (compiled.map fun c ↦ (c.2.fill filling).toList) groups := by
    rw [List.forall₂_map_left_iff]
    exact hall.imp fun _ _ h ↦ h.2
  rw [fill_join, List.map_map] at hparse
  have hnamed : ∀ r ∈ groups, ∃ name body, r = .group name body := by
    intro r hr
    obtain ⟨i, hi⟩ := List.mem_iff_getElem?.mp hr
    have hrel := rel_getElem? hof i
    rw [hi] at hrel
    generalize (compiled.map Prod.fst)[i]? = x at hrel
    cases hrel with
    | some hgroup =>
      obtain ⟨body, hbody⟩ := hgroup
      exact ⟨_, body, hbody⟩
  have hregex : regex = joined groups := by
    by_cases hne : groups = []
    · subst hne
      cases hgroups
      exact (parse?_groups .nil hparse).1
    · exact parse?_writes hwrites hnamed hne hparse
  exact ⟨groups, hgroups, hof, hregex, nodup_joined (hregex ▸ hparse)⟩

/-- The expression of a compiled pattern is put together from its segments and its query parts. -/
def IsFragmentOf (declaration : Declaration) (filling : String → String) (definition : Definition) (r : Regex) : Prop :=
  ∃ pattern path parts, declaration.patterns[definition.index]? = some pattern ∧
    Segment.parse (Fragment.rooted pattern.pattern) = .ok path ∧ pattern.query.map Fragment.queryPart? = parts.map some ∧
    r = Fragment.fragmentRegex ⟨declaration, pattern.pattern, definition.index⟩ filling path parts

/-- If all literals are plain and all expressions can be held together, the expression of a mapping is made of what its
patterns mean. -/
theorem groups_of_plain {filling : String → String} {compiled : List (Definition × Pieces)}
    (hcompiled : compileFrom declaration 0 declaration.patterns = .ok compiled)
    (hparse : parse? ((join (compiled.map Prod.snd)).fill filling).toList = some regex)
    (hplain : ∀ (i : Nat) (pattern : PatternDeclaration) (path : List Segment) (parts : List Fragment.QueryPart),
      declaration.Declares i pattern path parts → Fragment.IsPlainPath path ∧
        Fragment.PathSelfContained ⟨declaration, pattern.pattern, i⟩ filling path ∧
        Fragment.QuerySelfContained ⟨declaration, pattern.pattern, i⟩ filling parts) :
    ∃ groups, List.Forall₂ (fun c r ↦ IsFragmentOf declaration filling c.1 r) compiled groups ∧
      List.Forall₂ IsGroupOf (compiled.map Prod.fst) groups ∧ regex = joined groups ∧
      (groups.flatMap groupNames).Nodup := by
  have hok : ∀ c ∈ compiled, ∃ pattern, declaration.patterns[c.1.index]? = some pattern ∧
      Fragment.compile declaration pattern c.1.index = .ok (c.1, c.2) := by
    intro c hc
    obtain ⟨i, hi⟩ := List.mem_iff_getElem?.mp hc
    have hcompile := compile_of_compileFrom hcompiled hi
    rw [Nat.zero_add] at hcompile
    rw [index_of_compileFrom hcompiled hi]
    exact hcompile
  refine groups_of_writes hparse (fun c hc ↦ ?_) fun c hc r hr ↦ ?_
  · obtain ⟨pattern, hpattern, hcompile⟩ := hok c hc
    obtain ⟨path, parts, hdeclares⟩ := exists_declares hpattern hcompile
    exact ⟨_, pattern, path, parts, hpattern, hdeclares.parsed, hdeclares.queries, rfl⟩
  · obtain ⟨pattern, hpattern, hcompile⟩ := hok c hc
    obtain ⟨other, path, parts, hother, hpath, hparts, rfl⟩ := hr
    cases hpattern.symm.trans hother
    have hdeclares : declaration.Declares c.1.index pattern path parts := ⟨hpattern, hpath, hparts⟩
    obtain ⟨hliterals, hself, hquery⟩ := hplain c.1.index pattern path parts hdeclares
    refine ⟨⟨_, rfl⟩, ?_⟩
    rw [(hdeclares.compiled hcompile).2 filling]
    exact Fragment.writes_fragment hliterals (Segment.named_of_parse hpath) (Fragment.isName_of_mem hparts) hself hquery

theorem group_of_fragments {filling : String → String} {compiled : List (Definition × Pieces)} {groups : List Regex}
    (hcompiled : compileFrom declaration 0 declaration.patterns = .ok compiled)
    (hgroups : List.Forall₂ (fun c r ↦ IsFragmentOf declaration filling c.1 r) compiled groups) {i : Nat}
    {pattern : PatternDeclaration} {path : List Segment} {parts : List Fragment.QueryPart}
    (hdeclares : declaration.Declares i pattern path parts) :
    groups[i]? = some (Fragment.fragmentRegex ⟨declaration, pattern.pattern, i⟩ filling path parts) := by
  obtain ⟨c, hc, -⟩ := (compileFrom_ok hcompiled).2 i pattern hdeclares.declared
  obtain ⟨r, hr, hfragment⟩ := exists_of_rel (rel_getElem? hgroups i) hc
  obtain ⟨own, path', parts', hown, hpath, hparts, rfl⟩ := hfragment
  rw [index_of_compileFrom hcompiled hc] at hown hr
  cases hdeclares.declared.symm.trans hown
  obtain ⟨rfl, rfl⟩ := hdeclares.unique ⟨hown, hpath, hparts⟩
  exact hr

end Mapping

end PathBinding
