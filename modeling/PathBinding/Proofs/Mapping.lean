import PathBinding.Mapping
import PathBinding.Proofs.Fragment

/-!
How the mapping of a declaration is put together. Each pattern is compiled under its own number (`compileFrom_ok`), the
texts of the fragments stand between bars and anchors (`fill_join`), and the mapping keeps the definitions in their order
(`build_ok`).
-/

set_option autoImplicit false
set_option relaxedAutoImplicit false

namespace PathBinding

/-- What a parameter is, apart from its expression. -/
def Descriptor.shape (descriptor : Descriptor) : String × Kind :=
  (descriptor.name, descriptor.kind)

namespace Mapping

variable {declaration : Declaration} {settings : Settings} {mapping : Mapping}

/-- Patterns are compiled in their order, each under its own number. -/
theorem compileFrom_ok {index : Nat} {patterns : List PatternDeclaration} {compiled : List (Definition × Pieces)}
    (h : compileFrom declaration index patterns = .ok compiled) :
    compiled.length = patterns.length ∧ ∀ (i : Nat) (pattern : PatternDeclaration), patterns[i]? = some pattern →
      ∃ c, compiled[i]? = some c ∧ Fragment.compile declaration pattern (index + i) = .ok c := by
  induction patterns generalizing index compiled with
  | nil =>
    cases h
    exact ⟨rfl, fun i pattern hi ↦ by simp at hi⟩
  | cons pattern rest ih =>
    obtain ⟨first, hfirst, h⟩ := bind_eq_ok.mp h
    obtain ⟨others, hothers, h⟩ := bind_eq_ok.mp h
    cases h
    obtain ⟨hlength, hall⟩ := ih hothers
    refine ⟨by rw [List.length_cons, List.length_cons, hlength], fun i other hi ↦ ?_⟩
    cases i with
    | zero =>
      cases hi
      exact ⟨first, rfl, hfirst⟩
    | succ i =>
      obtain ⟨c, hc, hcompile⟩ := hall i other hi
      refine ⟨c, hc, ?_⟩
      rwa [Nat.add_right_comm, Nat.add_assoc] at hcompile

/-- What has been compiled comes from the pattern at its place. -/
theorem compile_of_compileFrom {index : Nat} {patterns : List PatternDeclaration}
    {compiled : List (Definition × Pieces)} (h : compileFrom declaration index patterns = .ok compiled) {i : Nat}
    {c : Definition × Pieces} (hc : compiled[i]? = some c) :
    ∃ pattern, patterns[i]? = some pattern ∧ Fragment.compile declaration pattern (index + i) = .ok (c.1, c.2) := by
  obtain ⟨hlength, hcompile⟩ := compileFrom_ok h
  have hi : i < patterns.length := hlength ▸ (List.getElem?_eq_some_iff.mp hc).1
  obtain ⟨c', hc', hok⟩ := hcompile i _ (List.getElem?_eq_getElem hi)
  cases hc.symm.trans hc'
  exact ⟨_, List.getElem?_eq_getElem hi, hok⟩

theorem fill_bars (filling : String → String) (pieces : Pieces) (fragments : List Pieces) :
    ((fragments.foldl (fun pieces fragment ↦ (pieces.addText "|").extend fragment) pieces).fill filling).toList =
      (pieces.fill filling).toList ++ fragments.flatMap fun fragment ↦ '|' :: (fragment.fill filling).toList := by
  induction fragments generalizing pieces with
  | nil => simp
  | cons fragment rest ih =>
    rw [List.foldl_cons, ih, Pieces.fill_extend, Pieces.fill_addText, List.flatMap_cons]
    simp [String.toList_append]

theorem intercalate_bar (x : List Char) (xs : List (List Char)) :
    ['|'].intercalate (x :: xs) = x ++ xs.flatMap fun y ↦ '|' :: y := by
  induction xs generalizing x with
  | nil => simp
  | cons y ys ih => rw [List.intercalate_cons_cons, ih, List.flatMap_cons]; simp

/-- The text of the joined expression. -/
theorem fill_join (filling : String → String) (fragments : List Pieces) : ((join fragments).fill filling).toList =
    ['^', '(', '?', ':'] ++ ['|'].intercalate (fragments.map fun fragment ↦ (fragment.fill filling).toList) ++
      [')', '$'] := by
  cases fragments with
  | nil =>
    rw [join, Pieces.fill_addText, Pieces.fill_addText]
    simp [Pieces.fill]
  | cons first rest =>
    rw [join, Pieces.fill_addText, String.toList_append, fill_bars, List.map_cons, intercalate_bar, Pieces.fill_extend,
      List.flatMap_map]
    simp [Pieces.fill_addText, String.toList_append, Pieces.fill]

theorem infix_intercalate {x : List Char} {xs : List (List Char)} (h : x ∈ xs) : x <:+: ['|'].intercalate xs := by
  cases xs with
  | nil => cases h
  | cons first rest =>
    rw [intercalate_bar]
    rcases List.mem_cons.mp h with rfl | h
    · exact (List.prefix_append _ _).isInfix
    · obtain ⟨before, after, rfl⟩ := List.append_of_mem h
      refine ⟨first ++ (before.flatMap fun y ↦ '|' :: y) ++ ['|'], after.flatMap fun y ↦ '|' :: y, ?_⟩
      simp

theorem infix_join {fragments : List Pieces} {fragment : Pieces} (filling : String → String)
    (h : fragment ∈ fragments) : (fragment.fill filling).toList <:+: ((join fragments).fill filling).toList := by
  rw [fill_join]
  have hmem := List.mem_map_of_mem (f := fun fragment : Pieces ↦ (fragment.fill filling).toList) h
  exact (infix_intercalate hmem).trans (List.infix_append _ _ _)

theorem slots_bars (pieces : Pieces) (fragments : List Pieces) :
    (fragments.foldl (fun pieces fragment ↦ (pieces.addText "|").extend fragment) pieces).slots =
      pieces.slots ++ fragments.flatMap Pieces.slots := by
  induction fragments generalizing pieces with
  | nil => simp
  | cons fragment rest ih =>
    rw [List.foldl_cons, ih, Pieces.slots_extend, Pieces.slots_addText, List.flatMap_cons, List.append_assoc]

theorem slots_join (fragments : List Pieces) : (join fragments).slots = fragments.flatMap Pieces.slots := by
  cases fragments with
  | nil => rfl
  | cons first rest =>
    rw [join, Pieces.slots_addText, slots_bars, Pieces.slots_extend, List.flatMap_cons]
    rfl

/-- The joined expression has the gaps that the occurrences in the patterns leave, in their order. -/
theorem slots_of_compileFrom {index : Nat} {patterns : List PatternDeclaration}
    {compiled : List (Definition × Pieces)} (h : compileFrom declaration index patterns = .ok compiled) :
    (join (compiled.map Prod.snd)).slots =
      Fragment.gapsOf declaration (patterns.flatMap Fragment.occurrences) := by
  rw [slots_join, List.flatMap_map, Fragment.gapsOf_flatMap]
  induction patterns generalizing index compiled with
  | nil =>
    cases h
    rfl
  | cons pattern rest ih =>
    obtain ⟨first, hfirst, h⟩ := bind_eq_ok.mp h
    obtain ⟨others, hothers, h⟩ := bind_eq_ok.mp h
    cases h
    have hslots : first.2.slots = _ := Fragment.slots_of_compile hfirst
    rw [List.flatMap_cons, List.flatMap_cons, hslots, ih hothers]

/-- The gaps of the joined expression are those of dynamic parameters. -/
theorem isDynamic_of_mem_slots_join {index : Nat} {patterns : List PatternDeclaration}
    {compiled : List (Definition × Pieces)} (h : compileFrom declaration index patterns = .ok compiled) :
    ∀ slot ∈ (join (compiled.map Prod.snd)).slots, Fragment.IsDynamic declaration slot := by
  rw [slots_of_compileFrom h]
  exact fun slot ↦ Fragment.isDynamic_of_mem_gapsOf

/-- Without dynamic parameters the joined expression has no gaps. -/
theorem static?_join (hstatic : Fragment.IsStatic declaration) {index : Nat} {patterns : List PatternDeclaration}
    {compiled : List (Definition × Pieces)} (h : compileFrom declaration index patterns = .ok compiled)
    (filling : String → String) :
    (join (compiled.map Prod.snd)).static? = some ((join (compiled.map Prod.snd)).fill filling) := by
  refine Pieces.static?_of_slots filling (List.eq_nil_iff_forall_not_mem.mpr fun slot hslot ↦ ?_)
  obtain ⟨descriptor, hfind, hdynamic⟩ := isDynamic_of_mem_slots_join h slot hslot
  exact Bool.noConfusion (hdynamic.symm.trans (Fragment.dynamic_of_find? hstatic hfind))

theorem parse?_of_compileRegex {owner text : String} {limit : Nat} {regex : Regex}
    (h : compileRegex owner limit text = .ok regex) : Regex.parse? text.toList = some regex := by
  unfold compileRegex at h
  split at h
  · next found hfound =>
    cases h
    obtain ⟨r, hr, h⟩ := Option.bind_eq_some_iff.mp hfound
    obtain ⟨_, _, h⟩ := Option.bind_eq_some_iff.mp h
    cases h
    exact hr
  · cases h

/-- The expression of joined fragments, which is compiled if it has no gaps. -/
def sourceOf (declaration : Declaration) (settings : Settings) (pieces : Pieces) : Except Error Source :=
  match pieces.static? with
  | some text => (compileRegex declaration.owner settings.regexSizeLimit text).map (Source.static text)
  | none => .ok (.dynamic pieces)

/-- The mapping of a declaration with compiled patterns and an expression. -/
def withSource (declaration : Declaration) (settings : Settings) (patterns : List Definition) (source : Source) :
    Mapping :=
  { owner := declaration.owner
    parameters := declaration.parameters
    patterns
    noMatch := declaration.noMatch.getD settings.defaultNoMatch
    selection := settings.selectionPolicy
    regexSizeLimit := settings.regexSizeLimit
    source }

/-- A mapping is built by checking the parameters, compiling the patterns and then their joined expression. -/
theorem build_eq (declaration : Declaration) (settings : Settings) : build declaration settings = do
    checkDescriptors declaration.owner [] declaration.parameters
    let compiled ← compileFrom declaration 0 declaration.patterns
    let source ← sourceOf declaration settings (join (compiled.map (·.2)))
    return withSource declaration settings (compiled.map (·.1)) source := by
  unfold build
  cases checkDescriptors declaration.owner [] declaration.parameters with
  | error e => rfl
  | ok _ =>
    cases compileFrom declaration 0 declaration.patterns with
    | error e => rfl
    | ok compiled =>
      unfold sourceOf
      change Except.bind _ _ = Except.bind _ _
      dsimp only [bind, Except.bind]
      cases (join (compiled.map (·.2))).static? with
      | none => rfl
      | some text =>
        dsimp only
        cases compileRegex declaration.owner settings.regexSizeLimit text <;> rfl

theorem build_of_compileFrom {compiled : List (Definition × Pieces)}
    (hcheck : checkDescriptors declaration.owner [] declaration.parameters = .ok ())
    (hcompiled : compileFrom declaration 0 declaration.patterns = .ok compiled) :
    build declaration settings = (sourceOf declaration settings (join (compiled.map Prod.snd))).map
      (withSource declaration settings (compiled.map Prod.fst)) := by
  rw [build_eq, hcheck, hcompiled]
  change Except.bind (sourceOf declaration settings (join (compiled.map Prod.snd))) _ = _
  cases sourceOf declaration settings (join (compiled.map Prod.snd)) <;> rfl

theorem sourceOf_of_static? {pieces : Pieces} {text : String} (h : pieces.static? = some text) :
    sourceOf declaration settings pieces =
      (compileRegex declaration.owner settings.regexSizeLimit text).map (Source.static text) := by
  unfold sourceOf
  rw [h]

theorem static_or_dynamic_of_sourceOf {pieces : Pieces} {source : Source}
    (h : sourceOf declaration settings pieces = .ok source) : source = .dynamic pieces ∨
      ∃ text regex, source = .static text regex ∧ pieces.static? = some text ∧
        compileRegex declaration.owner settings.regexSizeLimit text = .ok regex := by
  unfold sourceOf at h
  split at h
  · next text htext =>
    cases hregex : compileRegex declaration.owner settings.regexSizeLimit text with
    | error e =>
      rw [hregex] at h
      cases h
    | ok regex =>
      rw [hregex] at h
      cases h
      exact Or.inr ⟨text, regex, rfl, htext, hregex⟩
  · cases h
    exact Or.inl rfl

theorem build_parts (h : build declaration settings = .ok mapping) :
    checkDescriptors declaration.owner [] declaration.parameters = .ok () ∧
      ∃ compiled source, compileFrom declaration 0 declaration.patterns = .ok compiled ∧
        sourceOf declaration settings (join (compiled.map Prod.snd)) = .ok source ∧
        withSource declaration settings (compiled.map Prod.fst) source = mapping := by
  rw [build_eq] at h
  obtain ⟨_, hcheck, h⟩ := bind_eq_ok.mp h
  obtain ⟨compiled, hcompiled, h⟩ := bind_eq_ok.mp h
  obtain ⟨source, hsource, h⟩ := bind_eq_ok.mp h
  cases h
  exact ⟨hcheck, compiled, source, hcompiled, hsource, rfl⟩

/-- The parameters of a mapping are of kinds that have expressions. -/
theorem defaultRegex_of_checkDescriptors {owner : String} {seen : List String} {descriptors : List Descriptor}
    (h : checkDescriptors owner seen descriptors = .ok ()) :
    ∀ descriptor ∈ descriptors, ∃ default, descriptor.kind.defaultRegex? = some default := by
  induction descriptors generalizing seen with
  | nil => exact nofun
  | cons descriptor rest ih =>
    rw [checkDescriptors] at h
    by_cases hname : descriptor.name ∈ seen
    · rw [if_pos hname] at h
      cases h
    · rw [if_neg hname] at h
      obtain ⟨default, hdefault, h⟩ := bind_eq_ok.mp h
      refine List.forall_mem_cons.mpr ⟨?_, ih h⟩
      unfold Kind.requireDefaultRegex at hdefault
      split at hdefault
      · next regex hregex => exact ⟨regex, hregex⟩
      · cases hdefault

/-- The parts of a mapping with gaps. -/
theorem dynamic_parts {pieces : Pieces} (h : build declaration settings = .ok mapping)
    (hsource : mapping.source = .dynamic pieces) :
    checkDescriptors declaration.owner [] declaration.parameters = .ok () ∧
      ∃ compiled, compileFrom declaration 0 declaration.patterns = .ok compiled ∧
        pieces = join (compiled.map Prod.snd) ∧
        withSource declaration settings (compiled.map Prod.fst) (.dynamic pieces) = mapping := by
  obtain ⟨hcheck, compiled, source, hcompiled, hjoined, rfl⟩ := build_parts h
  refine ⟨hcheck, compiled, hcompiled, ?_⟩
  have hown : source = .dynamic pieces := hsource
  rcases static_or_dynamic_of_sourceOf hjoined with hdynamic | ⟨text, regex, hstatic, -⟩
  · exact ⟨Source.dynamic.inj (hown.symm.trans hdynamic), by rw [hown]⟩
  · exact Source.noConfusion (hown.symm.trans hstatic)

/-- The parts of a mapping. -/
theorem build_ok (h : build declaration settings = .ok mapping) :
    ∃ compiled, compileFrom declaration 0 declaration.patterns = .ok compiled ∧
      mapping.patterns = compiled.map Prod.fst ∧ mapping.selection = settings.selectionPolicy ∧
      (mapping.source = .dynamic (join (compiled.map Prod.snd)) ∨
        ∃ text regex, mapping.source = .static text regex ∧ (join (compiled.map Prod.snd)).static? = some text ∧
          Regex.parse? text.toList = some regex) := by
  obtain ⟨-, compiled, source, hcompiled, hsource, rfl⟩ := build_parts h
  refine ⟨compiled, hcompiled, rfl, rfl, (static_or_dynamic_of_sourceOf hsource).imp_right ?_⟩
  rintro ⟨text, regex, hstatic, htext, hregex⟩
  exact ⟨text, regex, hstatic, htext, parse?_of_compileRegex hregex⟩

/-- The expression of a declaration without gaps is compiled once. -/
theorem static_of_isGapless (hgapless : Fragment.IsGapless declaration) (h : build declaration settings = .ok mapping) :
    ∃ text regex, mapping.source = .static text regex := by
  obtain ⟨-, compiled, source, hcompiled, hsource, rfl⟩ := build_parts h
  have hgaps : Fragment.gapsOf declaration (declaration.patterns.flatMap Fragment.occurrences) = [] := by
    rw [Fragment.gapsOf_eq_nil_iff, List.forall_mem_flatMap]
    exact hgapless
  rw [sourceOf_of_static? (Pieces.static?_of_slots (fun _ ↦ "") ((slots_of_compileFrom hcompiled).trans hgaps))] at hsource
  cases hregex : compileRegex declaration.owner settings.regexSizeLimit _ with
  | error e =>
    rw [hregex] at hsource
    cases hsource
  | ok regex =>
    rw [hregex] at hsource
    cases hsource
    exact ⟨_, regex, rfl⟩

end Mapping

end PathBinding
