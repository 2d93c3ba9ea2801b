import PathBinding.Proofs.Completion
import PathBinding.Proofs.Regex.Stretches

/-!
The groups that are written for a mapping: one for each pattern and one for each parameter in it. The digits in a name tell
the pattern and what is behind the underscore tells the parameter, so no two groups have one name
(`nodup_flatMap_groupNames`). The text that a declaration is compiled to is made of what is copied and the beginnings of
these groups, in the order of their names (`stretches_of_compiled`). If all that is copied keeps to itself, the text is
passed from its beginning to its end (`passed_stretches`).
-/

set_option autoImplicit false
set_option relaxedAutoImplicit false

namespace PathBinding

open Regex

/-! ### Names -/

namespace Definition

/-- The groups that are written for a pattern: its own and those of its parameters. -/
def groupNames (definition : Definition) : List String :=
  definition.fragment :: definition.parameters.map definition.groupName

/-- The digits behind the first letter tell the pattern that a group is written for. -/
theorem takeWhile_isDigit_of_mem {definition : Definition} {name : String} (h : name ∈ definition.groupNames) :
    (name.toList.drop 1).takeWhile Char.isDigit = Nat.toDigits 10 definition.index := by
  have hdigits : ∀ c ∈ Nat.toDigits 10 definition.index, c.isDigit = true := fun c ↦
    Nat.isDigit_of_mem_toDigits (by decide) (by decide)
  have hfragment : definition.fragment.toList = 'p' :: Nat.toDigits 10 definition.index := by
    rw [fragment, fragmentName, String.toList_append, Nat.toString_eq_repr, Nat.toList_repr]
    rfl
  rcases List.mem_cons.mp h with rfl | hparameter
  · rw [hfragment, List.drop_succ_cons, List.drop_zero, List.takeWhile_eq_self_iff]
    exact hdigits
  · obtain ⟨parameter, -, rfl⟩ := List.mem_map.mp hparameter
    rw [groupName, groupNameIn, String.toList_append, String.toList_append, hfragment, List.append_assoc,
      List.cons_append, List.drop_succ_cons, List.drop_zero, List.takeWhile_append_of_pos hdigits]
    have hnone : ("_".toList ++ parameter.toList).takeWhile Char.isDigit = [] := rfl
    rw [hnone, List.append_nil]

theorem index_eq_of_mem {definition other : Definition} {name : String} (h : name ∈ definition.groupNames)
    (h' : name ∈ other.groupNames) : definition.index = other.index := by
  have hdigits := (takeWhile_isDigit_of_mem h).symm.trans (takeWhile_isDigit_of_mem h')
  rw [← Nat.ofDigitChars_ten_toDigits (n := definition.index), hdigits, Nat.ofDigitChars_ten_toDigits]

theorem nodup_groupNames {definition : Definition} (h : definition.parameters.Nodup) : definition.groupNames.Nodup := by
  refine List.nodup_cons.mpr ⟨fun hmem ↦ ?_, h.map fun _ _ ↦ groupNameIn_inj⟩
  obtain ⟨parameter, -, hparameter⟩ := List.mem_map.mp hmem
  exact groupNameIn_ne _ _ hparameter

end Definition

namespace Mapping

variable {declaration : Declaration} {settings : Settings} {mapping : Mapping}

/-- The patterns of a mapping stand at their own numbers, and have each parameter once. -/
theorem patterns_of_build (h : build declaration settings = .ok mapping) :
    (∀ (i : Nat) (definition : Definition), mapping.patterns[i]? = some definition → definition.index = i) ∧
      ∀ definition ∈ mapping.patterns, definition.parameters.Nodup := by
  obtain ⟨compiled, hcompiled, hpatterns, -⟩ := build_ok h
  rw [hpatterns]
  refine ⟨fun i definition hi ↦ ?_, fun definition hmem ↦ ?_⟩
  · rw [List.getElem?_map, Option.map_eq_some_iff] at hi
    obtain ⟨c, hc, rfl⟩ := hi
    exact index_of_compileFrom hcompiled hc
  · obtain ⟨c, hc, rfl⟩ := List.mem_map.mp hmem
    obtain ⟨i, hi⟩ := List.mem_iff_getElem?.mp hc
    obtain ⟨pattern, -, hok⟩ := compile_of_compileFrom hcompiled hi
    exact Fragment.nodup_parameters hok

/-- No two groups that are written for a mapping have one name. -/
theorem nodup_flatMap_groupNames (h : build declaration settings = .ok mapping) :
    (mapping.patterns.flatMap Definition.groupNames).Nodup := by
  obtain ⟨hindex, hparameters⟩ := patterns_of_build h
  refine List.nodup_flatMap.mpr ⟨fun definition hmem ↦ Definition.nodup_groupNames (hparameters definition hmem), ?_⟩
  rw [List.pairwise_iff_getElem]
  intro i j hi hj hlt name hname hname'
  have hsame := Definition.index_eq_of_mem hname hname'
  rw [hindex i _ (List.getElem?_eq_getElem hi), hindex j _ (List.getElem?_eq_getElem hj)] at hsame
  exact absurd hsame (Nat.ne_of_lt hlt)

end Mapping

/-! ### The text of an expression -/

namespace Fragment

section Stretches

variable (context : Context) (filling : String → String)

/-- The group of a parameter. -/
def groupStretches (index : Nat) (name regex : String) : List Stretch :=
  [.opening (Definition.groupNameIn (Definition.fragmentName index) name), .text (regex.toList ++ [')'])]

mutual

/-- The stretches that a segment of a path adds. -/
def segmentStretches : Segment → List Stretch
  | .literal text => [.text text.toList]
  | .placeholder name inline? =>
    groupStretches context.index name (regexOf context.declaration filling false name inline?)
  | .positional _ => []
  | .optional inner => enclosed scope (segmentsStretches inner) ++ [.text ['?']]

def segmentsStretches : List Segment → List Stretch
  | [] => []
  | segment :: rest => segmentStretches segment ++ segmentsStretches rest

end

def QueryPart.stretches (part : QueryPart) : List Stretch :=
  .text ((Regex.escape part.key).toList ++ ['=']) ::
    groupStretches context.index part.name (regexOf context.declaration filling true part.name part.inline?)

/-- The stretches of a fragment with a path and query parts. -/
def fragmentStretches (path : List Segment) (parts : List QueryPart) : List Stretch :=
  enclosed (.opening (Definition.fragmentName context.index))
    (segmentsStretches context filling path ++
      .text ['\\', '?'] :: pairStretches (parts.map (QueryPart.stretches context filling)))

end Stretches

section SpanTexts

variable {context : Context} {filling : String → String}

theorem textOf_groupStretches (index : Nat) (name regex : String) :
    textOf (groupStretches index name regex) = (groupText index name regex).toList := by
  rw [toList_groupText]
  simp [groupStretches]

mutual

theorem textOf_segmentStretches (segment : Segment) :
    textOf (segmentStretches context filling segment) = (segmentText context filling segment).toList := by
  cases segment with
  | literal text => exact List.append_nil _
  | placeholder name inline? => exact textOf_groupStretches _ _ _
  | positional index => rfl
  | optional inner =>
    rw [segmentStretches, textOf_append, textOf_enclosed, textOf_segmentsStretches, segmentText, String.toList_append,
      String.toList_append]
    simp [scope]

theorem textOf_segmentsStretches (path : List Segment) :
    textOf (segmentsStretches context filling path) = (segmentsText context filling path).toList := by
  cases path with
  | nil => rfl
  | cons segment rest =>
    rw [segmentsStretches, textOf_append, textOf_segmentStretches, textOf_segmentsStretches, segmentsText,
      String.toList_append]

end

theorem textOf_queryStretches (part : QueryPart) :
    textOf (part.stretches context filling) = (part.text context filling).toList := by
  rw [QueryPart.stretches, textOf_cons, textOf_groupStretches, QueryPart.text, String.toList_append, String.toList_append]
  rfl

theorem textOf_pairStretches (branches : List (List Stretch)) :
    textOf (pairStretches branches) = pairsText (branches.map textOf) := by
  have hbranches : textOf (branches.flatMap (· ++ [.text ['|']])) = (branches.map textOf).flatMap (· ++ ['|']) := by
    rw [textOf, List.flatMap_assoc, List.flatMap_map]
    exact List.flatMap_congr fun branch _ ↦ textOf_append branch _
  simp [pairStretches, pairsText, scope, intercalate_concat, hbranches]

theorem textOf_fragmentStretches (path : List Segment) (parts : List QueryPart) :
    textOf (fragmentStretches context filling path parts) = (fragmentText context filling path parts).toList := by
  rw [toList_fragmentText_eq, fragmentStretches, textOf_enclosed, textOf_append, textOf_segmentsStretches, textOf_cons,
    textOf_pairStretches, List.map_map, queryText]
  simp [Function.comp_def, textOf_queryStretches]

mutual

theorem namesOf_segmentStretches (segment : Segment) : namesOf (segmentStretches context filling segment) =
    segment.placeholders.map fun p ↦ Definition.groupNameIn (Definition.fragmentName context.index) p.1 := by
  cases segment with
  | literal text => rfl
  | placeholder name inline? => rfl
  | positional index => rfl
  | optional inner =>
    rw [segmentStretches, namesOf_append, namesOf_enclosed, namesOf_segmentsStretches]
    exact List.append_nil _

theorem namesOf_segmentsStretches (path : List Segment) : namesOf (segmentsStretches context filling path) =
    (Segment.placeholdersAll path).map fun p ↦ Definition.groupNameIn (Definition.fragmentName context.index) p.1 := by
  cases path with
  | nil => rfl
  | cons segment rest =>
    rw [segmentsStretches, namesOf_append, namesOf_segmentStretches, namesOf_segmentsStretches, Segment.placeholdersAll,
      List.map_append]

end

theorem namesOf_fragmentStretches (path : List Segment) (parts : List QueryPart) :
    namesOf (fragmentStretches context filling path parts) = Definition.fragmentName context.index ::
      ((Segment.placeholdersAll path).map Prod.fst ++ parts.map QueryPart.name).map
        (Definition.groupNameIn (Definition.fragmentName context.index)) := by
  have hparts : (parts.map (QueryPart.stretches context filling)).flatMap namesOf =
      parts.map fun part ↦ Definition.groupNameIn (Definition.fragmentName context.index) part.name := by
    rw [List.flatMap_map, List.map_eq_flatMap]
    rfl
  rw [fragmentStretches, namesOf_enclosed, namesOf_append, namesOf_text, namesOf_pairStretches,
    namesOf_segmentsStretches, hparts, List.map_append, List.map_map, List.map_map]
  rfl

end SpanTexts

end Fragment

/-- The stretches that pattern number `index` is compiled to. -/
def Declaration.patternStretches (declaration : Declaration) (filling : String → String) (pattern : PatternDeclaration)
    (index : Nat) : List Stretch :=
  Fragment.fragmentStretches ⟨declaration, pattern.pattern, index⟩ filling
    ((Segment.parse (Fragment.rooted pattern.pattern)).toOption.getD []) (pattern.query.filterMap Fragment.queryPart?)

/-- The stretches of the expression of a declaration, with its gaps filled. -/
def Declaration.stretches (declaration : Declaration) (filling : String → String) : List Stretch :=
  .text ['^'] :: (enclosed scope ([.text ['|']].intercalate
    (declaration.patterns.mapIdx fun index pattern ↦ declaration.patternStretches filling pattern index)) ++ [.text ['$']])

namespace Mapping

variable {declaration : Declaration} {settings : Settings} {mapping : Mapping}

theorem textOf_intercalate (branches : List (List Stretch)) :
    textOf ([.text ['|']].intercalate branches) = ['|'].intercalate (branches.map textOf) := by
  induction branches with
  | nil => rfl
  | cons branch branches ih =>
    cases branches with
    | nil => simp
    | cons next rest => simpa using ih

theorem namesOf_intercalate (branches : List (List Stretch)) :
    namesOf ([.text ['|']].intercalate branches) = branches.flatMap namesOf := by
  induction branches with
  | nil => rfl
  | cons branch branches ih =>
    cases branches with
    | nil => simp
    | cons next rest => simpa using ih

theorem patternStretches_of_declares {i : Nat} {pattern : PatternDeclaration} {path : List Segment}
    {parts : List Fragment.QueryPart} (h : declaration.Declares i pattern path parts) (filling : String → String) :
    declaration.patternStretches filling pattern i =
      Fragment.fragmentStretches ⟨declaration, pattern.pattern, i⟩ filling path parts := by
  have hparts : pattern.query.filterMap Fragment.queryPart? = parts := by
    have hsome := congrArg (List.filterMap id) h.queries
    rwa [List.filterMap_map, List.filterMap_map, Function.id_comp, Function.id_comp, List.filterMap_some] at hsome
  rw [Declaration.patternStretches, h.parsed, hparts]
  rfl

/-- A pattern is compiled to its stretches. -/
theorem patternStretches_of_compile {i : Nat} {pattern : PatternDeclaration} {c : Definition × Pieces}
    (hpattern : declaration.patterns[i]? = some pattern) (hok : Fragment.compile declaration pattern i = .ok c)
    (filling : String → String) : textOf (declaration.patternStretches filling pattern i) = (c.2.fill filling).toList ∧
      namesOf (declaration.patternStretches filling pattern i) = c.1.groupNames := by
  obtain ⟨path, parts, hdeclares⟩ := exists_declares hpattern hok
  obtain ⟨hparameters, hfill⟩ := hdeclares.compiled hok
  have hindex : c.1.index = i := by
    obtain ⟨_, _, _, _, _, _, _, hindex, -⟩ := Fragment.compile_ok (fun _ ↦ "") hok
    exact hindex
  rw [patternStretches_of_declares hdeclares, hfill, Definition.groupNames, hparameters]
  refine ⟨Fragment.textOf_fragmentStretches path parts, (Fragment.namesOf_fragmentStretches path parts).trans ?_⟩
  have hfragment : c.1.fragment = Definition.fragmentName i := congrArg Definition.fragmentName hindex
  have hgroup : c.1.groupName = Definition.groupNameIn (Definition.fragmentName i) :=
    congrArg Definition.groupNameIn hfragment
  rw [hfragment, hgroup]

/-- What patterns are compiled to is made of their stretches. -/
theorem stretches_of_compiled {compiled : List (Definition × Pieces)}
    (hcompiled : compileFrom declaration 0 declaration.patterns = .ok compiled) (filling : String → String) :
    textOf (declaration.stretches filling) = ((join (compiled.map Prod.snd)).fill filling).toList ∧
      namesOf (declaration.stretches filling) = (compiled.map Prod.fst).flatMap Definition.groupNames := by
  have hlength := (compileFrom_ok hcompiled).1
  have hown (i : Nat) (hi : i < declaration.patterns.length) (hi' : i < compiled.length) :
      textOf (declaration.patternStretches filling declaration.patterns[i] i) = (compiled[i].2.fill filling).toList ∧
        namesOf (declaration.patternStretches filling declaration.patterns[i] i) = compiled[i].1.groupNames := by
    obtain ⟨pattern, hpattern, hok⟩ := compile_of_compileFrom hcompiled (List.getElem?_eq_getElem hi')
    cases (List.getElem?_eq_getElem hi).symm.trans hpattern
    rw [Nat.zero_add] at hok
    exact patternStretches_of_compile hpattern hok filling
  have htexts : (declaration.patterns.mapIdx fun index pattern ↦ declaration.patternStretches filling pattern index).map
      textOf = compiled.map fun c ↦ (c.2.fill filling).toList := by
    refine List.ext_getElem (by simp [hlength]) fun i hi hi' ↦ ?_
    rw [List.getElem_map, List.getElem_mapIdx, List.getElem_map]
    exact (hown i _ _).1
  have hnames : (declaration.patterns.mapIdx fun index pattern ↦ declaration.patternStretches filling pattern index).map
      namesOf = compiled.map fun c ↦ c.1.groupNames := by
    refine List.ext_getElem (by simp [hlength]) fun i hi hi' ↦ ?_
    rw [List.getElem_map, List.getElem_mapIdx, List.getElem_map]
    exact (hown i _ _).2
  constructor
  · rw [fill_join, List.map_map, Declaration.stretches, textOf_cons, textOf_append, textOf_enclosed, textOf_intercalate,
      htexts]
    simp [scope, Function.comp_def]
  · rw [Declaration.stretches, namesOf_text, namesOf_append, namesOf_enclosed, namesOf_intercalate, List.flatMap_def,
      hnames, List.flatMap_map, List.flatMap_def]
    exact List.append_nil _

end Mapping

/-! ### Text that is copied -/

namespace Fragment

/-- All literals of a path are read character by character. -/
def IsSimplePath (path : List Segment) : Prop :=
  ∀ text ∈ Segment.literalsAll path, isSimple text.toList = true

section Passed

variable {context : Context} {filling : String → String}

theorem passed_groupStretches (index : Nat) {name regex : String} (hname : Segment.IsName name)
    (h : IsSelfContained regex) (s : List Char) : Passed s (groupStretches index name regex) :=
  passed_held (isGroupName_groupNameIn index hname) h

theorem head?_groupStretches (index : Nat) (name regex : String) :
    (textOf (groupStretches index name regex)).head? = some '(' :=
  rfl

theorem head?_append {x s : List Char} (hx : x.head? ≠ some '?') (hs : s.head? ≠ some '?') :
    (x ++ s).head? ≠ some '?' := by
  cases x with
  | nil => exact hs
  | cons c x => exact hx

mutual

/-- Simple literals and expressions that can be held together are passed, segment by segment. -/
theorem passed_segment {segment : Segment} (hsimple : ∀ text ∈ segment.literals, isSimple text.toList = true)
    (hnamed : ∀ p ∈ segment.placeholders, Segment.IsName p.1)
    (h : ∀ p ∈ segment.placeholders, IsSelfContained (regexOf context.declaration filling false p.1 p.2)) :
    (textOf (segmentStretches context filling segment)).head? ≠ some '?' ∧
      ∀ s : List Char, s.head? ≠ some '?' → Passed s (segmentStretches context filling segment) := by
  cases segment with
  | literal text =>
    have htext := hsimple text List.mem_cons_self
    have hhead : textOf [.text text.toList] = text.toList := List.append_nil _
    rw [segmentStretches, hhead]
    exact ⟨head?_of_isSimple htext, fun s hs ↦ passed_simple htext hs⟩
  | placeholder name inline? =>
    have hself := h (name, inline?) List.mem_cons_self
    exact ⟨by rw [segmentStretches, head?_groupStretches]; decide,
      fun s _ ↦ passed_groupStretches context.index (hnamed (name, inline?) List.mem_cons_self) hself s⟩
  | positional index => exact ⟨nofun, fun s _ ↦ passed_nil⟩
  | optional inner =>
    obtain ⟨-, hinner⟩ := passed_segments hsimple hnamed h
    refine ⟨by simp [segmentStretches, scope], fun s hs ↦ (passed_scope (hinner _ (by simp))).append ?_⟩
    have hlazy : Token.simpleRepeat 0 (some 1) s = (.repeat 0 (some 1) true, s) := by
      rw [Token.simpleRepeat, laziness_of_head hs]
    exact passed_repeat (congrArg some hlazy)

theorem passed_segments {path : List Segment} (hsimple : IsSimplePath path) (hnamed : Segment.Named path)
    (h : PathSelfContained context filling path) : (textOf (segmentsStretches context filling path)).head? ≠ some '?' ∧
      ∀ s : List Char, s.head? ≠ some '?' → Passed s (segmentsStretches context filling path) := by
  cases path with
  | nil => exact ⟨nofun, fun s _ ↦ passed_nil⟩
  | cons segment rest =>
    obtain ⟨hsimple, hsimple'⟩ := List.forall_mem_append.mp hsimple
    obtain ⟨hnamed, hnamed'⟩ := Segment.named_cons.mp hnamed
    obtain ⟨h, h'⟩ := List.forall_mem_append.mp h
    obtain ⟨hhead, hpassed⟩ := passed_segment hsimple hnamed h
    obtain ⟨hhead', hpassed'⟩ := passed_segments hsimple' hnamed' h'
    rw [segmentsStretches, textOf_append]
    exact ⟨head?_append hhead hhead', fun s hs ↦ (hpassed _ (head?_append hhead' hs)).append (hpassed' s hs)⟩

end

theorem isSimple_escape (text : String) {x : List Char} (hx : isSimple x = true) :
    isSimple ((Regex.escape text).toList ++ x) = true := by
  rw [Regex.escape, String.toList_ofList]
  induction text.toList with
  | nil => exact hx
  | cons c rest ih =>
    rw [List.flatMap_cons, List.append_assoc]
    cases hc : isMeta c with
    | true =>
      simp only [if_true, List.cons_append, List.nil_append, isSimple, hc, Bool.true_and]
      exact ih
    | false =>
      have hne (d : Char) (hd : isMeta d = true) : c ≠ d := by
        rintro rfl
        rw [hc] at hd
        cases hd
      have hcombining : combining.contains c = false := by
        have hall : combining.all isMeta = true := rfl
        rw [← Bool.not_eq_true, List.contains_iff_mem]
        exact fun hmem ↦ hne c (List.all_eq_true.mp hall c hmem) rfl
      simp only [Bool.false_eq_true, if_false, List.singleton_append]
      rw [isSimple]
      · rw [hcombining, ih]
        rfl
      · exact fun _ _ heq _ ↦ hne '\\' rfl heq
      · exact fun _ heq _ ↦ hne '*' rfl heq
      · exact fun _ heq _ ↦ hne '+' rfl heq

theorem passed_queryPart {part : QueryPart} (hname : Segment.IsName part.name)
    (h : IsSelfContained (regexOf context.declaration filling true part.name part.inline?)) (s : List Char) :
    Passed s (part.stretches context filling) := by
  have hkey : Passed (textOf (groupStretches context.index part.name
      (regexOf context.declaration filling true part.name part.inline?)) ++ s)
      [.text ((Regex.escape part.key).toList ++ ['='])] :=
    passed_simple (isSimple_escape part.key rfl) (by simp [groupStretches, openNamed])
  exact hkey.append (passed_groupStretches context.index hname h s)

/-- The stretches of a fragment are passed. -/
theorem passed_fragment {path : List Segment} {parts : List QueryPart} (hsimple : IsSimplePath path)
    (hnamed : Segment.Named path) (hnames : ∀ part ∈ parts, Segment.IsName part.name)
    (hpath : PathSelfContained context filling path) (hquery : QuerySelfContained context filling parts) (s : List Char) :
    Passed s (fragmentStretches context filling path parts) := by
  have hpairs : Passed (')' :: s) (pairStretches (parts.map (QueryPart.stretches context filling))) := by
    refine passed_pairs (fun branch hbranch s _ ↦ ?_) (by simp)
    obtain ⟨part, hpart, rfl⟩ := List.mem_map.mp hbranch
    exact passed_queryPart (hnames part hpart) (hquery part hpart) s
  have hmark : Passed (textOf (pairStretches (parts.map (QueryPart.stretches context filling))) ++ ')' :: s)
      [.text ['\\', '?']] := passed_escaped (by decide)
  have hsegments := (passed_segments hsimple hnamed hpath).2
  exact passed_named (isGroupName_fragmentName context.index) ((hsegments _ (by simp)).append (hmark.append hpairs))

end Passed

end Fragment

/-- What is copied into the expression of a declaration keeps to itself: literals are read character by character, and the
expressions of parameters can be held together. -/
def Declaration.IsTidy (declaration : Declaration) (filling : String → String) : Prop :=
  ∀ (i : Nat) (pattern : PatternDeclaration) (path : List Segment) (parts : List Fragment.QueryPart),
    declaration.Declares i pattern path parts → Fragment.IsSimplePath path ∧
      Fragment.PathSelfContained ⟨declaration, pattern.pattern, i⟩ filling path ∧
      Fragment.QuerySelfContained ⟨declaration, pattern.pattern, i⟩ filling parts

namespace Mapping

variable {declaration : Declaration} {settings : Settings} {mapping : Mapping}

theorem passed_intercalate {branches : List (List Stretch)} (h : ∀ branch ∈ branches, ∀ s, Passed s branch)
    (s : List Char) : Passed s ([.text ['|']].intercalate branches) := by
  induction branches with
  | nil => exact passed_nil
  | cons branch branches ih =>
    obtain ⟨hbranch, hrest⟩ := List.forall_mem_cons.mp h
    cases branches with
    | nil =>
      rw [List.intercalate_singleton]
      exact hbranch s
    | cons next rest =>
      rw [List.intercalate_cons_cons]
      exact ((hbranch _).append passed_bar).append (ih hrest)

/-- If what is copied keeps to itself, the expression of a declaration is passed from its beginning to its end. -/
theorem passed_stretches {filling : String → String} {compiled : List (Definition × Pieces)}
    (hcompiled : compileFrom declaration 0 declaration.patterns = .ok compiled) (htidy : declaration.IsTidy filling) :
    Passed [] (declaration.stretches filling) := by
  have hpatterns : ∀ branch ∈ declaration.patterns.mapIdx fun index pattern ↦
      declaration.patternStretches filling pattern index, ∀ s, Passed s branch := by
    intro branch hbranch s
    obtain ⟨i, hi, rfl⟩ := List.mem_mapIdx.mp hbranch
    have hpattern := List.getElem?_eq_getElem hi
    obtain ⟨c, -, hok⟩ := (compileFrom_ok hcompiled).2 i _ hpattern
    rw [Nat.zero_add] at hok
    obtain ⟨path, parts, hdeclares⟩ := exists_declares hpattern hok
    obtain ⟨hsimple, hpath, hquery⟩ := htidy i _ path parts hdeclares
    rw [patternStretches_of_declares hdeclares]
    exact Fragment.passed_fragment hsimple (Segment.named_of_parse hdeclares.parsed)
      (Fragment.isName_of_mem hdeclares.queries) hpath hquery s
  have hcaret (s : List Char) : Passed s [.text ['^']] := passed_atom rfl
  exact (hcaret _).append ((passed_scope (passed_intercalate hpatterns _)).append (passed_atom rfl))

end Mapping

end PathBinding
