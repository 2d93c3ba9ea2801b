import PathBinding.Proofs.Assembly
import PathBinding.Proofs.Expansion

/-!
Dynamic parameters whose producers yield nothing. The text that is assembled is compiled from the declared expressions and
those of the kinds, which are the expressions that the same parameters have in a path when they are not dynamic. In a
query a string without an expression of its own has another one there (`IsBareString`), so the assembled text is the text
that is compiled without the flags if and only if no query part has such a string (`silent_assembly_iff`).
-/

set_option autoImplicit false
set_option relaxedAutoImplicit false

namespace PathBinding

open Fragment

/-- The declaration without the flags of dynamic parameters. -/
def Declaration.cleared (declaration : Declaration) : Declaration :=
  { declaration with parameters := declaration.parameters.map fun descriptor ↦ { descriptor with dynamic := false } }

/-- The expression of a dynamic parameter whose producer yields none. -/
def Declaration.fallback (declaration : Declaration) (name : String) : String :=
  declaration.pathRegex name none

/-- A query part captures a dynamic string for which nobody declares an expression. -/
def Declaration.IsBareString (declaration : Declaration) (part : QueryPart) : Prop :=
  part.inline? = none ∧ ∃ descriptor, declaration.find? part.name = some descriptor ∧ descriptor.dynamic = true ∧
    descriptor.regex = none ∧ descriptor.kind = .string

/-- No query part of any pattern captures such a string. -/
def Declaration.NoBareString (declaration : Declaration) : Prop :=
  ∀ pattern ∈ declaration.patterns, ∀ query ∈ pattern.query, ∀ part, queryPart? query = some part →
    ¬ declaration.IsBareString part

namespace Fragment

variable {declaration : Declaration}

theorem find?_cleared (name : String) : declaration.cleared.find? name =
    (declaration.find? name).map fun descriptor ↦ { descriptor with dynamic := false } := by
  exact List.find?_map

theorem isStatic_cleared (declaration : Declaration) : IsStatic declaration.cleared := by
  intro descriptor hdescriptor
  obtain ⟨original, -, rfl⟩ := List.mem_map.mp hdescriptor
  rfl

theorem pathRegex_cleared (name : String) (inline? : Option String) :
    declaration.cleared.pathRegex name inline? = declaration.pathRegex name inline? := by
  unfold Declaration.pathRegex
  rw [find?_cleared]
  cases inline? with
  | some regex => rfl
  | none => cases declaration.find? name <;> rfl

theorem queryRegex_cleared (name : String) (inline? : Option String) :
    declaration.cleared.queryRegex name inline? = declaration.queryRegex name inline? := by
  unfold Declaration.queryRegex
  rw [find?_cleared]
  cases inline? with
  | some regex => rfl
  | none => cases declaration.find? name <;> rfl

/-- In a path the fallback is the expression of the parameter. -/
theorem regexOf_fallback_path (name : String) (inline? : Option String) :
    regexOf declaration declaration.fallback false name inline? = declaration.pathRegex name inline? := by
  cases inline? with
  | some regex => rfl
  | none =>
    cases hfind : declaration.find? name with
    | none => simp only [regexOf, Declaration.pathRegex, hfind]
    | some descriptor =>
      simp only [regexOf, Declaration.fallback, Declaration.pathRegex, hfind, effectiveRegex]
      cases descriptor.regex <;> simp

theorem regexOf_fallback_query {part : QueryPart} (h : ¬ declaration.IsBareString part) :
    regexOf declaration declaration.fallback true part.name part.inline? =
      declaration.queryRegex part.name part.inline? := by
  obtain ⟨key, name, inline?⟩ := part
  cases inline? with
  | some regex => rfl
  | none =>
    cases hfind : declaration.find? name with
    | none => simp only [regexOf, Declaration.queryRegex, hfind]
    | some descriptor =>
      have hbare : ¬ (descriptor.dynamic = true ∧ descriptor.regex = none ∧ descriptor.kind = .string) :=
        fun hbare ↦ h ⟨rfl, descriptor, hfind, hbare⟩
      simp only [regexOf, Declaration.fallback, Declaration.pathRegex, Declaration.queryRegex, hfind, effectiveRegex]
      cases hregex : descriptor.regex with
      | some regex => simp
      | none =>
        cases hdynamic : descriptor.dynamic with
        | false => by_cases hkind : descriptor.kind = .string <;> simp [hkind]
        | true =>
          have hkind : descriptor.kind ≠ .string := fun hkind ↦ hbare ⟨hdynamic, hregex, hkind⟩
          simp [hkind]

/-- A string without an expression of its own falls back to the expression of a path. -/
theorem regexOf_bareString {part : QueryPart} (h : declaration.IsBareString part) :
    regexOf declaration declaration.fallback true part.name part.inline? = "[^/]+" ∧
      declaration.queryRegex part.name part.inline? = "[^&]+" := by
  obtain ⟨hinline, descriptor, hfind, hdynamic, hregex, hkind⟩ := h
  rw [hinline]
  simp [regexOf, Declaration.fallback, Declaration.pathRegex, Declaration.queryRegex, hfind, hdynamic, hregex, hkind,
    Kind.defaultRegex?, Kind.queryStringRegex]

theorem agrees_cleared (declaration : Declaration) (filling : String → String) :
    Agrees declaration.fallback filling declaration declaration.cleared where
  owner := rfl
  shapes := by
    rw [Declaration.cleared, List.map_map]
    rfl
  path name := by
    rw [regexOf_fallback_path, regexOf_path (isStatic_cleared declaration), pathRegex_cleared]

theorem agreesOn_cleared {pattern : PatternDeclaration}
    (h : ∀ query ∈ pattern.query, ∀ part, queryPart? query = some part → ¬ declaration.IsBareString part)
    (filling : String → String) :
    AgreesOn declaration.fallback filling declaration declaration.cleared pattern := by
  intro query hquery part hpart
  rw [regexOf_fallback_query (h query hquery part hpart), regexOf_query (isStatic_cleared declaration),
    queryRegex_cleared]

/-! ### Texts that differ -/

theorem groupText_inj {index : Nat} {name regex other : String}
    (h : groupText index name regex = groupText index name other) : regex = other := by
  have hlists := congrArg String.toList h
  simp only [groupText, String.toList_append, List.append_cancel_left_eq, List.append_cancel_right_eq] at hlists
  exact String.toList_injective hlists

theorem length_groupText {index : Nat} {name regex other : String} (h : regex.length = other.length) :
    (groupText index name regex).length = (groupText index name other).length := by
  simp only [groupText, String.length_append, h]

/-- Two declarations ask for expressions of the same length in queries. -/
def SameLength (f g : String → String) (a b : Declaration) (part : QueryPart) : Prop :=
  (regexOf a f true part.name part.inline?).length = (regexOf b g true part.name part.inline?).length

section Injective

variable {f g : String → String} {a b : Declaration} {raw : String} {index : Nat} {path : List Segment}
  {parts : List QueryPart}

theorem flatten_toList (texts : List String) : (String.join texts).toList = (texts.map String.toList).flatten := by
  induction texts with
  | nil => rfl
  | cons text rest ih => rw [String.join_cons, String.toList_append, ih, List.map_cons, List.flatten_cons]

theorem length_partText {part : QueryPart} (h : SameLength f g a b part) :
    (part.text ⟨a, raw, index⟩ f).length = (part.text ⟨b, raw, index⟩ g).length := by
  simp only [QueryPart.text, String.length_append, length_groupText h]

theorem lengths_parts (hlength : ∀ part ∈ parts, SameLength f g a b part) :
    ((parts.map fun part ↦ part.text ⟨a, raw, index⟩ f ++ "|").map String.toList).map List.length =
      ((parts.map fun part ↦ part.text ⟨b, raw, index⟩ g ++ "|").map String.toList).map List.length := by
  simp only [List.map_map]
  refine List.map_congr_left fun part hpart ↦ ?_
  simp only [Function.comp_apply, String.length_toList, String.length_append, length_partText (hlength part hpart)]

theorem length_fragmentText (h : Agrees f g a b) (hlength : ∀ part ∈ parts, SameLength f g a b part) :
    (fragmentText ⟨a, raw, index⟩ f path parts).toList.length =
      (fragmentText ⟨b, raw, index⟩ g path parts).toList.length := by
  simp only [fragmentText, segmentsText_congr h path, String.toList_append, flatten_toList, List.length_append,
    List.length_flatten, lengths_parts hlength]

/-- Fragments of expressions that have the same lengths are the same only if the expressions are. -/
theorem fragmentText_inj (h : Agrees f g a b) (hlength : ∀ part ∈ parts, SameLength f g a b part)
    (hsame : fragmentText ⟨a, raw, index⟩ f path parts = fragmentText ⟨b, raw, index⟩ g path parts) :
    ∀ part ∈ parts, regexOf a f true part.name part.inline? = regexOf b g true part.name part.inline? := by
  have hlists := congrArg String.toList hsame
  simp only [fragmentText, segmentsText_congr h path, String.toList_append, List.append_cancel_left_eq,
    List.append_cancel_right_eq, flatten_toList] at hlists
  have hparts := List.eq_iff_flatten_eq.mpr ⟨hlists, lengths_parts hlength⟩
  rw [List.map_map, List.map_map, List.map_inj_left] at hparts
  intro part hpart
  have htexts := hparts part hpart
  simp only [Function.comp_apply, QueryPart.text, String.toList_append, List.append_cancel_left_eq,
    List.append_cancel_right_eq] at htexts
  exact groupText_inj (String.toList_injective htexts)

end Injective

end Fragment

namespace Mapping

open Fragment

variable {f g : String → String} {a b : Declaration}

theorem intercalate_inj {xs ys : List (List Char)} (hlength : xs.map List.length = ys.map List.length)
    (h : ['|'].intercalate xs = ['|'].intercalate ys) : xs = ys := by
  cases xs with
  | nil => exact (List.map_eq_nil_iff.mp hlength.symm).symm
  | cons x xs =>
    cases ys with
    | nil => cases hlength
    | cons y ys =>
      rw [intercalate_bar, intercalate_bar] at h
      have hflat : (x :: xs.map ('|' :: ·)).flatten = (y :: ys.map ('|' :: ·)).flatten := by
        simpa only [List.flatten_cons, List.flatMap] using h
      have hlengths : (x :: xs.map ('|' :: ·)).map List.length = (y :: ys.map ('|' :: ·)).map List.length := by
        obtain ⟨hfirst, hrest⟩ := List.cons.inj hlength
        have hbars := congrArg (List.map (· + 1)) hrest
        rw [List.map_map, List.map_map] at hbars
        rw [List.map_cons, List.map_cons, hfirst, List.map_map, List.map_map]
        exact congrArg (y.length :: ·) hbars
      obtain ⟨hfirst, hrest⟩ := List.cons.inj (List.eq_iff_flatten_eq.mpr ⟨hflat, hlengths⟩)
      rw [hfirst, List.map_injective_iff.mpr (List.cons_injective) hrest]

/-- The texts of fragments with their gaps filled. -/
def filledTexts (filling : String → String) (compiled : List (Definition × Pieces)) : List (List Char) :=
  compiled.map fun c ↦ (c.2.fill filling).toList

/-- Two declarations ask for expressions of the same lengths in the queries of a pattern. -/
def SameLengthOn (f g : String → String) (a b : Declaration) (pattern : PatternDeclaration) : Prop :=
  ∀ query ∈ pattern.query, ∀ part, queryPart? query = some part → SameLength f g a b part

theorem fill_compile_inj (h : Agrees f g a b) {pattern : PatternDeclaration} {index : Nat}
    {c other : Definition × Pieces} (ha : Fragment.compile a pattern index = .ok c)
    (hb : Fragment.compile b pattern index = .ok other) (hlength : SameLengthOn f g a b pattern) :
    (c.2.fill f).toList.length = (other.2.fill g).toList.length ∧
      ((c.2.fill f).toList = (other.2.fill g).toList → AgreesOn f g a b pattern) := by
  obtain ⟨path, parts, -, -, hpath, -, hparts, -, -, -, hfill⟩ :=
    compile_ok f (show Fragment.compile a pattern index = .ok (c.1, c.2) from ha)
  obtain ⟨path', parts', -, -, hpath', -, hparts', -, -, -, hfill'⟩ :=
    compile_ok g (show Fragment.compile b pattern index = .ok (other.1, other.2) from hb)
  cases hpath.symm.trans hpath'
  cases List.map_injective_iff.mpr (Option.some_injective _) (hparts.symm.trans hparts')
  have hdeclared (part : QueryPart) : part ∈ parts ↔ ∃ query ∈ pattern.query, queryPart? query = some part := by
    rw [← List.mem_map, hparts, List.mem_map_of_injective (Option.some_injective _)]
  have hlengths : ∀ part ∈ parts, SameLength f g a b part := by
    intro part hpart
    obtain ⟨query, hquery, hsome⟩ := (hdeclared part).mp hpart
    exact hlength query hquery part hsome
  rw [hfill, hfill']
  refine ⟨length_fragmentText h hlengths, fun hsame query hquery part hpart ↦ ?_⟩
  exact fragmentText_inj h hlengths (String.toList_injective hsame) part ((hdeclared part).mpr ⟨query, hquery, hpart⟩)

theorem filledTexts_inj (h : Agrees f g a b) {index : Nat} {patterns : List PatternDeclaration}
    {compiled others : List (Definition × Pieces)} (ha : compileFrom a index patterns = .ok compiled)
    (hb : compileFrom b index patterns = .ok others) (hlength : ∀ pattern ∈ patterns, SameLengthOn f g a b pattern) :
    (filledTexts f compiled).map List.length = (filledTexts g others).map List.length ∧
      (filledTexts f compiled = filledTexts g others → ∀ pattern ∈ patterns, AgreesOn f g a b pattern) := by
  induction patterns generalizing index compiled others with
  | nil =>
    cases ha
    cases hb
    exact ⟨rfl, fun _ ↦ nofun⟩
  | cons pattern rest ih =>
    obtain ⟨c, hc, ha⟩ := bind_eq_ok.mp ha
    obtain ⟨cs, hcs, ha⟩ := bind_eq_ok.mp ha
    obtain ⟨other, hother, hb⟩ := bind_eq_ok.mp hb
    obtain ⟨more, hmore, hb⟩ := bind_eq_ok.mp hb
    cases ha
    cases hb
    obtain ⟨hpattern, hrest⟩ := List.forall_mem_cons.mp hlength
    obtain ⟨hfirst, hagree⟩ := fill_compile_inj h hc hother hpattern
    obtain ⟨hlengths, hagrees⟩ := ih hcs hmore hrest
    refine ⟨congrArg₂ List.cons hfirst hlengths, fun hsame ↦ ?_⟩
    obtain ⟨htext, htexts⟩ := List.cons.inj hsame
    exact List.forall_mem_cons.mpr ⟨hagree htext, hagrees htexts⟩

/-- Assumes: two declarations ask for the same expressions in paths and for expressions of the same lengths in queries.
They compile to the same text only if they ask for the same expressions in queries too. -/
theorem agreesOn_of_fill_join (h : Agrees f g a b) {index : Nat} {patterns : List PatternDeclaration}
    {compiled others : List (Definition × Pieces)} (ha : compileFrom a index patterns = .ok compiled)
    (hb : compileFrom b index patterns = .ok others) (hlength : ∀ pattern ∈ patterns, SameLengthOn f g a b pattern)
    (hsame : (join (compiled.map Prod.snd)).fill f = (join (others.map Prod.snd)).fill g) :
    ∀ pattern ∈ patterns, AgreesOn f g a b pattern := by
  have hlists := congrArg String.toList hsame
  rw [fill_join, fill_join, List.append_cancel_right_eq, List.append_cancel_left_eq, List.map_map, List.map_map] at hlists
  obtain ⟨hlengths, hagrees⟩ := filledTexts_inj h ha hb hlength
  exact hagrees (intercalate_inj hlengths hlists)

/-! ### Silent producers -/

variable {declaration : Declaration} {settings : Settings} {mapping : Mapping}

/-- A dynamic parameter whose producer yields nothing is resolved to its fallback. -/
theorem resolve_of_silent (hbuild : build declaration settings = .ok mapping) {producers : Producers} {view : View}
    {name : String} {descriptor : Descriptor} {producer : Producer} (hfind : declaration.find? name = some descriptor)
    (hproducer : producers.lookup name = some producer) (hsilent : producer view = none) :
    mapping.resolve producers view name = .ok (declaration.fallback name) := by
  rw [resolve_of_producer hbuild hfind hproducer, hsilent]
  dsimp only
  obtain ⟨hcheck, -⟩ := build_parts hbuild
  obtain ⟨default, hdefault⟩ := defaultRegex_of_checkDescriptors hcheck descriptor (List.mem_of_find?_eq_some hfind)
  unfold Descriptor.fallbackRegex Kind.requireDefaultRegex Declaration.fallback Declaration.pathRegex
  rw [hfind]
  dsimp only
  rw [hdefault]
  cases descriptor.regex <;> rfl

/-- The expression of a query part is as long with the fallback as without the flag. -/
theorem sameLength_cleared (declaration : Declaration) (filling : String → String) (part : QueryPart) :
    SameLength declaration.fallback filling declaration declaration.cleared part := by
  rw [SameLength, regexOf_query (isStatic_cleared declaration), queryRegex_cleared]
  by_cases hbare : declaration.IsBareString part
  · obtain ⟨hfallback, hquery⟩ := regexOf_bareString hbare
    have hlength : "[^/]+".length = "[^&]+".length := by decide
    rw [hfallback, hquery, hlength]
  · rw [regexOf_fallback_query hbare]

theorem noBareString_of_agreesOn (filling : String → String)
    (h : ∀ pattern ∈ declaration.patterns, AgreesOn declaration.fallback filling declaration declaration.cleared pattern) :
    declaration.NoBareString := by
  intro pattern hpattern query hquery part hpart hbare
  have hsame := h pattern hpattern query hquery part hpart
  obtain ⟨hfallback, hregex⟩ := regexOf_bareString hbare
  rw [hfallback, regexOf_query (isStatic_cleared declaration), queryRegex_cleared, hregex] at hsame
  exact absurd hsame (by decide)

/-- Assumes: a declaration builds to a dynamic mapping, the producer of each dynamic parameter yields nothing for a view,
and the declaration without the flags builds too. The assembled text is the one that is compiled with the fallbacks in
place of the dynamic parameters. It is the text that is compiled without the flags if and only if no query part captures
a dynamic string for which nobody declares an expression, and then both mappings select, capture, clear and write the
same for each path. -/
theorem silent_assembly_iff {producers : Producers} {view : View} {fixed : Mapping}
    (hbuild : build declaration settings = .ok mapping) (hdynamic : mapping.isDynamic = true)
    (hsilent : ∀ descriptor ∈ declaration.parameters, descriptor.dynamic = true →
      ∃ producer, producers.lookup descriptor.name = some producer ∧ producer view = none)
    (hcleared : build declaration.cleared settings = .ok fixed) :
    ∃ text plain regex, mapping.assemble? producers view = .ok (.text text) ∧
      build (declaration.resolved declaration.fallback) settings = (mapping.regexOf (.text text)).map (fun regex ↦
        withSource (declaration.resolved declaration.fallback) settings mapping.patterns (.static text regex)) ∧
      fixed.source = .static plain regex ∧ (text = plain ↔ declaration.NoBareString) ∧
      (declaration.NoBareString → mapping.regexOf (.text text) = .ok regex ∧ fixed.patterns = mapping.patterns ∧
        ∀ path, fixed.select regex path = mapping.select regex path ∧
          (fixed.select regex path).cleared fixed = (mapping.select regex path).cleared mapping ∧
          ∀ others : Producers, (fixed.bind others view path).view = (mapping.bind producers view path).view ∧
            (fixed.bind others view path).result = (mapping.bind producers view path).result) := by
  let filling : String → String := fun _ ↦ ""
  have hagrees := agrees_cleared declaration filling
  obtain ⟨pieces, hsource⟩ := pieces_of_isDynamic hdynamic
  have hassemble : mapping.assemble? producers view = .ok (.text (pieces.fill declaration.fallback)) := by
    refine assemble?_of_resolve hbuild hsource fun name descriptor hfind hdescriptor ↦ ?_
    obtain ⟨producer, hproducer, hsilent⟩ := hsilent descriptor (List.mem_of_find?_eq_some hfind) hdescriptor
    rw [name_of_find? hfind] at hproducer
    exact resolve_of_silent hbuild hfind hproducer hsilent
  -- Without bare strings the text without the flags is the assembled text.
  have halike (hbare : declaration.NoBareString) := alike_of_build declaration.cleared hbuild rfl hagrees.shapes.symm rfl
    hassemble (build_filled hagrees rfl (fun pattern hpattern ↦ agreesOn_cleared (hbare pattern hpattern) filling)
      (isStatic_cleared declaration) hbuild hsource) hcleared
  obtain ⟨plain, regex, hstatic, hdiffer⟩ : ∃ plain regex, fixed.source = .static plain regex ∧
      (pieces.fill declaration.fallback = plain → declaration.NoBareString) := by
    obtain ⟨-, compiled, hcompiled, rfl, -⟩ := dynamic_parts hbuild hsource
    obtain ⟨-, others, source, hothers, hjoined, rfl⟩ := build_parts hcleared
    rw [sourceOf_of_static? (static?_join (isStatic_cleared declaration) hothers filling)] at hjoined
    cases hregex : compileRegex declaration.cleared.owner settings.regexSizeLimit
        ((join (others.map Prod.snd)).fill filling) with
    | error e =>
      rw [hregex] at hjoined
      cases hjoined
    | ok regex =>
      rw [hregex] at hjoined
      refine ⟨_, regex, (Except.ok.inj hjoined).symm, fun hsame ↦ noBareString_of_agreesOn filling ?_⟩
      exact agreesOn_of_fill_join hagrees hcompiled hothers
        (fun _ _ _ _ part _ ↦ sameLength_cleared declaration filling part) hsame
  refine ⟨_, plain, regex, hassemble, build_resolved hbuild hsource declaration.fallback, hstatic, ⟨hdiffer, fun hbare ↦ ?_⟩,
    fun hbare ↦ ?_⟩
  · obtain ⟨regex', -, hstatic', -⟩ := halike hbare
    cases hstatic.symm.trans hstatic'
    rfl
  · obtain ⟨regex', hregex', hstatic', hpatterns, hsame⟩ := halike hbare
    cases hstatic.symm.trans hstatic'
    exact ⟨hregex', hpatterns, hsame⟩

/-- A list with a search text whose expression is left to the view. -/
def searches : Declaration :=
  { owner := "Searches"
    parameters := [⟨"q", .string, none, true⟩]
    patterns := [⟨"list", ["q=:q"]⟩] }

/-- The search text of a silent view ends at a slash, so a text with a slash is lost. -/
theorem silent_searches : ∃ mapping fixed text plain regex own, build searches {} = .ok mapping ∧
    mapping.isDynamic = true ∧ build searches.cleared {} = .ok fixed ∧
    mapping.assemble? [("q", Producer.silent)] ⟨⟨.anyExcept [], false⟩, [], none⟩ = .ok (.text text) ∧
    mapping.regexOf (.text text) = .ok own ∧ fixed.source = .static plain regex ∧ text ≠ plain ∧
    (mapping.select own "/list?q=a/b").captured = [] ∧
    (fixed.select regex "/list?q=a/b").captured = [("q", "a/b")] := by
  have hbuilt : (build searches {}).toOption.any (fun mapping ↦ mapping.isDynamic &&
      (mapping.assemble? [("q", Producer.silent)] ⟨⟨.anyExcept [], false⟩, [], none⟩).toOption.any fun assembled ↦
        (mapping.regexOf assembled).toOption.any fun own ↦
          decide ((mapping.select own "/list?q=a/b").captured = [])) = true := by
    decide +kernel
  have hresolved : (build searches.cleared {}).toOption.any (fun fixed ↦
      (fixed.assemble? [] ⟨⟨.anyExcept [], false⟩, [], none⟩).toOption.any fun assembled ↦
        (fixed.regexOf assembled).toOption.any fun regex ↦
          decide ((fixed.select regex "/list?q=a/b").captured = [("q", "a/b")])) = true := by
    decide +kernel
  obtain ⟨mapping, hmapping, hany⟩ := (Option.any_eq_true _ _).mp hbuilt
  obtain ⟨hdynamic, hany⟩ := Bool.and_eq_true_iff.mp hany
  obtain ⟨assembled, hassembled, hany⟩ := (Option.any_eq_true _ _).mp hany
  obtain ⟨own, hown, hselect⟩ := (Option.any_eq_true _ _).mp hany
  obtain ⟨fixed, hfixed, hany⟩ := (Option.any_eq_true _ _).mp hresolved
  obtain ⟨complete, hcomplete, hany⟩ := (Option.any_eq_true _ _).mp hany
  obtain ⟨regex, hregex, hselect'⟩ := (Option.any_eq_true _ _).mp hany
  have hsilent : ∀ descriptor ∈ searches.parameters, descriptor.dynamic = true →
      ∃ producer, [("q", Producer.silent)].lookup descriptor.name = some producer ∧
        producer ⟨⟨.anyExcept [], false⟩, [], none⟩ = none := by
    intro descriptor hdescriptor _
    cases List.mem_singleton.mp hdescriptor
    exact ⟨_, rfl, rfl⟩
  have hbare : ¬ searches.NoBareString := fun hnone ↦
    hnone ⟨"list", ["q=:q"]⟩ List.mem_cons_self "q=:q" List.mem_cons_self ⟨"q", "q", none⟩ rfl ⟨rfl, _, rfl, rfl, rfl, rfl⟩
  obtain ⟨text, plain, regex', hassemble, -, hstatic, hiff, -⟩ :=
    silent_assembly_iff (eq_ok_of_toOption hmapping) hdynamic hsilent (eq_ok_of_toOption hfixed)
  cases (eq_ok_of_toOption hassembled).symm.trans hassemble
  cases (eq_ok_of_toOption hcomplete).symm.trans (assemble?_of_static hstatic _ _)
  cases eq_ok_of_toOption hregex
  exact ⟨mapping, fixed, text, plain, regex, own, eq_ok_of_toOption hmapping, hdynamic, eq_ok_of_toOption hfixed,
    hassemble, eq_ok_of_toOption hown, hstatic, fun hsame ↦ hbare (hiff.mp hsame), of_decide_eq_true hselect,
    of_decide_eq_true hselect'⟩

end Mapping

end PathBinding
