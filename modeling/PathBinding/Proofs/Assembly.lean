import PathBinding.Proofs.Binding
import PathBinding.Proofs.Refilling

/-!
What is assembled for the gaps of an expression. The text that is assembled for a view from the expressions of producers
is the text that is compiled for the declaration with these expressions in place of its dynamic parameters
(`Declaration.resolved`). So both select, capture, clear and write alike, and an occurrence with an expression of its own
keeps it (`assembly_eq_compilation`).
-/

set_option autoImplicit false
set_option relaxedAutoImplicit false

namespace PathBinding

/-- The parameter with a declared expression, if it was resolved at each match. -/
def Descriptor.resolved (expressions : String → String) (descriptor : Descriptor) : Descriptor :=
  if descriptor.dynamic then { descriptor with regex := some (expressions descriptor.name), dynamic := false }
  else descriptor

/-- The declaration with an expression for each dynamic parameter, none of which is dynamic any more. -/
def Declaration.resolved (expressions : String → String) (declaration : Declaration) : Declaration :=
  { declaration with parameters := declaration.parameters.map (Descriptor.resolved expressions) }

namespace Fragment

variable {declaration : Declaration} {expressions : String → String}

theorem shape_resolved (expressions : String → String) (descriptor : Descriptor) :
    (descriptor.resolved expressions).shape = descriptor.shape := by
  unfold Descriptor.resolved
  split <;> rfl

theorem name_of_find? {name : String} {descriptor : Descriptor} (h : declaration.find? name = some descriptor) :
    descriptor.name = name := by
  simpa using List.find?_some h

theorem find?_resolved (name : String) :
    (declaration.resolved expressions).find? name = (declaration.find? name).map (Descriptor.resolved expressions) := by
  have hname : (fun descriptor : Descriptor ↦ (descriptor.resolved expressions).name == name) = (·.name == name) :=
    funext fun descriptor ↦ congrArg (fun shape : String × Kind ↦ shape.1 == name) (shape_resolved expressions descriptor)
  refine List.find?_map.trans ?_
  exact congrArg (fun p ↦ (declaration.parameters.find? p).map (Descriptor.resolved expressions)) hname

theorem isStatic_resolved (declaration : Declaration) (expressions : String → String) :
    IsStatic (declaration.resolved expressions) := by
  intro descriptor hdescriptor
  obtain ⟨original, -, rfl⟩ := List.mem_map.mp hdescriptor
  unfold Descriptor.resolved
  split
  · rfl
  · next hstatic => exact Bool.eq_false_iff.mpr hstatic

/-- With the expressions in its gaps, a declaration asks for what the resolved declaration asks for. -/
theorem regexOf_resolved (filling : String → String) (inQuery : Bool) (name : String) (inline? : Option String) :
    regexOf declaration expressions inQuery name inline? =
      regexOf (declaration.resolved expressions) filling inQuery name inline? := by
  cases inline? with
  | some regex => rfl
  | none =>
    simp only [regexOf, find?_resolved]
    cases hfind : declaration.find? name with
    | none => rfl
    | some descriptor =>
      simp only [Option.map_some, Descriptor.resolved]
      cases hdynamic : descriptor.dynamic with
      | true => simp [effectiveRegex, name_of_find? hfind]
      | false => simp [hdynamic]

theorem agrees_resolved (declaration : Declaration) (expressions filling : String → String) :
    Agrees expressions filling declaration (declaration.resolved expressions) where
  owner := rfl
  shapes := by
    rw [Declaration.resolved, List.map_map]
    exact List.map_congr_left fun descriptor _ ↦ (shape_resolved expressions descriptor).symm
  path name := regexOf_resolved filling false name none

/-! ### Inline expressions -/

theorem mem_inlined {occurrences : List (String × Option String)} {p : String × String} :
    p ∈ inlined occurrences ↔ (p.1, some p.2) ∈ occurrences := by
  rw [inlined, List.mem_filterMap]
  constructor
  · rintro ⟨⟨name, inline?⟩, hmem, hsome⟩
    obtain ⟨regex, rfl, rfl⟩ := Option.map_eq_some_iff.mp hsome
    exact hmem
  · exact fun hmem ↦ ⟨_, hmem, rfl⟩

mutual

theorem infix_segmentText {context : Context} {filling : String → String} {name regex : String} {segment : Segment}
    (h : (name, some regex) ∈ segment.placeholders) :
    (groupText context.index name regex).toList <:+: (segmentText context filling segment).toList := by
  cases segment with
  | literal text => cases h
  | placeholder own inline? =>
    cases List.mem_singleton.mp h
    exact List.infix_rfl
  | positional index => cases h
  | optional inner =>
    rw [segmentText, String.toList_append, String.toList_append]
    exact (infix_segmentsText h).trans (List.infix_append _ _ _)

/-- The group of an occurrence with an expression of its own stands in the text of a path. -/
theorem infix_segmentsText {context : Context} {filling : String → String} {name regex : String} {path : List Segment}
    (h : (name, some regex) ∈ Segment.placeholdersAll path) :
    (groupText context.index name regex).toList <:+: (segmentsText context filling path).toList := by
  cases path with
  | nil => cases h
  | cons segment rest =>
    rw [segmentsText, String.toList_append]
    rcases List.mem_append.mp h with h | h
    · exact (infix_segmentText h).trans (List.prefix_append _ _).isInfix
    · exact (infix_segmentsText h).trans (List.suffix_append _ _).isInfix

end

theorem infix_join {text : String} {texts : List String} (h : text ∈ texts) :
    text.toList <:+: (String.join texts).toList := by
  obtain ⟨before, after, rfl⟩ := List.append_of_mem h
  rw [String.join_append, String.join_cons, String.toList_append, String.toList_append, ← List.append_assoc]
  exact List.infix_append _ _ _

theorem infix_fragmentText (context : Context) (filling : String → String) {path : List Segment}
    {parts : List QueryPart} {p : String × String}
    (h : p ∈ inlined (Segment.placeholdersAll path ++ parts.map QueryPart.occurrence)) :
    (groupText context.index p.1 p.2).toList <:+: (fragmentText context filling path parts).toList := by
  rcases List.mem_append.mp (mem_inlined.mp h) with h | h
  · have hpath : (groupText context.index p.1 p.2).toList <:+: (segmentsText context filling path).toList :=
      infix_segmentsText h
    refine hpath.trans ⟨("(?P<" ++ Definition.fragmentName context.index ++ ">").toList,
      ("\\?(?:(?:" ++ String.join (parts.map fun part ↦ part.text context filling ++ "|") ++ "[^&]*)&)*)").toList, ?_⟩
    simp only [fragmentText, String.toList_append, List.append_assoc]
  · obtain ⟨part, hpart, hoccurrence⟩ := List.mem_map.mp h
    have htext : (groupText context.index p.1 p.2).toList <:+: (part.text context filling ++ "|").toList := by
      obtain ⟨hname, hinline⟩ := Prod.mk.inj hoccurrence
      refine ⟨(Regex.escape part.key ++ "=").toList, ['|'], ?_⟩
      rw [QueryPart.text, hname, hinline]
      simp [String.toList_append, regexOf]
    have hparts := infix_join (List.mem_map_of_mem (f := fun part ↦ part.text context filling ++ "|") hpart)
    refine (htext.trans hparts).trans ⟨("(?P<" ++ Definition.fragmentName context.index ++ ">" ++
      segmentsText context filling path ++ "\\?(?:(?:").toList, "[^&]*)&)*)".toList, ?_⟩
    simp only [fragmentText, String.toList_append, List.append_assoc]

end Fragment

namespace Mapping

open Fragment

variable {declaration : Declaration} {settings : Settings} {mapping : Mapping} {pieces : Pieces}

/-- An occurrence with an expression of its own keeps it, whatever fills the gaps. -/
theorem infix_of_inlineRegexes (hbuild : build declaration settings = .ok mapping)
    (hsource : mapping.source = .dynamic pieces) (filling : String → String) :
    ∀ definition ∈ mapping.patterns, ∀ p ∈ definition.inlineRegexes,
      (groupText definition.index p.1 p.2).toList <:+: (pieces.fill filling).toList := by
  intro definition hdefinition p hp
  obtain ⟨-, compiled, hcompiled, rfl, rfl⟩ := dynamic_parts hbuild hsource
  obtain ⟨c, hc, rfl⟩ := List.mem_map.mp hdefinition
  obtain ⟨i, hi⟩ := List.mem_iff_getElem?.mp hc
  obtain ⟨pattern, -, hok⟩ := compile_of_compileFrom hcompiled hi
  obtain ⟨path, parts, -, -, -, -, -, hindex, -, hinline, hfill⟩ := compile_ok filling hok
  have hfragment : (groupText c.1.index p.1 p.2).toList <:+: (c.2.fill filling).toList := by
    rw [hinline] at hp
    rw [hfill, hindex]
    exact infix_fragmentText ⟨declaration, pattern.pattern, 0 + i⟩ filling hp
  exact hfragment.trans (infix_join filling (List.mem_map_of_mem (f := Prod.snd) hc))

/-- The text that is assembled if each gap is resolved. -/
theorem assemble?_of_resolve (hbuild : build declaration settings = .ok mapping)
    (hsource : mapping.source = .dynamic pieces) {producers : Producers} {view : View} {expressions : String → String}
    (hresolve : ∀ name descriptor, declaration.find? name = some descriptor → descriptor.dynamic = true →
      mapping.resolve producers view name = .ok (expressions name)) :
    mapping.assemble? producers view = .ok (.text (pieces.fill expressions)) := by
  obtain ⟨-, compiled, hcompiled, hpieces, -⟩ := dynamic_parts hbuild hsource
  have hslots : ∀ slot ∈ pieces.slots, IsDynamic declaration slot := hpieces ▸ isDynamic_of_mem_slots_join hcompiled
  unfold assemble?
  rw [hsource]
  dsimp only
  rw [Pieces.assemble_of_slots expressions fun slot hslot ↦ ?_]
  · rfl
  · obtain ⟨descriptor, hfind, hdynamic⟩ := hslots slot hslot
    exact hresolve slot descriptor hfind hdynamic

theorem resolve_of_producer (hbuild : build declaration settings = .ok mapping) {producers : Producers} {view : View}
    {name : String} {descriptor : Descriptor} {producer : Producer} (hfind : declaration.find? name = some descriptor)
    (hproducer : producers.lookup name = some producer) : mapping.resolve producers view name =
      match producer view with
      | some regex => .ok regex
      | none => descriptor.fallbackRegex declaration.owner := by
  obtain ⟨-, compiled, source, -, -, rfl⟩ := build_parts hbuild
  have hfind' : (withSource declaration settings (compiled.map Prod.fst) source).find? name = some descriptor := hfind
  unfold resolve
  rw [hfind', hproducer]
  rfl

/-- A mapping with gaps and a mapping without that match with the same expression. -/
theorem alike_of_regexOf {fixed : Mapping} (hpatterns : fixed.patterns = mapping.patterns)
    (hselection : fixed.selection = mapping.selection)
    (hshapes : fixed.parameters.map Descriptor.shape = mapping.parameters.map Descriptor.shape)
    (howner : fixed.owner = mapping.owner) (hnoMatch : fixed.noMatch = mapping.noMatch) {producers : Producers}
    {view : View} {assembled : Assembly} {text : String} {regex : Regex}
    (hassemble : mapping.assemble? producers view = .ok assembled) (hregex : mapping.regexOf assembled = .ok regex)
    (hstatic : fixed.source = .static text regex) (path : String) :
    fixed.select regex path = mapping.select regex path ∧
      (fixed.select regex path).cleared fixed = (mapping.select regex path).cleared mapping ∧
      ∀ others : Producers, (fixed.bind others view path).view = (mapping.bind producers view path).view ∧
        (fixed.bind others view path).result = (mapping.bind producers view path).result := by
  have hselect : fixed.select regex path = mapping.select regex path := by
    have hchoose : fixed.choose = mapping.choose := by
      funext t
      unfold choose
      rw [hpatterns, hselection]
    rw [select, select, select?, select?, hchoose]
  have hnames : fixed.parameters.map (·.name) = mapping.parameters.map (·.name) := by
    have hmapped := congrArg (List.map Prod.fst) hshapes
    rwa [List.map_map, List.map_map] at hmapped
  refine ⟨hselect, by rw [hselect, Selection.cleared, Selection.cleared, hnames], fun others ↦ ?_⟩
  rw [bind_of_static hstatic, bind_of_regexOf hassemble hregex, hselect, apply_congr hshapes howner hnoMatch]
  exact ⟨rfl, rfl⟩

/-- The expression of a mapping is rejected exactly where the mapping without gaps is not built. -/
theorem bind_invalidRegex_iff {producers : Producers} {view : View} {text : String}
    (hassemble : mapping.assemble? producers view = .ok (.text text))
    {built : Except Error Mapping} {complete : Regex → Mapping}
    (hbuilt : built = (mapping.regexOf (.text text)).map complete) (path : String) :
    (mapping.bind producers view path).result = .error (.invalidRegex mapping.owner) ↔
      built = .error (.invalidRegex mapping.owner) := by
  cases hregex : mapping.regexOf (.text text) with
  | ok regex =>
    rw [hbuilt, hregex, bind_of_regexOf hassemble hregex]
    dsimp only
    constructor
    · intro hresult
      rcases isRefusal_apply hresult with hfault | hfault <;> cases hfault
    · exact nofun
  | error e =>
    rw [hbuilt, hregex, bind_of_rejected hassemble hregex]
    constructor
    · intro hresult
      cases hresult
      rfl
    · intro hresult
      cases hresult
      rfl

theorem pieces_of_isDynamic (h : mapping.isDynamic = true) : ∃ pieces, mapping.source = .dynamic pieces := by
  unfold isDynamic at h
  split at h
  · cases h
  · next pieces hsource => exact ⟨pieces, hsource⟩

/-- The resolved declaration compiles to the filled text. -/
theorem build_resolved (hbuild : build declaration settings = .ok mapping) (hsource : mapping.source = .dynamic pieces)
    (expressions : String → String) :
    build (declaration.resolved expressions) settings =
      (mapping.regexOf (.text (pieces.fill expressions))).map fun regex ↦
        withSource (declaration.resolved expressions) settings mapping.patterns
          (.static (pieces.fill expressions) regex) := by
  have hquery : ∀ pattern ∈ declaration.patterns,
      AgreesOn expressions (fun _ ↦ "") declaration (declaration.resolved expressions) pattern :=
    fun _ _ _ _ part _ ↦ regexOf_resolved _ true part.name part.inline?
  exact build_filled (agrees_resolved declaration expressions _) rfl hquery (isStatic_resolved declaration expressions)
    hbuild hsource

/-- A declaration without gaps that compiles to the assembled text has a mapping that matches alike. -/
theorem alike_of_build (other : Declaration) {fixed : Mapping} {producers : Producers} {view : View} {text : String}
    (hbuild : build declaration settings = .ok mapping) (howner : other.owner = declaration.owner)
    (hshapes : other.parameters.map Descriptor.shape = declaration.parameters.map Descriptor.shape)
    (hnoMatch : other.noMatch = declaration.noMatch) (hassemble : mapping.assemble? producers view = .ok (.text text))
    (hbuilt : build other settings = (mapping.regexOf (.text text)).map fun regex ↦
      withSource other settings mapping.patterns (.static text regex)) (hfixed : build other settings = .ok fixed) :
    ∃ regex, mapping.regexOf (.text text) = .ok regex ∧ fixed.source = .static text regex ∧
      fixed.patterns = mapping.patterns ∧ ∀ path,
        fixed.select regex path = mapping.select regex path ∧
        (fixed.select regex path).cleared fixed = (mapping.select regex path).cleared mapping ∧
        ∀ others : Producers, (fixed.bind others view path).view = (mapping.bind producers view path).view ∧
          (fixed.bind others view path).result = (mapping.bind producers view path).result := by
  cases hregex : mapping.regexOf (.text text) with
  | error e =>
    rw [hbuilt, hregex] at hfixed
    cases hfixed
  | ok regex =>
    rw [hbuilt, hregex] at hfixed
    have hfixed := Except.ok.inj hfixed
    have hstatic : fixed.source = .static text regex := hfixed ▸ rfl
    have hpatterns : fixed.patterns = mapping.patterns := hfixed ▸ rfl
    obtain ⟨-, compiled, source, -, -, hmapping⟩ := build_parts hbuild
    refine ⟨regex, rfl, hstatic, hpatterns, alike_of_regexOf hpatterns (hfixed ▸ hmapping ▸ rfl) ?_ ?_ ?_ hassemble hregex
      hstatic⟩
    · rw [← hfixed, ← hmapping]
      exact hshapes
    · rw [← hfixed, ← hmapping]
      exact howner
    · rw [← hfixed, ← hmapping]
      exact congrArg (·.getD settings.defaultNoMatch) hnoMatch

/-- Assumes: a declaration builds to a dynamic mapping, and the producer of each dynamic parameter yields an expression
for a view. A text is assembled, and the declaration with these expressions in place of its dynamic parameters compiles
to the same text, or fails with an invalid expression exactly if the match does. Occurrences with an expression of their
own keep it. Both mappings have the same patterns and select, capture, clear and write the same for each path. -/
theorem assembly_eq_compilation {producers : Producers} {view : View} {expressions : String → String}
    (hbuild : build declaration settings = .ok mapping) (hdynamic : mapping.isDynamic = true)
    (hproducers : ∀ descriptor ∈ declaration.parameters, descriptor.dynamic = true →
      ∃ producer, producers.lookup descriptor.name = some producer ∧
        producer view = some (expressions descriptor.name)) :
    ∃ text, mapping.assemble? producers view = .ok (.text text) ∧
      build (declaration.resolved expressions) settings = (mapping.regexOf (.text text)).map (fun regex ↦
        withSource (declaration.resolved expressions) settings mapping.patterns (.static text regex)) ∧
      (∀ definition ∈ mapping.patterns, ∀ p ∈ definition.inlineRegexes,
        (groupText definition.index p.1 p.2).toList <:+: text.toList) ∧
      (∀ path, (mapping.bind producers view path).result = .error (.invalidRegex declaration.owner) ↔
        build (declaration.resolved expressions) settings = .error (.invalidRegex declaration.owner)) ∧
      ∀ fixed, build (declaration.resolved expressions) settings = .ok fixed →
        ∃ regex, mapping.regexOf (.text text) = .ok regex ∧ fixed.source = .static text regex ∧
          fixed.patterns = mapping.patterns ∧ ∀ path,
            fixed.select regex path = mapping.select regex path ∧
            (fixed.select regex path).cleared fixed = (mapping.select regex path).cleared mapping ∧
            ∀ others : Producers, (fixed.bind others view path).view = (mapping.bind producers view path).view ∧
              (fixed.bind others view path).result = (mapping.bind producers view path).result := by
  obtain ⟨pieces, hsource⟩ := pieces_of_isDynamic hdynamic
  have hassemble : mapping.assemble? producers view = .ok (.text (pieces.fill expressions)) := by
    refine assemble?_of_resolve hbuild hsource fun name descriptor hfind hdescriptor ↦ ?_
    obtain ⟨producer, hproducer, hyields⟩ := hproducers descriptor (List.mem_of_find?_eq_some hfind) hdescriptor
    rw [name_of_find? hfind] at hproducer hyields
    rw [resolve_of_producer hbuild hfind hproducer, hyields]
  have hbuilt := build_resolved hbuild hsource expressions
  have howner : mapping.owner = declaration.owner := by
    obtain ⟨-, compiled, source, -, -, rfl⟩ := build_parts hbuild
    rfl
  have hshapes := (agrees_resolved declaration expressions expressions).shapes.symm
  exact ⟨pieces.fill expressions, hassemble, hbuilt, infix_of_inlineRegexes hbuild hsource expressions,
    howner ▸ bind_invalidRegex_iff hassemble hbuilt,
    fun _ ↦ alike_of_build (declaration.resolved expressions) hbuild rfl hshapes rfl hassemble hbuilt⟩

/-- Tabs whose names are known to the view only, apart from two that are always there. -/
def tabs : Declaration :=
  { owner := "Tabs"
    parameters := [⟨"tab", .string, none, true⟩, ⟨"page", .integer, none, false⟩]
    patterns := [⟨"tab/:tab", ["page=:page"]⟩, ⟨"fixed/:tab:all|none:", []⟩] }

/-- The mapping of tabs matches as the mapping with the names in place does. -/
theorem assembly_tabs : ∃ mapping fixed text regex, build tabs {} = .ok mapping ∧ mapping.isDynamic = true ∧
    mapping.assemble? [("tab", Producer.constant "inbox|sent")] ⟨⟨.anyExcept [], false⟩, [], none⟩ = .ok (.text text) ∧
    build (tabs.resolved fun _ ↦ "inbox|sent") {} = .ok fixed ∧ fixed.source = .static text regex ∧
    (mapping.select regex "/tab/sent?page=2").captured = [("tab", "sent"), ("page", "2")] := by
  have hbuilt : (build tabs {}).toOption.any isDynamic = true := by decide +kernel
  have hresolved : (build (tabs.resolved fun _ ↦ "inbox|sent") {}).toOption.any (fun fixed ↦
      (fixed.assemble? [] ⟨⟨.anyExcept [], false⟩, [], none⟩).toOption.any fun assembled ↦
        (fixed.regexOf assembled).toOption.any fun regex ↦
          (fixed.select regex "/tab/sent?page=2").captured = [("tab", "sent"), ("page", "2")]) = true := by
    decide +kernel
  obtain ⟨mapping, hmapping, hdynamic⟩ := (Option.any_eq_true _ _).mp hbuilt
  obtain ⟨fixed, hfixed, hany⟩ := (Option.any_eq_true _ _).mp hresolved
  obtain ⟨assembled, hassembled, hany⟩ := (Option.any_eq_true _ _).mp hany
  obtain ⟨regex, hregex, hselect⟩ := (Option.any_eq_true _ _).mp hany
  have hproducers : ∀ descriptor ∈ tabs.parameters, descriptor.dynamic = true →
      ∃ producer, [("tab", Producer.constant "inbox|sent")].lookup descriptor.name = some producer ∧
        producer ⟨⟨.anyExcept [], false⟩, [], none⟩ = some "inbox|sent" := by
    intro descriptor hdescriptor hdynamic
    rcases List.mem_cons.mp hdescriptor with rfl | hdescriptor
    · exact ⟨_, rfl, rfl⟩
    · cases List.mem_singleton.mp hdescriptor
      cases hdynamic
  obtain ⟨text, hassemble, -, -, -, hall⟩ := @assembly_eq_compilation tabs {} mapping
    [("tab", Producer.constant "inbox|sent")] ⟨⟨.anyExcept [], false⟩, [], none⟩ (fun _ ↦ "inbox|sent")
    (eq_ok_of_toOption hmapping) hdynamic hproducers
  obtain ⟨regex', -, hstatic, -, hsame⟩ := hall fixed (eq_ok_of_toOption hfixed)
  cases (eq_ok_of_toOption hassembled).symm.trans (assemble?_of_static hstatic _ _)
  cases eq_ok_of_toOption hregex
  refine ⟨mapping, fixed, text, regex, eq_ok_of_toOption hmapping, hdynamic, hassemble, eq_ok_of_toOption hfixed,
    hstatic, ?_⟩
  rw [← (hsame "/tab/sent?page=2").1]
  exact of_decide_eq_true hselect

end Mapping

end PathBinding
