import PathBinding.Proofs.Mapping

/-!
What is wrong with a declaration. All faults are listed in the order in which a declaration is read: the parameters, then
the patterns with the items of each path and its query from left to right (`Fragment.faults`), then the joined expression
(`Mapping.faults`). Each part of a build fails exactly with the first fault of its own part (`Tells`), so a build fails
exactly with the first fault of all (`Mapping.build_tells`).
-/

set_option autoImplicit false
set_option relaxedAutoImplicit false

namespace PathBinding

section Tells

variable {α β : Type} {x : Except Error α} {f : α → Except Error β} {faults more : List Error}

/-- A computation fails exactly with the first of these faults. -/
def Tells (x : Except Error α) (faults : List Error) : Prop :=
  ∀ e, x = .error e ↔ faults.head? = some e

theorem tells_ok (a : α) : Tells (.ok a) [] :=
  fun _ ↦ iff_of_false nofun nofun

theorem tells_error (e : Error) (more : List Error) : Tells (.error e : Except Error α) (e :: more) := by
  intro other
  rw [List.head?_cons, Except.error.injEq, Option.some.injEq]

theorem Tells.bind (hx : Tells x faults) (hf : ∀ a, x = .ok a → Tells (f a) more) : Tells (x >>= f) (faults ++ more) := by
  intro e
  cases x with
  | error fault =>
    have hhead := (hx fault).mp rfl
    rw [List.head?_append, hhead, Option.some_or, Option.some.injEq]
    change Except.error fault = _ ↔ _
    rw [Except.error.injEq]
  | ok a =>
    have hnone : faults = [] := by
      cases faults with
      | nil => rfl
      | cons first rest => exact nomatch (hx first).mpr rfl
    rw [hnone]
    exact hf a rfl e

theorem Tells.map (hx : Tells x faults) (g : α → β) : Tells (x.map g) faults := by
  intro e
  rw [← hx e]
  cases x with
  | error fault =>
    change Except.error fault = _ ↔ _
    rw [Except.error.injEq, Except.error.injEq]
  | ok a => exact iff_of_false nofun nofun

theorem Tells.ok_iff (hx : Tells x faults) : (∃ a, x = .ok a) ↔ faults = [] := by
  cases x with
  | error fault =>
    refine iff_of_false nofun ?_
    rintro rfl
    exact nomatch (hx fault).mp rfl
  | ok a =>
    refine iff_of_true ⟨a, rfl⟩ ?_
    cases faults with
    | nil => rfl
    | cons first rest => exact nomatch (hx first).mpr rfl

end Tells

section Scan

variable {α β : Type} {judge : List α → α → List β}

/-- What is found in items from left to right, where each item is judged with those before it. -/
def scan (judge : List α → α → List β) : List α → List α → List β
  | _, [] => []
  | before, item :: rest => judge before item ++ scan judge (before ++ [item]) rest

theorem scan_append (before items others : List α) : scan judge before (items ++ others) =
    scan judge before items ++ scan judge (before ++ items) others := by
  induction items generalizing before with
  | nil => rw [List.append_nil]; rfl
  | cons item rest ih =>
    rw [List.cons_append, scan, scan, ih, List.append_assoc, List.append_assoc, List.singleton_append]

/-- Nothing is found exactly if no item is found fault with. -/
theorem scan_eq_nil_iff {before items : List α} : scan judge before items = [] ↔
    ∀ first item last, items = first ++ item :: last → judge (before ++ first) item = [] := by
  induction items generalizing before with
  | nil => exact iff_of_true rfl fun first item last h ↦ by cases first <;> cases h
  | cons item rest ih =>
    rw [scan, List.append_eq_nil_iff, ih]
    constructor
    · rintro ⟨hitem, hrest⟩ first other last h
      cases first with
      | nil =>
        cases h
        rwa [List.append_nil]
      | cons head first =>
        obtain ⟨rfl, hsplit⟩ := List.cons.inj h
        have hother := hrest first other last hsplit
        rwa [List.append_assoc, List.singleton_append] at hother
    · intro h
      refine ⟨?_, fun first other last hsplit ↦ ?_⟩
      · have hitem := h [] item rest rfl
        rwa [List.append_nil] at hitem
      · rw [List.append_assoc, List.singleton_append]
        exact h (item :: first) other last (congrArg (item :: ·) hsplit)

theorem exists_of_mem_scan {before items : List α} {found : β} (h : found ∈ scan judge before items) :
    ∃ first item, found ∈ judge first item := by
  induction items generalizing before with
  | nil => cases h
  | cons item rest ih =>
    rcases List.mem_append.mp h with h | h
    · exact ⟨before, item, h⟩
    · exact ih h

end Scan

/-! ### Parameters -/

namespace Mapping

variable {declaration : Declaration} {settings : Settings}

/-- A parameter has a name of its own and is of a known kind. -/
def descriptorFaults (owner : String) (before : List Descriptor) (descriptor : Descriptor) : List Error :=
  (if descriptor.name ∈ before.map Descriptor.name then [.duplicateParameter descriptor.name owner] else []) ++
    match descriptor.kind with
    | .other typeName => [.unsupportedType typeName descriptor.name owner]
    | _ => []

theorem tells_requireDefaultRegex (kind : Kind) (parameter owner : String) :
    Tells (kind.requireDefaultRegex parameter owner)
      (match kind with
        | .other typeName => [.unsupportedType typeName parameter owner]
        | _ => []) := by
  cases kind with
  | other typeName => exact tells_error _ _
  | _ => exact tells_ok _

theorem tells_checkDescriptors {owner : String} {seen : List String} {before descriptors : List Descriptor}
    (hseen : ∀ name, name ∈ seen ↔ name ∈ before.map Descriptor.name) :
    Tells (checkDescriptors owner seen descriptors) (scan (descriptorFaults owner) before descriptors) := by
  induction descriptors generalizing seen before with
  | nil => exact tells_ok ()
  | cons descriptor rest ih =>
    rw [checkDescriptors, scan, descriptorFaults]
    by_cases hname : descriptor.name ∈ seen
    · rw [if_pos hname, if_pos ((hseen _).mp hname)]
      exact tells_error _ _
    · rw [if_neg hname, if_neg (mt (hseen _).mpr hname), List.nil_append]
      refine (tells_requireDefaultRegex _ _ _).bind fun _ _ ↦ ih fun name ↦ ?_
      rw [List.mem_cons, List.map_append, List.mem_append, hseen, List.map_singleton, List.mem_singleton, or_comm]

end Mapping

/-! ### Patterns -/

namespace Fragment

/-- What a pattern is checked for, from left to right. -/
inductive Item
  | occurrence (name : String)
  | position (index : Nat)
  | query (text : String)

mutual

def items : Segment → List Item
  | .literal _ => []
  | .placeholder name _ => [.occurrence name]
  | .positional index => [.position index]
  | .optional inner => itemsAll inner

def itemsAll : List Segment → List Item
  | [] => []
  | segment :: rest => items segment ++ itemsAll rest

end

/-- The parameters that an item mentions. -/
def Item.names : Item → List String
  | .occurrence name => [name]
  | .position _ => []
  | .query text => (queryPart? text).toList.map QueryPart.name

section

variable (declaration : Declaration) (raw : String)

/-- An occurrence is one of a declared parameter that the pattern has not mentioned before. -/
def occurrenceFaults (seen : List String) (name : String) : List Error :=
  (if (declaration.find? name).isSome then [] else [.unknownParameter name raw declaration.owner]) ++
    if name ∈ seen then [.duplicateParameter name declaration.owner] else []

/-- A query declaration is a key, an equals sign and a single placeholder. -/
def queryFaults (seen : List String) (query : String) : List Error :=
  match splitPair? query with
  | none => [.invalidPattern query (.query raw .missingSeparator)]
  | some (key, value) =>
    (if isQueryKey key then [] else [.invalidPattern query (.query raw .invalidKey)]) ++
      match Segment.parse value with
      | .error e => [e]
      | .ok [.placeholder name _] => occurrenceFaults declaration raw seen name
      | .ok _ => [.invalidPattern query (.query raw .notPlaceholder)]

def itemFaults (before : List Item) : Item → List Error
  | .occurrence name => occurrenceFaults declaration raw (before.flatMap Item.names) name
  | .position index => [.invalidPattern raw (.positional index)]
  | .query text => queryFaults declaration raw (before.flatMap Item.names) text

end

/-- What is wrong with a pattern: its path cannot be read, or items of the path and the query are at fault. -/
def faults (declaration : Declaration) (pattern : PatternDeclaration) : List Error :=
  match Segment.parse (rooted pattern.pattern) with
  | .error e => [e]
  | .ok path => scan (itemFaults declaration pattern.pattern) [] (itemsAll path ++ pattern.query.map Item.query)

/-- All parameters of a declaration are of kinds that have expressions. -/
def HasKinds (declaration : Declaration) : Prop :=
  ∀ descriptor ∈ declaration.parameters, ∃ default, descriptor.kind.defaultRegex? = some default

mutual

theorem names_items (segment : Segment) : (items segment).flatMap Item.names = segment.placeholders.map Prod.fst := by
  cases segment with
  | literal text => rfl
  | placeholder name regex => rfl
  | positional index => rfl
  | optional inner => exact names_itemsAll inner

theorem names_itemsAll (segments : List Segment) :
    (itemsAll segments).flatMap Item.names = (Segment.placeholdersAll segments).map Prod.fst := by
  cases segments with
  | nil => rfl
  | cons segment rest =>
    rw [itemsAll, List.flatMap_append, names_items, names_itemsAll, Segment.placeholdersAll, List.map_append]

end

section Tells

variable {context : Context} {draft : Draft} {before : List Item}

theorem tells_placeholder (hkinds : HasKinds context.declaration) (name : String) (inline? : Option String)
    (inQuery : Bool) : Tells (placeholder context name inline? inQuery draft)
      (occurrenceFaults context.declaration context.raw draft.parameters name) := by
  unfold occurrenceFaults
  cases hfind : context.declaration.find? name with
  | none =>
    rw [placeholder, hfind]
    exact tells_error _ _
  | some descriptor =>
    obtain ⟨default, hdefault⟩ := hkinds descriptor (List.mem_of_find?_eq_some hfind)
    have hrequire : descriptor.kind.requireDefaultRegex name context.declaration.owner = .ok default := by
      rw [Kind.requireDefaultRegex, hdefault]
    rw [placeholder, hfind]
    have hkind : Tells (descriptor.kind.requireDefaultRegex name context.declaration.owner) [] := by
      rw [hrequire]
      exact tells_ok default
    refine hkind.bind fun _ _ ↦ ?_
    by_cases hname : name ∈ draft.parameters
    · simp only [hname, if_true]
      exact tells_error _ _
    · simp only [hname, if_false]
      exact tells_ok _

mutual

theorem tells_segment {context : Context} {draft : Draft} {before : List Item} (hkinds : HasKinds context.declaration)
    (hbefore : draft.parameters = before.flatMap Item.names) (segment : Segment) :
    Tells (Fragment.segment context draft segment)
      (scan (itemFaults context.declaration context.raw) before (items segment)) := by
  cases segment with
  | literal text => exact tells_ok _
  | placeholder name inline? =>
    rw [Fragment.segment, items, scan, scan, List.append_nil, itemFaults, ← hbefore]
    exact tells_placeholder hkinds name inline? false
  | positional index => exact tells_error _ _
  | optional inner =>
    rw [Fragment.segment, items, ← List.append_nil (scan _ _ _)]
    have hopened : (draft.text "(?:").parameters = before.flatMap Item.names := hbefore
    exact (tells_segments hkinds hopened inner).bind fun inside _ ↦ tells_ok (inside.text ")?")

/-- Segments fail with the first fault of their items. -/
theorem tells_segments {context : Context} {draft : Draft} {before : List Item} (hkinds : HasKinds context.declaration)
    (hbefore : draft.parameters = before.flatMap Item.names) (segments : List Segment) :
    Tells (Fragment.segments context draft segments)
      (scan (itemFaults context.declaration context.raw) before (itemsAll segments)) := by
  cases segments with
  | nil => exact tells_ok _
  | cons segment rest =>
    rw [Fragment.segments, itemsAll, scan_append]
    refine (tells_segment hkinds hbefore segment).bind fun next hnext ↦ tells_segments hkinds ?_ rest
    obtain ⟨-, hparameters, -⟩ := fill_segment (fun _ ↦ "") hnext
    rw [hparameters, hbefore, List.flatMap_append, names_items]

end

theorem tells_queryBranch (hkinds : HasKinds context.declaration) (query : String) :
    Tells (queryBranch context draft query)
      (queryFaults context.declaration context.raw draft.parameters query) := by
  unfold queryBranch queryFaults
  cases splitPair? query with
  | none => exact tells_error _ _
  | some pair =>
    obtain ⟨key, value⟩ := pair
    dsimp only
    cases isQueryKey key with
    | false => exact tells_error _ _
    | true =>
      cases Segment.parse value with
      | error e => exact tells_error _ _
      | ok segments =>
        let start : Draft := ({ draft with pieces := [] }.text (Regex.escape key)).text "="
        have hstart : start.parameters = draft.parameters := by
          rw [Draft.text_parameters, Draft.text_parameters]
        have hoccurrence (name : String) (regex : Option String) :
            Tells (placeholder context name regex true start >>=
              fun branch ↦ pure ({ branch with pieces := draft.pieces }, branch.pieces))
              (occurrenceFaults context.declaration context.raw draft.parameters name ++ []) := by
          rw [← hstart]
          exact (tells_placeholder hkinds name regex true).bind fun branch _ ↦ tells_ok _
        cases segments with
        | nil => exact tells_error _ _
        | cons segment rest =>
          cases segment with
          | placeholder name regex =>
            cases rest with
            | nil =>
              have h := hoccurrence name regex
              rwa [List.append_nil] at h
            | cons next rest => exact tells_error _ _
          | _ => exact tells_error _ _

theorem names_query {draft next : Draft} {query : String} {branch : Pieces}
    (h : queryBranch context draft query = .ok (next, branch)) :
    next.parameters = draft.parameters ++ (Item.query query).names := by
  obtain ⟨part, hpart, -, -, hparameters, -⟩ := fill_queryBranch (fun _ ↦ "") h
  rw [hparameters, Item.names, hpart]
  rfl

/-- Query declarations fail with the first fault among them. -/
theorem tells_queryBranches (hkinds : HasKinds context.declaration)
    (hbefore : draft.parameters = before.flatMap Item.names) (queries : List String) :
    Tells (queryBranches context draft queries)
      (scan (itemFaults context.declaration context.raw) before (queries.map Item.query)) := by
  induction queries generalizing draft before with
  | nil => exact tells_ok _
  | cons query rest ih =>
    rw [queryBranches, List.map_cons, scan, itemFaults, ← hbefore]
    refine (tells_queryBranch hkinds query).bind fun p hp ↦ ?_
    obtain ⟨next, branch⟩ := p
    rw [← List.append_nil (scan _ _ _)]
    refine (ih ?_).bind fun _ _ ↦ tells_ok _
    rw [names_query hp, hbefore, List.flatMap_append, List.flatMap_singleton]

/-- A pattern fails to compile with the first of its faults. -/
theorem tells_compile {declaration : Declaration} (hkinds : HasKinds declaration) (pattern : PatternDeclaration)
    (index : Nat) : Tells (compile declaration pattern index) (faults declaration pattern) := by
  unfold compile faults
  cases Segment.parse (rooted pattern.pattern) with
  | error e => exact tells_error _ _
  | ok path =>
    dsimp only
    rw [scan_append, List.nil_append]
    let context : Context := ⟨declaration, pattern.pattern, index⟩
    have hkinds : HasKinds context.declaration := hkinds
    have hopened : (({} : Draft).text s!"(?P<{Definition.fragmentName index}>").parameters =
        ([] : List Item).flatMap Item.names := rfl
    refine (tells_segments hkinds hopened path).bind fun draft hdraft ↦ ?_
    obtain ⟨-, hparameters, -⟩ := fill_segments (fun _ ↦ "") hdraft
    rw [← List.append_nil (scan _ _ _)]
    refine (tells_queryBranches hkinds ?_ pattern.query).bind fun _ _ ↦ tells_ok _
    rw [hparameters, names_itemsAll]
    rfl

end Tells

/-- The text of a fragment, told from its declaration. -/
theorem fill_compile {declaration : Declaration} {pattern : PatternDeclaration} {index : Nat} {definition : Definition}
    {pieces : Pieces} (filling : String → String) (h : compile declaration pattern index = .ok (definition, pieces)) :
    pieces.fill filling = fragmentText ⟨declaration, pattern.pattern, index⟩ filling
      ((Segment.parse (rooted pattern.pattern)).toOption.getD []) (pattern.query.filterMap queryPart?) := by
  obtain ⟨path, parts, -, -, hpath, -, hparts, -, -, -, hfill⟩ := compile_ok filling h
  have hfilter : pattern.query.filterMap queryPart? = parts := by
    have hmap : (pattern.query.map queryPart?).filterMap id = (parts.map some).filterMap id := congrArg _ hparts
    rw [List.filterMap_map, List.filterMap_map] at hmap
    exact hmap.trans List.filterMap_some
  rw [hfill, hpath, hfilter]
  rfl

end Fragment

/-! ### Mappings -/

namespace Mapping

variable {declaration : Declaration} {settings : Settings}

/-- Patterns fail to compile with the first fault among them. -/
theorem tells_compileFrom (hkinds : Fragment.HasKinds declaration) (patterns : List PatternDeclaration) (index : Nat) :
    Tells (compileFrom declaration index patterns) (patterns.flatMap (Fragment.faults declaration)) := by
  induction patterns generalizing index with
  | nil => exact tells_ok _
  | cons pattern rest ih =>
    rw [compileFrom, List.flatMap_cons]
    refine (Fragment.tells_compile hkinds pattern index).bind fun _ _ ↦ ?_
    rw [← List.append_nil (rest.flatMap _)]
    exact (ih (index + 1)).bind fun _ _ ↦ tells_ok _

/-- The expression of a declaration: the fragments of its patterns between bars and anchors. -/
def expressionText (declaration : Declaration) : String :=
  "^(?:" ++ "|".intercalate (declaration.patterns.mapIdx fun i pattern ↦
    Fragment.fragmentText ⟨declaration, pattern.pattern, i⟩ (fun _ ↦ "")
      ((Segment.parse (Fragment.rooted pattern.pattern)).toOption.getD [])
      (pattern.query.filterMap Fragment.queryPart?)) ++ ")$"

/-- An expression without gaps is rejected. -/
def expressionFaults (declaration : Declaration) (limit : Nat) : List Error :=
  if Fragment.gapsOf declaration (declaration.patterns.flatMap Fragment.occurrences) = [] ∧
      Regex.compile? limit (expressionText declaration) = none
  then [.invalidRegex declaration.owner] else []

/-- All faults of a declaration in the order in which it is read. -/
def faults (declaration : Declaration) (limit : Nat) : List Error :=
  scan (descriptorFaults declaration.owner) [] declaration.parameters ++
    (declaration.patterns.flatMap (Fragment.faults declaration) ++ expressionFaults declaration limit)

theorem fills_compileFrom (filling : String → String) {patterns : List PatternDeclaration} {index : Nat}
    {compiled : List (Definition × Pieces)} (h : compileFrom declaration index patterns = .ok compiled) :
    compiled.map (fun c ↦ c.2.fill filling) = patterns.mapIdx fun i pattern ↦
      Fragment.fragmentText ⟨declaration, pattern.pattern, index + i⟩ filling
        ((Segment.parse (Fragment.rooted pattern.pattern)).toOption.getD [])
        (pattern.query.filterMap Fragment.queryPart?) := by
  induction patterns generalizing index compiled with
  | nil =>
    cases h
    rfl
  | cons pattern rest ih =>
    obtain ⟨⟨definition, pieces⟩, hfirst, h⟩ := bind_eq_ok.mp h
    obtain ⟨others, hothers, h⟩ := bind_eq_ok.mp h
    cases h
    rw [List.map_cons, List.mapIdx_cons, Fragment.fill_compile filling hfirst, ih hothers]
    simp only [Nat.add_zero, Nat.add_assoc, Nat.add_comm 1]

/-- The joined fragments are the expression of the declaration. -/
theorem fill_expression {compiled : List (Definition × Pieces)}
    (h : compileFrom declaration 0 declaration.patterns = .ok compiled) :
    (join (compiled.map Prod.snd)).fill (fun _ ↦ "") = expressionText declaration := by
  have hfills := fills_compileFrom (fun _ ↦ "") h
  simp only [Nat.zero_add] at hfills
  refine String.toList_inj.mp ?_
  rw [fill_join, expressionText, ← hfills, String.toList_append, String.toList_append, String.toList_intercalate,
    List.map_map, List.map_map]
  rfl

/-- The expression of compiled patterns is rejected if it has no gaps and is no regular expression. -/
theorem tells_sourceOf {compiled : List (Definition × Pieces)}
    (h : compileFrom declaration 0 declaration.patterns = .ok compiled) :
    Tells (sourceOf declaration settings (join (compiled.map Prod.snd)))
      (expressionFaults declaration settings.regexSizeLimit) := by
  have hslots := slots_of_compileFrom h
  unfold expressionFaults
  by_cases hgaps : Fragment.gapsOf declaration (declaration.patterns.flatMap Fragment.occurrences) = []
  · have hstatic := Pieces.static?_of_slots (fun _ ↦ "") (hslots.trans hgaps)
    rw [sourceOf_of_static? hstatic, fill_expression h]
    refine Tells.map ?_ _
    unfold compileRegex
    cases Regex.compile? settings.regexSizeLimit (expressionText declaration) with
    | none =>
      rw [if_pos ⟨hgaps, rfl⟩]
      exact tells_error _ _
    | some regex =>
      rw [if_neg fun h ↦ nomatch h.2]
      exact tells_ok _
  · rw [if_neg fun h ↦ hgaps h.1]
    cases hstatic : (join (compiled.map Prod.snd)).static? with
    | some text => exact absurd (hslots.symm.trans (Pieces.slots_of_static? hstatic)) hgaps
    | none =>
      rw [sourceOf, hstatic]
      exact tells_ok _

/-- A build fails exactly with the first fault of the declaration. -/
theorem build_tells (declaration : Declaration) (settings : Settings) :
    Tells (build declaration settings) (faults declaration settings.regexSizeLimit) := by
  rw [build_eq, faults]
  have hnone : ∀ name, name ∈ ([] : List String) ↔ name ∈ ([] : List Descriptor).map Descriptor.name := fun _ ↦ Iff.rfl
  refine (tells_checkDescriptors hnone).bind fun _ hcheck ↦ ?_
  refine (tells_compileFrom (defaultRegex_of_checkDescriptors hcheck) _ 0).bind fun compiled hcompiled ↦ ?_
  rw [← List.append_nil (expressionFaults _ _)]
  exact (tells_sourceOf hcompiled).bind fun _ _ ↦ tells_ok _

end Mapping

end PathBinding
