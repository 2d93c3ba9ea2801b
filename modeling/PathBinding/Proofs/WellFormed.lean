import PathBinding.Proofs.Application
import PathBinding.Proofs.Faults

/-!
Well-formed declarations. A pattern is well formed if its path and query can be read and mention declared parameters once
each (`Fragment.IsWellFormed`), and a declaration is if its parameters, patterns and joined expression are
(`Mapping.WellFormed`). Exactly these declarations have no faults (`Mapping.faults_eq_nil_iff`), so they are the ones that
a mapping is built from, and the mapping keeps what their patterns say (`Mapping.build_wellFormed`).
-/

set_option autoImplicit false
set_option relaxedAutoImplicit false

namespace PathBinding

section Fresh

variable {α β : Type} {f : α → List β} {items : List α}

/-- What items mention has not been mentioned by the items before them. -/
def Fresh (f : α → List β) (items : List α) : Prop :=
  ∀ first item last, items = first ++ item :: last → ∀ x ∈ f item, x ∉ first.flatMap f

theorem fresh_cons {item : α} : Fresh f (item :: items) ↔ (∀ x ∈ f item, x ∉ items.flatMap f) ∧ Fresh f items := by
  constructor
  · intro h
    refine ⟨fun x hx hmem ↦ ?_, fun first other last hsplit x hx hmem ↦ ?_⟩
    · obtain ⟨other, hother, hxother⟩ := List.mem_flatMap.mp hmem
      obtain ⟨first, last, rfl⟩ := List.append_of_mem hother
      refine h (item :: first) other last rfl x hxother ?_
      exact List.mem_flatMap.mpr ⟨item, List.mem_cons_self, hx⟩
    · refine h (item :: first) other last (congrArg (item :: ·) hsplit) x hx ?_
      exact List.mem_append_right _ hmem
  · rintro ⟨hitem, hrest⟩ first other last hsplit x hx hmem
    cases first with
    | nil => cases hmem
    | cons head first =>
      obtain ⟨rfl, rfl⟩ := List.cons.inj hsplit
      rcases List.mem_append.mp hmem with hhead | hfirst
      · refine hitem x hhead (List.mem_flatMap.mpr ⟨other, ?_, hx⟩)
        exact List.mem_append_right _ List.mem_cons_self
      · exact hrest first other last rfl x hx hfirst

/-- If no item mentions anything twice by itself, freshness is distinctness of all that is mentioned. -/
theorem fresh_iff_nodup (hf : ∀ item, (f item).Nodup) : Fresh f items ↔ (items.flatMap f).Nodup := by
  induction items with
  | nil => exact iff_of_true (fun first item last h ↦ by cases first <;> cases h) List.nodup_nil
  | cons item rest ih =>
    rw [fresh_cons, ih, List.flatMap_cons, List.nodup_append]
    constructor
    · rintro ⟨hitem, hrest⟩
      refine ⟨hf item, hrest, fun x hx y hy ↦ ?_⟩
      rintro rfl
      exact hitem x hx hy
    · rintro ⟨-, hrest, hapart⟩
      exact ⟨fun x hx hmem ↦ hapart x hx x hmem rfl, hrest⟩

end Fresh

/-! ### Patterns -/

namespace Fragment

/-- A query declaration of a parameter reads `key=:name`, where the key is not empty and has no equals sign and none of
the characters that mark pairs and groups. -/
structure Declares (query : String) (part : QueryPart) : Prop where
  key_ne : part.key ≠ ""
  key_marks : ∀ c ∈ part.key.toList, c ∉ ['=', '&', '?', '[', ']']
  placeholder : ∃ value, query = part.key ++ "=" ++ value ∧
    Segment.parse value = .ok [.placeholder part.name part.inline?]

/-- The path and the query of a pattern can be read, the path has no positions, and every occurrence is the only one of a
declared parameter. -/
structure IsWellFormed (declaration : Declaration) (pattern : PatternDeclaration) : Prop where
  path : ∃ path, Segment.parse (rooted pattern.pattern) = .ok path ∧ ∀ index, Item.position index ∉ itemsAll path
  query : ∀ query ∈ pattern.query, ∃ part, Declares query part
  declared : ∀ p ∈ occurrences pattern, ∃ descriptor ∈ declaration.parameters, descriptor.name = p.1
  distinct : ((occurrences pattern).map Prod.fst).Nodup

variable {declaration : Declaration} {pattern : PatternDeclaration} {query raw : String} {part : QueryPart}

/-- A pair is split at its first equals sign. -/
theorem splitPair?_eq_some_iff {key value : String} : splitPair? query = some (key, value) ↔
    query = key ++ "=" ++ value ∧ '=' ∉ key.toList := by
  rw [splitPair?, List.span_eq_takeWhile_dropWhile]
  constructor
  · intro h
    have hsplit := List.takeWhile_append_dropWhile (p := (· != '=')) (l := query.toList)
    have hkey : '=' ∉ query.toList.takeWhile (· != '=') := fun hmem ↦
      absurd (List.all_eq_true.mp List.all_takeWhile _ hmem) (by decide)
    have hhead := List.head?_dropWhile_not (· != '=') query.toList
    generalize query.toList.takeWhile (· != '=') = front at h hsplit hkey
    generalize query.toList.dropWhile (· != '=') = back at h hsplit hhead
    cases back with
    | nil => cases h
    | cons c rest =>
      obtain rfl : c = '=' := by simpa using hhead
      cases h
      rw [String.toList_ofList]
      refine ⟨String.toList_inj.mp ?_, hkey⟩
      rw [← hsplit]
      simp [String.toList_append]
  · rintro ⟨rfl, hkey⟩
    have hall : ∀ c ∈ key.toList, (c != '=') = true := fun c hc ↦ bne_iff_ne.mpr fun h ↦ hkey (h ▸ hc)
    have htext : (key ++ "=" ++ value).toList = key.toList ++ '=' :: value.toList := by
      simp [String.toList_append]
    rw [htext, List.takeWhile_append_of_pos hall, List.dropWhile_append_of_pos hall,
      List.takeWhile_cons_of_neg (by decide), List.dropWhile_cons_of_neg (by decide), List.append_nil]
    dsimp only
    rw [String.ofList_toList, String.ofList_toList]

theorem isQueryKey_iff {key : String} : isQueryKey key = true ↔
    key ≠ "" ∧ ∀ c ∈ key.toList, c ∉ ['&', '?', '[', ']'] := by
  rw [isQueryKey, Bool.and_eq_true_iff, List.all_eq_true]
  refine and_congr ?_ (forall₂_congr fun c _ ↦ ?_)
  · rw [Bool.not_eq_true', Bool.eq_false_iff, Ne, String.isEmpty_iff]
  · simp [not_or, and_assoc]

/-- A query declaration is one that can be read and has a proper key. -/
theorem declares_iff : Declares query part ↔ queryPart? query = some part ∧ isQueryKey part.key = true := by
  rw [isQueryKey_iff, queryPart?]
  constructor
  · rintro ⟨hne, hmarks, value, hquery, hvalue⟩
    have hequals : '=' ∉ part.key.toList := fun h ↦ hmarks '=' h (by decide)
    rw [splitPair?_eq_some_iff.mpr ⟨hquery, hequals⟩]
    simp only [hvalue]
    exact ⟨trivial, hne, fun c hc h ↦ hmarks c hc (List.mem_cons_of_mem _ h)⟩
  · rintro ⟨hpart, hne, hmarks⟩
    split at hpart
    · cases hpart
    · next key value hpair =>
      obtain ⟨hquery, hequals⟩ := splitPair?_eq_some_iff.mp hpair
      split at hpart
      · next name inline? hparse =>
        cases hpart
        refine ⟨hne, fun c hc h ↦ ?_, value, hquery, hparse⟩
        rcases List.mem_cons.mp h with rfl | h
        · exact hequals hc
        · exact hmarks c hc h
      · cases hpart

theorem exists_descriptor_iff {name : String} : (∃ descriptor ∈ declaration.parameters, descriptor.name = name) ↔
    (declaration.find? name).isSome = true := by
  rw [Declaration.find?, List.find?_isSome]
  simp only [beq_iff_eq]

/-! ### Patterns without faults -/

theorem occurrenceFaults_eq_nil_iff {seen : List String} {name : String} :
    occurrenceFaults declaration raw seen name = [] ↔
      (∃ descriptor ∈ declaration.parameters, descriptor.name = name) ∧ name ∉ seen := by
  rw [occurrenceFaults, List.append_eq_nil_iff, exists_descriptor_iff]
  refine and_congr ?_ ?_
  · split <;> simp [*]
  · split <;> simp [*]

theorem queryFaults_eq_nil_iff {seen : List String} : queryFaults declaration raw seen query = [] ↔
    ∃ part, Declares query part ∧ (∃ descriptor ∈ declaration.parameters, descriptor.name = part.name) ∧
      part.name ∉ seen := by
  constructor
  · intro h
    unfold queryFaults at h
    split at h
    · cases h
    · next key value hpair =>
      obtain ⟨hkey, hvalue⟩ := List.append_eq_nil_iff.mp h
      split at hvalue
      · cases hvalue
      · next name inline? hparse =>
        refine ⟨⟨key, name, inline?⟩, declares_iff.mpr ⟨?_, ?_⟩, occurrenceFaults_eq_nil_iff.mp hvalue⟩
        · rw [queryPart?, hpair]
          simp only [hparse]
        · split at hkey
          · next hproper => exact hproper
          · cases hkey
      · cases hvalue
  · rintro ⟨part, hdeclares, hoccurrence⟩
    obtain ⟨-, hkey⟩ := declares_iff.mp hdeclares
    obtain ⟨value, hquery, hvalue⟩ := hdeclares.placeholder
    have hpair := splitPair?_eq_some_iff.mpr
      ⟨hquery, fun h ↦ hdeclares.key_marks '=' h List.mem_cons_self⟩
    rw [queryFaults, hpair]
    simp only [hkey, if_true, hvalue, List.nil_append]
    exact occurrenceFaults_eq_nil_iff.mpr hoccurrence

/-- The names that the items of a pattern mention are those of its occurrences. -/
theorem names_of_items {path : List Segment} (hpath : Segment.parse (rooted pattern.pattern) = .ok path) :
    (itemsAll path ++ pattern.query.map Item.query).flatMap Item.names = (occurrences pattern).map Prod.fst := by
  rw [occurrences, hpath, List.flatMap_append, names_itemsAll, List.map_append, List.map_map, List.flatMap_map]
  congr 1
  induction pattern.query with
  | nil => rfl
  | cons query rest ih =>
    rw [List.flatMap_cons, List.filterMap_cons, ih, Item.names]
    cases queryPart? query <;> rfl

theorem nodup_names (item : Item) : item.names.Nodup := by
  cases item with
  | occurrence name => exact List.nodup_singleton name
  | position index => exact List.nodup_nil
  | query text =>
    rw [Item.names]
    cases queryPart? text with
    | none => exact List.nodup_nil
    | some part => exact List.nodup_singleton part.name

/-- What an item without faults is. -/
def Item.IsSound (declaration : Declaration) : Item → Prop
  | .position _ => False
  | .occurrence name => ∃ descriptor ∈ declaration.parameters, descriptor.name = name
  | .query text => ∃ part, Declares text part ∧ ∃ descriptor ∈ declaration.parameters, descriptor.name = part.name

theorem itemFaults_eq_nil_iff {before : List Item} {item : Item} : itemFaults declaration raw before item = [] ↔
    item.IsSound declaration ∧ ∀ name ∈ item.names, name ∉ before.flatMap Item.names := by
  cases item with
  | occurrence name =>
    rw [itemFaults, occurrenceFaults_eq_nil_iff, Item.names, List.forall_mem_singleton]
    rfl
  | position index => exact iff_of_false (List.cons_ne_nil _ _) fun h ↦ h.1
  | query text =>
    rw [itemFaults, queryFaults_eq_nil_iff]
    constructor
    · rintro ⟨part, hdeclares, hdescriptor, hseen⟩
      refine ⟨⟨part, hdeclares, hdescriptor⟩, ?_⟩
      rw [Item.names, (declares_iff.mp hdeclares).1]
      exact List.forall_mem_singleton.mpr hseen
    · rintro ⟨⟨part, hdeclares, hdescriptor⟩, hseen⟩
      rw [Item.names, (declares_iff.mp hdeclares).1] at hseen
      exact ⟨part, hdeclares, hdescriptor, hseen part.name List.mem_cons_self⟩

theorem scan_itemFaults_eq_nil_iff {items : List Item} : scan (itemFaults declaration raw) [] items = [] ↔
    (∀ item ∈ items, item.IsSound declaration) ∧ (items.flatMap Item.names).Nodup := by
  rw [scan_eq_nil_iff, ← fresh_iff_nodup nodup_names]
  simp only [List.nil_append, itemFaults_eq_nil_iff]
  constructor
  · intro h
    refine ⟨fun item hitem ↦ ?_, fun first item last hsplit ↦ (h first item last hsplit).2⟩
    obtain ⟨first, last, hsplit⟩ := List.append_of_mem hitem
    exact (h first item last hsplit).1
  · rintro ⟨hsound, hfresh⟩ first item last hsplit
    refine ⟨hsound item ?_, hfresh first item last hsplit⟩
    rw [hsplit]
    exact List.mem_append_right _ List.mem_cons_self

mutual

theorem mem_items_iff {segment : Segment} {name : String} :
    Item.occurrence name ∈ items segment ↔ name ∈ segment.placeholders.map Prod.fst := by
  cases segment with
  | literal text => exact iff_of_false nofun nofun
  | placeholder other regex => simp [items, Segment.placeholders]
  | positional index => exact iff_of_false (by simp [items]) nofun
  | optional inner => exact mem_itemsAll_iff

theorem mem_itemsAll_iff {segments : List Segment} {name : String} :
    Item.occurrence name ∈ itemsAll segments ↔ name ∈ (Segment.placeholdersAll segments).map Prod.fst := by
  cases segments with
  | nil => exact iff_of_false nofun nofun
  | cons segment rest =>
    rw [itemsAll, Segment.placeholdersAll, List.map_append, List.mem_append, List.mem_append, mem_items_iff,
      mem_itemsAll_iff]

end

theorem query_not_mem_itemsAll {segments : List Segment} {text : String} : Item.query text ∉ itemsAll segments := by
  match segments with
  | [] => exact nofun
  | .literal _ :: rest => exact (query_not_mem_itemsAll : Item.query text ∉ itemsAll rest)
  | .placeholder _ _ :: rest | .positional _ :: rest =>
    have hrest : Item.query text ∉ itemsAll rest := query_not_mem_itemsAll
    simpa [itemsAll, items] using hrest
  | .optional inner :: rest =>
    rw [itemsAll, List.mem_append, not_or]
    exact ⟨(query_not_mem_itemsAll : Item.query text ∉ itemsAll inner), query_not_mem_itemsAll⟩
termination_by sizeOf segments

/-- A pattern has no faults exactly if it is well formed. -/
theorem faults_eq_nil_iff : faults declaration pattern = [] ↔ IsWellFormed declaration pattern := by
  unfold faults
  cases hparse : Segment.parse (rooted pattern.pattern) with
  | error e =>
    refine iff_of_false nofun fun h ↦ ?_
    obtain ⟨path, hpath, -⟩ := h.path
    exact nomatch hparse.symm.trans hpath
  | ok path =>
    dsimp only
    rw [scan_itemFaults_eq_nil_iff, names_of_items hparse]
    constructor
    · rintro ⟨hsound, hdistinct⟩
      obtain ⟨hpath, hqueries⟩ := List.forall_mem_append.mp hsound
      have hquery : ∀ query ∈ pattern.query, (Item.query query).IsSound declaration := fun query hquery ↦
        hqueries _ (List.mem_map_of_mem hquery)
      refine ⟨⟨path, hparse, fun index ↦ hpath (.position index)⟩, fun query h ↦ ?_, ?_, hdistinct⟩
      · obtain ⟨part, hdeclares, -⟩ := hquery query h
        exact ⟨part, hdeclares⟩
      · rw [occurrences, hparse, List.forall_mem_append]
        refine ⟨fun p hp ↦ hpath (.occurrence p.1) (mem_itemsAll_iff.mpr (List.mem_map_of_mem hp)), ?_⟩
        rw [List.forall_mem_map]
        intro part hpart
        obtain ⟨query, hmem, hsome⟩ := List.mem_filterMap.mp hpart
        obtain ⟨other, hdeclares, hdescriptor⟩ := hquery query hmem
        obtain rfl : other = part := Option.some.inj ((declares_iff.mp hdeclares).1.symm.trans hsome)
        exact hdescriptor
    · rintro ⟨⟨own, hown, hpositions⟩, hqueries, hdeclared, hdistinct⟩
      obtain rfl : own = path := Except.ok.inj (hown.symm.trans hparse)
      rw [occurrences, hparse, List.forall_mem_append] at hdeclared
      obtain ⟨hpath, hquery⟩ := hdeclared
      refine ⟨List.forall_mem_append.mpr ⟨fun item hitem ↦ ?_, ?_⟩, hdistinct⟩
      · cases item with
        | occurrence name =>
          obtain ⟨p, hp, rfl⟩ := List.mem_map.mp (mem_itemsAll_iff.mp hitem)
          exact hpath p hp
        | position index => exact hpositions index hitem
        | query text => exact absurd hitem query_not_mem_itemsAll
      · rw [List.forall_mem_map]
        intro query hmem
        obtain ⟨part, hdeclares⟩ := hqueries query hmem
        have hpart : part ∈ pattern.query.filterMap queryPart? :=
          List.mem_filterMap.mpr ⟨query, hmem, (declares_iff.mp hdeclares).1⟩
        exact ⟨part, hdeclares, hquery part.occurrence (List.mem_map_of_mem hpart)⟩

/-! ### Faults of patterns are build errors -/

theorem isBuildError_of_parse {text : String} {e : Error} (h : Segment.parse text = .error e) : e.isBuildError = true := by
  unfold Segment.parse at h
  split at h <;> cases h
  rfl

theorem isBuildError_of_mem_occurrenceFaults {e : Error} {seen : List String} {name : String}
    (h : e ∈ occurrenceFaults declaration raw seen name) : e.isBuildError = true := by
  rcases List.mem_append.mp h with h | h
  · split at h
    · cases h
    · rw [List.mem_singleton.mp h]
      rfl
  · split at h
    · rw [List.mem_singleton.mp h]
      rfl
    · cases h

theorem isBuildError_of_mem_queryFaults {e : Error} {seen : List String}
    (h : e ∈ queryFaults declaration raw seen query) : e.isBuildError = true := by
  unfold queryFaults at h
  split at h
  · rw [List.mem_singleton.mp h]
    rfl
  · rcases List.mem_append.mp h with h | h
    · split at h
      · cases h
      · rw [List.mem_singleton.mp h]
        rfl
    · split at h
      · next hparse =>
        rw [List.mem_singleton.mp h]
        exact isBuildError_of_parse hparse
      · exact isBuildError_of_mem_occurrenceFaults h
      · rw [List.mem_singleton.mp h]
        rfl

theorem isBuildError_of_mem_faults {e : Error} (h : e ∈ faults declaration pattern) : e.isBuildError = true := by
  unfold faults at h
  split at h
  · next hparse =>
    rw [List.mem_singleton.mp h]
    exact isBuildError_of_parse hparse
  · obtain ⟨before, item, hitem⟩ := exists_of_mem_scan h
    cases item with
    | occurrence name => exact isBuildError_of_mem_occurrenceFaults hitem
    | position index =>
      rw [List.mem_singleton.mp hitem]
      rfl
    | query text => exact isBuildError_of_mem_queryFaults hitem

/-! ### What a compiled pattern says -/

/-- A definition is what a pattern says under its number: its parameters are the placeholders of the path from left to
right and then those of the query, each of them declared and listed once. -/
structure Describes (declaration : Declaration) (pattern : PatternDeclaration) (i : Nat) (definition : Definition) :
    Prop where
  raw : definition.raw = pattern.pattern
  index : definition.index = i
  fragment : definition.fragment = "p" ++ toString i
  parameters : ∃ path parts, Segment.parse (rooted pattern.pattern) = .ok path ∧
    List.Forall₂ Declares pattern.query parts ∧
    definition.parameters = (Segment.placeholdersAll path).map Prod.fst ++ definition.queryParameters ∧
    definition.queryParameters = parts.map QueryPart.name
  distinct : definition.parameters.Nodup
  declared : ∀ name ∈ definition.parameters, ∃ descriptor ∈ declaration.parameters, descriptor.name = name
  inline : ∀ name regex, definition.inlineRegexes.lookup name = some regex ↔ (name, some regex) ∈ occurrences pattern

variable {index : Nat} {definition : Definition} {pieces : Pieces}

theorem nodup_inlined {occurrences : List (String × Option String)} (h : (occurrences.map Prod.fst).Nodup) :
    ((inlined occurrences).map Prod.fst).Nodup := by
  refine List.Sublist.nodup ?_ h
  induction occurrences with
  | nil => exact List.Sublist.refl _
  | cons p rest ih =>
    obtain ⟨name, regex⟩ := p
    obtain ⟨-, hrest⟩ := List.nodup_cons.mp h
    cases regex with
    | none => exact (ih hrest).cons name
    | some regex => exact (ih hrest).cons_cons name

theorem mem_inlined_iff {occurrences : List (String × Option String)} {name regex : String} :
    (name, regex) ∈ inlined occurrences ↔ (name, some regex) ∈ occurrences := by
  rw [inlined, List.mem_filterMap]
  constructor
  · rintro ⟨⟨other, inline?⟩, hmem, h⟩
    obtain ⟨own, rfl, heq⟩ := Option.map_eq_some_iff.mp h
    cases heq
    exact hmem
  · exact fun h ↦ ⟨_, h, rfl⟩

theorem forall₂_declares {queries : List String} {parts : List QueryPart} (hparts : queries.map queryPart? = parts.map some)
    (hqueries : ∀ query ∈ queries, ∃ part, Declares query part) : List.Forall₂ Declares queries parts := by
  induction queries generalizing parts with
  | nil =>
    cases parts with
    | nil => exact .nil
    | cons part parts => cases hparts
  | cons query rest ih =>
    cases parts with
    | nil => cases hparts
    | cons part parts =>
      obtain ⟨hpart, htail⟩ := List.cons.inj hparts
      obtain ⟨⟨other, hother⟩, hrest⟩ := List.forall_mem_cons.mp hqueries
      obtain rfl : other = part := Option.some.inj ((declares_iff.mp hother).1.symm.trans hpart)
      exact .cons hother (ih htail hrest)

/-- Assumes: a well-formed pattern that has been compiled. The definition is what the pattern says. -/
theorem describes_of_compile (hpattern : IsWellFormed declaration pattern)
    (h : compile declaration pattern index = .ok (definition, pieces)) : Describes declaration pattern index definition := by
  obtain ⟨path, parts, -, -, hpath, -, hparts, hindex, hparameters, hinline, -⟩ := compile_ok (fun _ ↦ "") h
  obtain ⟨hraw, hquery⟩ := definition_of_compile h hpath
  have hoccurrences : occurrences pattern = Segment.placeholdersAll path ++ parts.map QueryPart.occurrence := by
    have hmap : (pattern.query.map queryPart?).filterMap id = (parts.map some).filterMap id := congrArg _ hparts
    rw [List.filterMap_map, List.filterMap_map] at hmap
    have hfilter : pattern.query.filterMap queryPart? = parts := hmap.trans List.filterMap_some
    rw [occurrences, hpath, hfilter]
    rfl
  have hnames : definition.parameters = (occurrences pattern).map Prod.fst := by
    rw [hparameters, hoccurrences, List.map_append, List.map_map]
    rfl
  have hsuffix : definition.queryParameters = parts.map QueryPart.name := by
    rw [hquery, hparameters]
    simp
  refine ⟨hraw, hindex, by rw [Definition.fragment, hindex, Definition.fragmentName], ?_, ?_, ?_, fun name regex ↦ ?_⟩
  · exact ⟨path, parts, hpath, forall₂_declares hparts hpattern.query, by rw [hsuffix, hparameters], hsuffix⟩
  · exact hnames ▸ hpattern.distinct
  · rw [hnames, List.forall_mem_map]
    exact hpattern.declared
  · rw [hinline, ← hoccurrences, lookup_eq_some_iff_mem (nodup_inlined hpattern.distinct), mem_inlined_iff]

end Fragment

/-! ### Declarations -/

namespace Mapping

/-- The parameters of a declaration have names of their own and known kinds, its patterns are well formed, and its
expression is a regular expression unless it has gaps. -/
structure WellFormed (declaration : Declaration) (limit : Nat) : Prop where
  names : (declaration.parameters.map Descriptor.name).Nodup
  kinds : ∀ descriptor ∈ declaration.parameters, ∀ typeName, descriptor.kind ≠ .other typeName
  patterns : ∀ pattern ∈ declaration.patterns, Fragment.IsWellFormed declaration pattern
  expression : (∀ pattern ∈ declaration.patterns, ∀ p ∈ Fragment.occurrences pattern, p.2 = none →
      ¬Fragment.IsDynamic declaration p.1) →
    ∃ regex, Regex.compile? limit (expressionText declaration) = some regex

variable {declaration : Declaration} {settings : Settings} {limit : Nat}

theorem descriptorFaults_eq_nil_iff {owner : String} {before : List Descriptor} {descriptor : Descriptor} :
    descriptorFaults owner before descriptor = [] ↔
      descriptor.name ∉ before.map Descriptor.name ∧ ∀ typeName, descriptor.kind ≠ .other typeName := by
  rw [descriptorFaults, List.append_eq_nil_iff]
  refine and_congr ?_ ?_
  · split <;> simp [*]
  · cases descriptor.kind with
    | other typeName => exact iff_of_false (List.cons_ne_nil _ _) fun h ↦ h typeName rfl
    | _ => exact iff_of_true rfl fun _ h ↦ Kind.noConfusion h

theorem scan_descriptorFaults_eq_nil_iff {owner : String} {descriptors : List Descriptor} :
    scan (descriptorFaults owner) [] descriptors = [] ↔ (descriptors.map Descriptor.name).Nodup ∧
      ∀ descriptor ∈ descriptors, ∀ typeName, descriptor.kind ≠ .other typeName := by
  rw [scan_eq_nil_iff, List.map_eq_flatMap, ← fresh_iff_nodup fun _ ↦ List.nodup_singleton _]
  simp only [descriptorFaults_eq_nil_iff, List.nil_append, Fresh, List.forall_mem_singleton, ← List.map_eq_flatMap]
  constructor
  · intro h
    refine ⟨fun first item last hsplit ↦ (h first item last hsplit).1, fun descriptor hmem ↦ ?_⟩
    obtain ⟨first, last, hsplit⟩ := List.append_of_mem hmem
    exact (h first descriptor last hsplit).2
  · rintro ⟨hfresh, hkinds⟩ first item last hsplit
    refine ⟨hfresh first item last hsplit, hkinds item ?_⟩
    rw [hsplit]
    exact List.mem_append_right _ List.mem_cons_self

theorem gapsOf_eq_nil_iff : Fragment.gapsOf declaration (declaration.patterns.flatMap Fragment.occurrences) = [] ↔
    ∀ pattern ∈ declaration.patterns, ∀ p ∈ Fragment.occurrences pattern, p.2 = none →
      ¬Fragment.IsDynamic declaration p.1 := by
  rw [Fragment.gapsOf_eq_nil_iff, List.forall_mem_flatMap]

/-- A declaration has no faults exactly if it is well formed. -/
theorem faults_eq_nil_iff : faults declaration limit = [] ↔ WellFormed declaration limit := by
  have hexpression : expressionFaults declaration limit = [] ↔
      ((∀ pattern ∈ declaration.patterns, ∀ p ∈ Fragment.occurrences pattern, p.2 = none →
        ¬Fragment.IsDynamic declaration p.1) →
      ∃ regex, Regex.compile? limit (expressionText declaration) = some regex) := by
    rw [expressionFaults, ← gapsOf_eq_nil_iff, ← Option.ne_none_iff_exists']
    split
    · next h => exact iff_of_false (List.cons_ne_nil _ _) fun hregex ↦ hregex h.1 h.2
    · next h => exact iff_of_true rfl fun hgaps hnone ↦ h ⟨hgaps, hnone⟩
  rw [faults, List.append_eq_nil_iff, List.append_eq_nil_iff, scan_descriptorFaults_eq_nil_iff, List.flatMap_eq_nil_iff,
    hexpression]
  constructor
  · rintro ⟨⟨hnames, hkinds⟩, hpatterns, hexpression⟩
    exact ⟨hnames, hkinds, fun pattern hmem ↦ Fragment.faults_eq_nil_iff.mp (hpatterns pattern hmem), hexpression⟩
  · intro h
    exact ⟨⟨h.names, h.kinds⟩, fun pattern hmem ↦ Fragment.faults_eq_nil_iff.mpr (h.patterns pattern hmem), h.expression⟩

theorem isBuildError_of_mem_descriptorFaults {e : Error} {owner : String} {before : List Descriptor}
    {descriptor : Descriptor} (h : e ∈ descriptorFaults owner before descriptor) : e.isBuildError = true := by
  rcases List.mem_append.mp h with h | h
  · split at h
    · rw [List.mem_singleton.mp h]
      rfl
    · cases h
  · split at h
    · rw [List.mem_singleton.mp h]
      rfl
    · cases h

/-- All faults of a declaration are build errors. -/
theorem isBuildError_of_mem_faults {e : Error} (h : e ∈ faults declaration limit) : e.isBuildError = true := by
  rcases List.mem_append.mp h with h | h
  · obtain ⟨before, descriptor, hdescriptor⟩ := exists_of_mem_scan h
    exact isBuildError_of_mem_descriptorFaults hdescriptor
  rcases List.mem_append.mp h with h | h
  · obtain ⟨pattern, -, hpattern⟩ := List.mem_flatMap.mp h
    exact Fragment.isBuildError_of_mem_faults hpattern
  · unfold expressionFaults at h
    split at h
    · rw [List.mem_singleton.mp h]
      rfl
    · cases h

theorem isBuildError_of_build {e : Error} (h : build declaration settings = .error e) : e.isBuildError = true :=
  isBuildError_of_mem_faults (List.mem_of_mem_head? ((build_tells declaration settings e).mp h))

/-- A mapping is built from exactly the well-formed declarations. From any other the first of its faults is reported,
which is a build error. A mapping has one definition for each pattern, in order, and it is what the pattern says. -/
theorem build_wellFormed (declaration : Declaration) (settings : Settings) :
    ((∃ mapping, build declaration settings = .ok mapping) ↔ WellFormed declaration settings.regexSizeLimit) ∧
    (∀ e, build declaration settings = .error e ↔ (faults declaration settings.regexSizeLimit).head? = some e) ∧
    (∀ e ∈ faults declaration settings.regexSizeLimit, e.isBuildError = true) ∧
    ∀ mapping, build declaration settings = .ok mapping →
      mapping.patterns.length = declaration.patterns.length ∧
      ∀ i pattern, declaration.patterns[i]? = some pattern →
        ∃ definition, mapping.patterns[i]? = some definition ∧ Fragment.Describes declaration pattern i definition := by
  have htells := build_tells declaration settings
  have hiff := htells.ok_iff.trans faults_eq_nil_iff
  refine ⟨hiff, htells, fun e ↦ isBuildError_of_mem_faults, fun mapping h ↦ ?_⟩
  have hwell := hiff.mp ⟨mapping, h⟩
  obtain ⟨-, compiled, source, hcompiled, -, rfl⟩ := build_parts h
  obtain ⟨hlength, hcompile⟩ := compileFrom_ok hcompiled
  refine ⟨by rw [withSource, List.length_map, hlength], fun i pattern hi ↦ ?_⟩
  obtain ⟨⟨definition, pieces⟩, hc, hok⟩ := hcompile i pattern hi
  rw [Nat.zero_add] at hok
  refine ⟨definition, ?_, Fragment.describes_of_compile (hwell.patterns pattern (List.mem_of_getElem? hi)) hok⟩
  rw [withSource, List.getElem?_map, hc]
  rfl

end Mapping

end PathBinding
