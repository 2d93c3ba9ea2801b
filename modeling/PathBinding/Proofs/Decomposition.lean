import PathBinding.Proofs.Mapping
import PathBinding.Proofs.Regex.Names
import PathBinding.Proofs.Regex.Spelling
import PathBinding.Proofs.Selection

/-!
Selection decomposes by pattern. If the fragment of each pattern is one group on its own (`Standalone`), the expression of
a static mapping is an alternative of these groups (`groups_of_build`). The winner is then the first pattern whose
fragment matches when it is anchored alone, with the text that it captures alone (`select_decomposes`).
-/

set_option autoImplicit false
set_option relaxedAutoImplicit false

namespace PathBinding

open Regex

namespace Declaration

/-- The text of the fragment of pattern number `i`, if it has no gaps. -/
def fragment? (declaration : Declaration) (i : Nat) : Option String :=
  match declaration.patterns[i]? with
  | none => none
  | some pattern =>
    match Fragment.compile declaration pattern i with
    | .ok (_, pieces) => pieces.static?
    | .error _ => none

theorem exists_of_fragment? {declaration : Declaration} {i : Nat} {text : String}
    (h : declaration.fragment? i = some text) : ∃ pattern definition pieces,
      declaration.patterns[i]? = some pattern ∧ Fragment.compile declaration pattern i = .ok (definition, pieces) ∧
        pieces.static? = some text := by
  unfold fragment? at h
  split at h
  · cases h
  · next pattern hpattern =>
    split at h
    · next definition pieces hcompile => exact ⟨pattern, definition, pieces, hpattern, hcompile, h⟩
    · cases h

/-- The expression of pattern number `i`, anchored alone. -/
def alone? (declaration : Declaration) (i : Nat) : Option Regex :=
  (declaration.fragment? i).bind fun text ↦ parse? ("^(?:" ++ text ++ ")$").toList

/-- The match of a path by the expression of pattern number `i` alone. -/
def matchAlone? (declaration : Declaration) (i : Nat) (path : String) : Option Thread :=
  (declaration.alone? i).bind (·.search (normalizePath path).toList)

/-- The fragment of each pattern is read as exactly one group, which has the name of the fragment. -/
def Standalone (declaration : Declaration) : Prop :=
  ∀ i text, declaration.fragment? i = some text →
    ∃ body, part? text.toList = some (.group (some (Definition.fragmentName i)) body)

/-- The same once the gaps of fragments are filled. -/
def StandaloneWith (declaration : Declaration) (filling : String → String) : Prop :=
  ∀ i pattern definition pieces, declaration.patterns[i]? = some pattern →
    Fragment.compile declaration pattern i = .ok (definition, pieces) →
      ∃ body, part? (pieces.fill filling).toList = some (.group (some (Definition.fragmentName i)) body)

/-- Whether a text is read as exactly one group of a name. -/
def isGroupNamed (name : String) (text : String) : Bool :=
  match part? text.toList with
  | some (.group (some own) _) => own == name
  | _ => false

theorem isGroupNamed_iff {name text : String} :
    isGroupNamed name text = true ↔ ∃ body, part? text.toList = some (.group (some name) body) := by
  unfold isGroupNamed
  split
  · next own body hpart => simp [hpart]
  · next hpart =>
    constructor
    · exact nofun
    · rintro ⟨body, hbody⟩
      exact absurd hbody (hpart name body)

instance (declaration : Declaration) : Decidable declaration.Standalone :=
  decidable_of_iff (∀ i < declaration.patterns.length, (declaration.fragment? i).all fun text ↦
      isGroupNamed (Definition.fragmentName i) text) <| by
    constructor
    · intro h i text htext
      have hi : i < declaration.patterns.length := by
        by_contra hge
        rw [fragment?, List.getElem?_eq_none_iff.mpr (Nat.le_of_not_lt hge)] at htext
        cases htext
      have hall := h i hi
      rw [htext] at hall
      exact isGroupNamed_iff.mp hall
    · intro h i _
      cases htext : declaration.fragment? i with
      | none => rfl
      | some text => exact isGroupNamed_iff.mpr (h i text htext)

end Declaration

namespace Mapping

variable {declaration : Declaration} {settings : Settings} {mapping : Mapping} {text : String} {regex : Regex}

theorem isGroup_of_part? {x : List Char} {name : Option String} {body : Regex}
    (h : part? ('(' :: (x ++ [')'])) = some (.group name body)) :
    ∃ part, IsGroup ('(' :: (x ++ [')'])) part ∧ part.regex = .group name body := by
  obtain ⟨names, height, h⟩ := takeAll_of_part? h
  have hlast : ('(' :: (x ++ [')'])).getLast? = some ')' := by
    rw [← List.cons_append, List.getLast?_concat]
  have hgrouped := grouped_of_takeAll h rfl hlast
  exact ⟨_, ⟨⟨names, hgrouped⟩, name, body, rfl⟩, rfl⟩

theorem exists_forall₂ {α β : Type} {R : α → β → Prop} {as : List α} (h : ∀ a ∈ as, ∃ b, R a b) :
    ∃ bs, List.Forall₂ R as bs := by
  induction as with
  | nil => exact ⟨[], .nil⟩
  | cons a as ih =>
    obtain ⟨b, hb⟩ := h a List.mem_cons_self
    obtain ⟨bs, hbs⟩ := ih fun a' ha' ↦ h a' (List.mem_cons_of_mem a ha')
    exact ⟨b :: bs, .cons hb hbs⟩

theorem rel_getElem? {α β : Type} {R : α → β → Prop} {as : List α} {bs : List β} (h : List.Forall₂ R as bs) (i : Nat) :
    Option.Rel R as[i]? bs[i]? := by
  induction h generalizing i with
  | nil => exact .none
  | cons head _ ih =>
    cases i with
    | zero => exact .some head
    | succ i => exact ih i

/-- A compiled pattern has the number of its place. -/
theorem index_of_compileFrom {compiled : List (Definition × Pieces)}
    (h : compileFrom declaration 0 declaration.patterns = .ok compiled) {i : Nat} {c : Definition × Pieces}
    (hc : compiled[i]? = some c) : c.1.index = i := by
  obtain ⟨pattern, -, hok⟩ := compile_of_compileFrom h hc
  rw [Nat.zero_add] at hok
  obtain ⟨path, parts, _, _, _, _, _, hindex, -⟩ := Fragment.compile_ok (fun _ ↦ "") hok
  exact hindex

/-- The group of a compiled pattern, which can be anchored alone. -/
structure Denotes (filling : String → String) (c : Definition × Pieces) (r : Regex) : Prop where
  group : IsGroupOf c.1 r
  part : part? (c.2.fill filling).toList = some r
  anchored : parse? (['^', '(', '?', ':'] ++ (c.2.fill filling).toList ++ [')', '$']) =
    some (.sequence [.look .textStart, r, .look .textEnd])

/-- What has been read names no group twice. -/
theorem nodup_joined {x : List Char} {groups : List Regex} (h : parse? x = some (joined groups)) :
    (groups.flatMap groupNames).Nodup := by
  have hnodup := nodup_groupNames h
  rw [joined, groupNames_sequence] at hnodup
  rw [← groupNames_altAll]
  simpa [groupNames] using hnodup

/-- The expression of joined fragments, once gaps are filled, is made of the groups that the fragments are. -/
theorem groups_of_join {filling : String → String} {compiled : List (Definition × Pieces)}
    (hcompiled : compileFrom declaration 0 declaration.patterns = .ok compiled)
    (hparse : parse? ((join (compiled.map Prod.snd)).fill filling).toList = some regex)
    (hstandalone : declaration.StandaloneWith filling) :
    ∃ groups, List.Forall₂ (Denotes filling) compiled groups ∧ regex = joined groups ∧
      (groups.flatMap groupNames).Nodup := by
  let textOf (c : Definition × Pieces) : List Char := (c.2.fill filling).toList
  have hpart : ∀ c ∈ compiled, ∃ part : Part, IsGroup (textOf c) part ∧ IsGroupOf c.1 part.regex ∧
      part? (textOf c) = some part.regex := by
    intro c hc
    obtain ⟨i, hi⟩ := List.mem_iff_getElem?.mp hc
    obtain ⟨pattern, hpattern, hok⟩ := compile_of_compileFrom hcompiled hi
    rw [Nat.zero_add] at hok
    obtain ⟨body, hbody⟩ := hstandalone i pattern c.1 c.2 hpattern hok
    obtain ⟨path, parts, _, _, _, _, _, -, -, -, hfill⟩ := Fragment.compile_ok filling hok
    obtain ⟨x, hx⟩ := Fragment.toList_fragmentText _ filling path parts
    have htext : textOf c = '(' :: (x ++ [')']) := (congrArg String.toList hfill).trans hx
    have hpart? : part? (textOf c) = some (.group (some (Definition.fragmentName i)) body) := hbody
    rw [htext] at hpart?
    obtain ⟨part, hpart, hregex⟩ := isGroup_of_part? hpart?
    refine ⟨part, htext ▸ hpart, ⟨body, ?_⟩, ?_⟩
    · rw [hregex, Definition.fragment, index_of_compileFrom hcompiled hi]
    · rw [htext, hpart?, hregex]
  obtain ⟨parts, hparts⟩ := exists_forall₂ hpart
  have htexts : List.Forall₂ IsGroup (compiled.map textOf) parts := by
    rw [List.forall₂_map_left_iff]
    exact hparts.imp fun _ _ h ↦ h.1
  rw [fill_join, List.map_map] at hparse
  obtain ⟨hregex, hanchored⟩ := parse?_groups htexts hparse
  refine ⟨parts.map fun part : Part ↦ part.regex, ?_, hregex, nodup_joined (hregex ▸ hparse)⟩
  rw [List.forall₂_map_right_iff]
  rw [List.forall₂_map_left_iff] at hanchored
  rw [List.forall₂_iff_get] at hparts hanchored ⊢
  refine ⟨hparts.1, fun i hi hi' ↦ ?_⟩
  obtain ⟨-, hgroup, hpart⟩ := hparts.2 i hi hi'
  exact ⟨hgroup, hpart, hanchored.2 i hi hi'⟩

/-- Without gaps a fragment that is one group is one group whatever would fill them. -/
theorem standaloneWith_of_static {compiled : List (Definition × Pieces)}
    (hcompiled : compileFrom declaration 0 declaration.patterns = .ok compiled)
    (hjoin : (join (compiled.map Prod.snd)).static? = some text) (hstandalone : declaration.Standalone)
    (filling : String → String) : declaration.StandaloneWith filling ∧
      ∀ i c, compiled[i]? = some c → declaration.fragment? i = some (c.2.fill filling) := by
  have hslots : ∀ c ∈ compiled, c.2.slots = [] := by
    have hall := Pieces.slots_of_static? hjoin
    rw [slots_join, List.flatMap_map, List.flatMap_eq_nil_iff] at hall
    exact hall
  have hfragment (i : Nat) (c : Definition × Pieces) (hc : compiled[i]? = some c) :
      declaration.fragment? i = some (c.2.fill filling) := by
    obtain ⟨pattern, hpattern, hok⟩ := compile_of_compileFrom hcompiled hc
    rw [Nat.zero_add] at hok
    rw [Declaration.fragment?, hpattern]
    simp only [hok]
    exact Pieces.static?_of_slots filling (hslots c (List.mem_of_getElem? hc))
  refine ⟨fun i pattern definition pieces hpattern hok ↦ ?_, hfragment⟩
  obtain ⟨c, hc, hok'⟩ := (compileFrom_ok hcompiled).2 i pattern hpattern
  rw [Nat.zero_add] at hok'
  cases hok.symm.trans hok'
  exact hstandalone i _ (hfragment i _ hc)

/-- What a static mapping is compiled to, with the groups that the fragments are. -/
theorem compiled_of_build (hbuild : build declaration settings = .ok mapping)
    (hstatic : mapping.source = .static text regex) (hstandalone : declaration.Standalone) (filling : String → String) :
    ∃ compiled groups, compileFrom declaration 0 declaration.patterns = .ok compiled ∧
      mapping.patterns = compiled.map Prod.fst ∧ List.Forall₂ (Denotes filling) compiled groups ∧
      regex = joined groups ∧ (groups.flatMap groupNames).Nodup ∧
      ∀ i c, compiled[i]? = some c → declaration.fragment? i = some (c.2.fill filling) := by
  obtain ⟨compiled, hcompiled, hpatterns, -, hsource⟩ := build_ok hbuild
  rw [hstatic] at hsource
  obtain ⟨_, _, hsame, hjoin, hparse⟩ := hsource.resolve_left nofun
  cases hsame
  obtain ⟨hwith, hfragment⟩ := standaloneWith_of_static hcompiled hjoin hstandalone filling
  rw [← Pieces.static?_eq filling hjoin] at hparse
  obtain ⟨groups, hgroups, hregex, hnodup⟩ := groups_of_join hcompiled hparse hwith
  exact ⟨compiled, groups, hcompiled, hpatterns, hgroups, hregex, hnodup, hfragment⟩

theorem isGroupOf_of_denotes {filling : String → String} {compiled : List (Definition × Pieces)} {groups : List Regex}
    (h : List.Forall₂ (Denotes filling) compiled groups) : List.Forall₂ IsGroupOf (compiled.map Prod.fst) groups := by
  rw [List.forall₂_map_left_iff]
  exact h.imp fun _ _ h ↦ h.group

/-- The expression of a static mapping is made of the groups that the fragments are. -/
theorem groups_of_build (hbuild : build declaration settings = .ok mapping)
    (hstatic : mapping.source = .static text regex) (hstandalone : declaration.Standalone) :
    ∃ groups, List.Forall₂ IsGroupOf mapping.patterns groups ∧ regex = joined groups ∧
      (groups.flatMap groupNames).Nodup ∧
      (∀ (i : Nat) (definition : Definition), mapping.patterns[i]? = some definition → definition.index = i) ∧
      groups.length = declaration.patterns.length ∧
      ∀ i, declaration.alone? i = groups[i]?.map fun r ↦ Regex.sequence [.look .textStart, r, .look .textEnd] := by
  obtain ⟨compiled, groups, hcompiled, hpatterns, hgroups, hregex, hnodup, hfragment⟩ :=
    compiled_of_build hbuild hstatic hstandalone fun _ ↦ ""
  have hlength := (compileFrom_ok hcompiled).1
  refine ⟨groups, hpatterns ▸ isGroupOf_of_denotes hgroups, hregex, hnodup, ?_, hgroups.length_eq.symm.trans hlength,
    fun i ↦ ?_⟩
  · intro i definition hi
    rw [hpatterns, List.getElem?_map] at hi
    obtain ⟨c, hc, rfl⟩ := Option.map_eq_some_iff.mp hi
    exact index_of_compileFrom hcompiled hc
  · cases hi : compiled[i]? with
    | none =>
      have hlast : compiled.length ≤ i := List.getElem?_eq_none_iff.mp hi
      have hpatterns : declaration.patterns[i]? = none := List.getElem?_eq_none_iff.mpr (hlength ▸ hlast)
      have hgroups : groups[i]? = none := List.getElem?_eq_none_iff.mpr (hgroups.length_eq ▸ hlast)
      rw [Declaration.alone?, Declaration.fragment?, hpatterns, hgroups]
      rfl
    | some c =>
      obtain ⟨hlast, hc⟩ := List.getElem?_eq_some_iff.mp hi
      have hi' : i < groups.length := hgroups.length_eq ▸ hlast
      have hanchored := ((List.forall₂_iff_get.mp hgroups).2 i hlast hi').anchored
      rw [List.get_eq_getElem, hc] at hanchored
      rw [Declaration.alone?, hfragment i c hi, List.getElem?_eq_getElem hi', Option.bind_some, Option.map_some]
      refine Eq.trans (congrArg parse? ?_) hanchored
      simp [String.toList_append]

section Selection

variable {groups : List Regex}

theorem matchAlone?_eq (halone : ∀ i, declaration.alone? i =
      groups[i]?.map fun r ↦ Regex.sequence [.look .textStart, r, .look .textEnd]) (i : Nat) (path : String) :
    declaration.matchAlone? i path = groups[i]?.bind (matchAlone · (normalizePath path).toList) := by
  rw [Declaration.matchAlone?, halone, Option.bind_map]
  rfl

/-- Either no fragment matches alone and nothing is selected, or the first that does is selected and is alone in taking
part. -/
theorem select_cases {matches? : Nat → String → Option Thread}
    (hgroups : List.Forall₂ IsGroupOf mapping.patterns groups) (hnodup : (groups.flatMap groupNames).Nodup)
    (hmatch : ∀ (i : Nat) (path : String),
      matches? i path = groups[i]?.bind (matchAlone · (normalizePath path).toList)) (path : String) :
    (mapping.select (joined groups) path = .none ∧ ∀ i, matches? i path = none) ∨
      ∃ i definition t u, mapping.patterns[i]? = some definition ∧ matches? i path = some t ∧
        (∀ j < i, matches? j path = none) ∧
        mapping.select (joined groups) path = ⟨some definition, capturedBy t definition⟩ ∧
        (joined groups).search (normalizePath path).toList = some u ∧
        mapping.patterns.filter (fun p ↦ (u.captured? p.fragment).isSome) = [definition] := by
  have hlength := hgroups.length_eq
  have hzip {i : Nat} {r : Regex} (hr : groups[i]? = some r) :
      ∃ definition, (mapping.patterns.zip groups)[i]? = some (definition, r) := by
    have hi : i < mapping.patterns.length := hlength ▸ (List.getElem?_eq_some_iff.mp hr).1
    exact ⟨_, List.getElem?_zip_eq_some.mpr ⟨List.getElem?_eq_getElem hi, hr⟩⟩
  by_cases hne : groups = []
  · left
    have hselect := select_groups hgroups hnodup path
    subst hne
    rw [List.zip_nil_right] at hselect
    exact ⟨hselect, fun i ↦ hmatch i path⟩
  cases hu : (joined groups).search (normalizePath path).toList with
  | none =>
    left
    constructor
    · rw [select, select?, hu]
      rfl
    · intro i
      rw [hmatch]
      cases hr : groups[i]? with
      | none => rfl
      | some r =>
        obtain ⟨definition, hmem⟩ := hzip hr
        have hnone := matchAlone_of_search_none hlength hu hne _ (List.mem_of_getElem? hmem)
        rw [Option.bind_some, hnone]
  | some u =>
    right
    obtain ⟨before, definition, r, after, t, hsplit, hbefore, ht, hsame, hfilter⟩ :=
      first_of_search hgroups hnodup hne hu
    have hat : (mapping.patterns.zip groups)[before.length]? = some (definition, r) := by
      rw [hsplit, List.getElem?_append_right (Nat.le_refl _), Nat.sub_self]
      rfl
    obtain ⟨hdefinition, hr⟩ := List.getElem?_zip_eq_some.mp hat
    refine ⟨before.length, definition, t, u, hdefinition, ?_, ?_, ?_, rfl, hfilter⟩
    · rw [hmatch, hr, Option.bind_some, ht]
    · intro j hj
      rw [hmatch]
      cases hr : groups[j]? with
      | none => rfl
      | some r' =>
        obtain ⟨definition', hmem⟩ := hzip hr
        rw [hsplit, List.getElem?_append_left hj] at hmem
        have hnone := hbefore _ (List.mem_of_getElem? hmem)
        rw [Option.bind_some, hnone]
    · rw [select, select?, hu, Option.map_some, Option.getD_some, choose_of_filter hfilter,
        capturedBy_congr fun _ _ ↦ congrFun hsame _]

theorem first_unique {α : Type} {f : Nat → Option α} {i k : Nat} {a b : α} (hi : f i = some a)
    (hbefore : ∀ j < i, f j = none) (hk : f k = some b) (hbefore' : ∀ j < k, f j = none) : i = k := by
  rcases Nat.lt_trichotomy i k with hlt | heq | hgt
  · rw [hbefore' i hlt] at hi
    cases hi
  · exact heq
  · rw [hbefore k hgt] at hk
    cases hk

/-- The first pattern whose group matches alone is selected. -/
theorem select_of_first (hgroups : List.Forall₂ IsGroupOf mapping.patterns groups)
    (hnodup : (groups.flatMap groupNames).Nodup) {path : String} {i : Nat} {definition : Definition} {t : Thread}
    (hdefinition : mapping.patterns[i]? = some definition)
    (ht : groups[i]?.bind (matchAlone · (normalizePath path).toList) = some t)
    (hbefore : ∀ j < i, groups[j]?.bind (matchAlone · (normalizePath path).toList) = none) :
    mapping.select (joined groups) path = ⟨some definition, capturedBy t definition⟩ := by
  rcases select_cases hgroups hnodup (fun _ _ ↦ rfl) path with
    ⟨-, hall⟩ | ⟨k, own, u, -, hown, hu, hbefore', hselect, -, -⟩
  · rw [hall i] at ht
    cases ht
  · obtain rfl := first_unique ht hbefore hu hbefore'
    cases ht.symm.trans hu
    cases hdefinition.symm.trans hown
    exact hselect

/-- The only pattern is selected if its group matches alone. -/
theorem select_of_single {r : Regex} {definition : Definition} {path : String} {t : Thread}
    (hpatterns : mapping.patterns = [definition]) (hgroup : List.Forall₂ IsGroupOf mapping.patterns [r])
    (hnodup : ([r].flatMap groupNames).Nodup) (ht : matchAlone r (normalizePath path).toList = some t) :
    mapping.select (joined [r]) path = ⟨some definition, capturedBy t definition⟩ := by
  have hdefinition : mapping.patterns[0]? = some definition := by rw [hpatterns, List.getElem?_cons_zero]
  have hmatch : [r][0]?.bind (matchAlone · (normalizePath path).toList) = some t := by
    rw [List.getElem?_cons_zero, Option.bind_some, ht]
  exact select_of_first hgroup hnodup hdefinition hmatch fun j hj ↦ absurd hj (Nat.not_lt_zero j)

/-- A pattern that is selected is the first whose group matches alone. -/
theorem first_of_select (hgroups : List.Forall₂ IsGroupOf mapping.patterns groups)
    (hnodup : (groups.flatMap groupNames).Nodup) {path : String} {definition : Definition}
    (h : (mapping.select (joined groups) path).winner = some definition) :
    ∃ (i : Nat) (t : Thread), mapping.patterns[i]? = some definition ∧
      groups[i]?.bind (matchAlone · (normalizePath path).toList) = some t ∧
      (∀ j < i, groups[j]?.bind (matchAlone · (normalizePath path).toList) = none) ∧
      mapping.select (joined groups) path = ⟨some definition, capturedBy t definition⟩ := by
  rcases select_cases hgroups hnodup (fun _ _ ↦ rfl) path with
    ⟨hselect, -⟩ | ⟨i, own, t, -, hown, ht, hbefore, hselect, -, -⟩
  · rw [hselect] at h
    cases h
  · rw [hselect] at h
    cases h
    exact ⟨i, t, hown, ht, hbefore, hselect⟩

end Selection

/-- Two patterns that both match a path with a second part `y`. -/
def overlapping : Declaration :=
  { owner := "Overlapping"
    parameters := [⟨"a", .string, none, false⟩, ⟨"b", .string, none, false⟩]
    patterns := [⟨":a/y", []⟩, ⟨":a/:b", []⟩] }

/-- The mapping of a declaration with its expression, if it is static. -/
def staticBuild? (declaration : Declaration) (settings : Settings) : Option (Mapping × Regex) :=
  match build declaration settings with
  | .ok mapping =>
    match mapping.source with
    | .static _ regex => some (mapping, regex)
    | .dynamic _ => none
  | .error _ => none

theorem staticBuild?_eq_some {found : Mapping × Regex} (h : staticBuild? declaration settings = some found) :
    ∃ text, build declaration settings = .ok found.1 ∧ found.1.source = .static text found.2 := by
  unfold staticBuild? at h
  split at h
  · next mapping hmapping =>
    split at h
    · next text regex hsource =>
      cases h
      exact ⟨text, hmapping, hsource⟩
    · cases h
  · cases h

end Mapping

end PathBinding
