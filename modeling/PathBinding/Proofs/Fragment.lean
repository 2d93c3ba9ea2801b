import PathBinding.Fragment
import PathBinding.Proofs.Pieces

/-!
The text of a fragment. A segment adds its own text to what has been compiled before it and its parameters to those
before (`fill_segment`), and so does a query part (`fill_queryBranches`), so a fragment is the group of its path, a
question mark and the pairs behind it (`fill_compile`).
-/

set_option autoImplicit false
set_option relaxedAutoImplicit false

namespace PathBinding.Fragment

/-- The expression that captures an occurrence of a parameter, where a dynamic one is captured by what fills its gap. -/
def regexOf (declaration : Declaration) (filling : String → String) (inQuery : Bool) (name : String)
    (inline? : Option String) : String :=
  match inline?, declaration.find? name with
  | some regex, _ => regex
  | none, some descriptor =>
    if descriptor.dynamic then filling name
    else effectiveRegex descriptor inQuery (descriptor.kind.defaultRegex?.getD "")
  | none, none => ""

/-- The text of the group of a parameter. -/
def groupText (index : Nat) (name regex : String) : String :=
  "(?P<" ++ Definition.groupNameIn (Definition.fragmentName index) name ++ ">" ++ regex ++ ")"

section Text

variable (context : Context) (filling : String → String)

mutual

/-- The text that a segment of a path adds. -/
def segmentText : Segment → String
  | .literal text => text
  | .placeholder name inline? => groupText context.index name (regexOf context.declaration filling false name inline?)
  | .positional _ => ""
  | .optional inner => "(?:" ++ segmentsText inner ++ ")?"

def segmentsText : List Segment → String
  | [] => ""
  | segment :: rest => segmentText segment ++ segmentsText rest

end

/-- A query part: the key of a pair and the parameter that its value is captured for. -/
structure QueryPart where
  key : String
  name : String
  inline? : Option String

/-- The query part that a text declares. -/
def queryPart? (query : String) : Option QueryPart :=
  match splitPair? query with
  | none => none
  | some (key, value) =>
    match Segment.parse value with
    | .ok [.placeholder name inline?] => some ⟨key, name, inline?⟩
    | _ => none

/-- The occurrences that come with an expression of their own. -/
def inlined (occurrences : List (String × Option String)) : List (String × String) :=
  occurrences.filterMap fun p ↦ p.2.map fun regex ↦ (p.1, regex)

/-- The occurrence of a parameter in a query. -/
def QueryPart.occurrence (part : QueryPart) : String × Option String :=
  (part.name, part.inline?)

def QueryPart.text (part : QueryPart) : String :=
  Regex.escape part.key ++ "=" ++
    groupText context.index part.name (regexOf context.declaration filling true part.name part.inline?)

end Text

@[simp]
theorem Draft.text_parameters (draft : Draft) (text : String) : (draft.text text).parameters = draft.parameters :=
  rfl

@[simp]
theorem Draft.text_inlineRegexes (draft : Draft) (text : String) :
    (draft.text text).inlineRegexes = draft.inlineRegexes :=
  rfl

theorem inlined_append (occurrences others : List (String × Option String)) :
    inlined (occurrences ++ others) = inlined occurrences ++ inlined others :=
  List.filterMap_append

variable {context : Context} (filling : String → String)

theorem fill_placeholder {draft next : Draft} {name : String} {inline? : Option String} {inQuery : Bool}
    (h : placeholder context name inline? inQuery draft = .ok next) :
    next.pieces.fill filling = draft.pieces.fill filling ++
        groupText context.index name (regexOf context.declaration filling inQuery name inline?) ∧
      next.parameters = draft.parameters ++ [name] ∧
      next.inlineRegexes = draft.inlineRegexes ++ inlined [(name, inline?)] := by
  cases hfind : context.declaration.find? name with
  | none =>
    rw [placeholder, hfind] at h
    cases h
  | some descriptor =>
    rw [placeholder, hfind] at h
    obtain ⟨default, hdefault, h⟩ := bind_eq_ok.mp h
    have hkind : descriptor.kind.defaultRegex?.getD "" = default := by
      unfold Kind.requireDefaultRegex at hdefault
      split at hdefault
      · next regex hregex =>
        cases hdefault
        rw [hregex]
        rfl
      · cases hdefault
    by_cases hname : name ∈ draft.parameters
    · dsimp only at h
      rw [if_pos hname] at h
      cases h
    · dsimp only at h
      rw [if_neg hname] at h
      cases h
      have hstring (s : String) : toString s = s := rfl
      refine ⟨?_, ?_, ?_⟩
      · rw [Draft.text, Pieces.fill_addText, groupText]
        cases inline? with
        | some regex => simp only [regexOf, Draft.text, Pieces.fill_addText, String.append_assoc, hstring]
        | none =>
          simp only [regexOf, hfind]
          split
          · simp only [Draft.text, Pieces.fill_addText, Pieces.fill_addSlot, String.append_assoc, hstring]
          · rw [hkind]
            simp only [Draft.text, Pieces.fill_addText, String.append_assoc, hstring]
      · cases inline? with
        | some regex => rfl
        | none =>
          dsimp only
          split <;> rfl
      · cases inline? with
        | some regex => rfl
        | none =>
          dsimp only
          split <;> exact (List.append_nil _).symm

mutual

/-- A segment adds its text, its parameters and their own expressions. -/
theorem fill_segment {draft next : Draft} {segment : Segment}
    (h : Fragment.segment context draft segment = .ok next) :
    next.pieces.fill filling = draft.pieces.fill filling ++ segmentText context filling segment ∧
      next.parameters = draft.parameters ++ segment.placeholders.map Prod.fst ∧
      next.inlineRegexes = draft.inlineRegexes ++ inlined segment.placeholders := by
  cases segment with
  | literal text =>
    cases h
    exact ⟨Pieces.fill_addText filling draft.pieces text, (List.append_nil _).symm, (List.append_nil _).symm⟩
  | placeholder name inline? => exact fill_placeholder filling h
  | positional index => cases h
  | optional inner =>
    obtain ⟨inside, hinside, h⟩ := bind_eq_ok.mp h
    cases h
    obtain ⟨hfill, hparameters, hinline⟩ := fill_segments hinside
    refine ⟨?_, hparameters, hinline⟩
    rw [Draft.text, Pieces.fill_addText, hfill, Draft.text, Pieces.fill_addText, segmentText]
    simp only [String.append_assoc]

theorem fill_segments {draft next : Draft} {segments : List Segment}
    (h : Fragment.segments context draft segments = .ok next) :
    next.pieces.fill filling = draft.pieces.fill filling ++ segmentsText context filling segments ∧
      next.parameters = draft.parameters ++ (Segment.placeholdersAll segments).map Prod.fst ∧
      next.inlineRegexes = draft.inlineRegexes ++ inlined (Segment.placeholdersAll segments) := by
  cases segments with
  | nil =>
    cases h
    exact ⟨String.append_empty.symm, (List.append_nil _).symm, (List.append_nil _).symm⟩
  | cons head rest =>
    obtain ⟨middle, hhead, h⟩ := bind_eq_ok.mp h
    obtain ⟨hfill, hparameters, hinline⟩ := fill_segment hhead
    obtain ⟨hfill', hparameters', hinline'⟩ := fill_segments h
    rw [hfill', hfill, hparameters', hparameters, hinline', hinline, segmentsText, Segment.placeholdersAll, inlined_append]
    simp only [String.append_assoc, List.append_assoc, List.map_append, and_self]

end

/-! ### Query parts -/

theorem fill_queryBranch {draft next : Draft} {query : String} {branch : Pieces}
    (h : queryBranch context draft query = .ok (next, branch)) :
    ∃ part : QueryPart, queryPart? query = some part ∧ branch.fill filling = part.text context filling ∧
      next.pieces = draft.pieces ∧ next.parameters = draft.parameters ++ [part.name] ∧
      next.inlineRegexes = draft.inlineRegexes ++ inlined [part.occurrence] := by
  unfold queryBranch at h
  cases hpair : splitPair? query with
  | none =>
    rw [hpair] at h
    cases h
  | some pair =>
    obtain ⟨key, value⟩ := pair
    rw [hpair] at h
    dsimp only at h
    cases hkey : isQueryKey key with
    | false =>
      simp only [hkey] at h
      cases h
    | true =>
      simp only [hkey, if_true] at h
      obtain ⟨segments, hsegments, h⟩ := bind_eq_ok.mp h
      split at h
      · next name inline? =>
        obtain ⟨filled, hfilled, h⟩ := bind_eq_ok.mp h
        cases h
        obtain ⟨hfill, hparameters, hinline⟩ := fill_placeholder filling hfilled
        rw [Draft.text_parameters, Draft.text_parameters] at hparameters
        rw [Draft.text_inlineRegexes, Draft.text_inlineRegexes] at hinline
        refine ⟨⟨key, name, inline?⟩, ?_, ?_, rfl, hparameters, hinline⟩
        · rw [queryPart?, hpair]
          simp only [hsegments]
        · rw [hfill]
          simp [QueryPart.text, Draft.text, Pieces.fill_addText, Pieces.fill, String.append_assoc]
      · cases h

theorem fill_queryBranches {draft last : Draft} {queries : List String} {branches : List Pieces}
    (h : queryBranches context draft queries = .ok (last, branches)) :
    ∃ parts : List QueryPart, queries.map queryPart? = parts.map some ∧
      branches.map (Pieces.fill filling) = parts.map (QueryPart.text context filling) ∧ last.pieces = draft.pieces ∧
      last.parameters = draft.parameters ++ parts.map QueryPart.name ∧
      last.inlineRegexes = draft.inlineRegexes ++ inlined (parts.map QueryPart.occurrence) := by
  induction queries generalizing draft branches with
  | nil =>
    cases h
    exact ⟨[], rfl, rfl, rfl, (List.append_nil _).symm, (List.append_nil _).symm⟩
  | cons query rest ih =>
    obtain ⟨⟨next, branch⟩, hbranch, h⟩ := bind_eq_ok.mp h
    obtain ⟨⟨final, others⟩, hothers, h⟩ := bind_eq_ok.mp h
    cases h
    obtain ⟨part, hpart, hfill, hpieces, hparameters, hinline⟩ := fill_queryBranch filling hbranch
    obtain ⟨parts, hparts, hfills, hpieces', hparameters', hinline'⟩ := ih hothers
    refine ⟨part :: parts, ?_, ?_, hpieces'.trans hpieces, ?_, ?_⟩
    · rw [List.map_cons, List.map_cons, hpart, hparts]
    · rw [List.map_cons, List.map_cons, hfill, hfills]
    · rw [hparameters', hparameters, List.map_cons, List.append_assoc, List.singleton_append]
    · rw [hinline', hinline, List.append_assoc, ← inlined_append, List.singleton_append, List.map_cons]

/-- The keys of query parts are in order. -/
theorem isQueryKey_of_queryBranch {draft next : Draft} {query : String} {branch : Pieces}
    (h : queryBranch context draft query = .ok (next, branch)) {part : QueryPart} (hpart : queryPart? query = some part) :
    isQueryKey part.key = true := by
  unfold queryBranch at h
  unfold queryPart? at hpart
  cases hpair : splitPair? query with
  | none =>
    rw [hpair] at hpart
    cases hpart
  | some pair =>
    obtain ⟨key, value⟩ := pair
    rw [hpair] at h hpart
    dsimp only at h hpart
    have hsame : part.key = key := by
      split at hpart
      · cases hpart
        rfl
      · cases hpart
    rw [hsame]
    cases hkey : isQueryKey key with
    | false =>
      simp only [hkey] at h
      cases h
    | true => rfl

theorem isQueryKey_of_queryBranches {draft last : Draft} {queries : List String} {branches : List Pieces}
    (h : queryBranches context draft queries = .ok (last, branches)) :
    ∀ query ∈ queries, ∀ part, queryPart? query = some part → isQueryKey part.key = true := by
  induction queries generalizing draft branches with
  | nil => exact fun _ hquery ↦ absurd hquery List.not_mem_nil
  | cons query rest ih =>
    obtain ⟨⟨next, branch⟩, hbranch, h⟩ := bind_eq_ok.mp h
    obtain ⟨⟨final, others⟩, hothers, h⟩ := bind_eq_ok.mp h
    cases h
    exact List.forall_mem_cons.mpr ⟨fun _ ↦ isQueryKey_of_queryBranch hbranch, ih hothers⟩

/-! ### Gaps -/

/-- No parameter of the declaration is resolved at each match. -/
def IsStatic (declaration : Declaration) : Prop :=
  ∀ descriptor ∈ declaration.parameters, descriptor.dynamic = false

theorem dynamic_of_find? {declaration : Declaration} (h : IsStatic declaration) {name : String}
    {descriptor : Descriptor} (hfind : declaration.find? name = some descriptor) : descriptor.dynamic = false :=
  h descriptor (List.mem_of_find?_eq_some hfind)

/-- The parameter of a name is resolved at each match. -/
def IsDynamic (declaration : Declaration) (name : String) : Prop :=
  ∃ descriptor, declaration.find? name = some descriptor ∧ descriptor.dynamic = true

/-- The gaps that occurrences of parameters leave: those of dynamic parameters without an expression of their own. -/
def gapsOf (declaration : Declaration) (occurrences : List (String × Option String)) : List String :=
  (occurrences.filter fun p ↦ p.2.isNone && (declaration.find? p.1).any (·.dynamic)).map Prod.fst

theorem gapsOf_append (declaration : Declaration) (occurrences others : List (String × Option String)) :
    gapsOf declaration (occurrences ++ others) = gapsOf declaration occurrences ++ gapsOf declaration others := by
  rw [gapsOf, List.filter_append, List.map_append]
  rfl

theorem gapsOf_flatMap (declaration : Declaration) {α : Type} (f : α → List (String × Option String)) (items : List α) :
    gapsOf declaration (items.flatMap f) = items.flatMap fun item ↦ gapsOf declaration (f item) := by
  induction items with
  | nil => rfl
  | cons item rest ih => rw [List.flatMap_cons, List.flatMap_cons, gapsOf_append, ih]

theorem isDynamic_of_mem_gapsOf {declaration : Declaration} {occurrences : List (String × Option String)} {name : String}
    (h : name ∈ gapsOf declaration occurrences) : IsDynamic declaration name := by
  obtain ⟨p, hp, rfl⟩ := List.mem_map.mp h
  obtain ⟨-, hdynamic⟩ := Bool.and_eq_true_iff.mp (List.mem_filter.mp hp).2
  exact (Option.any_eq_true _ _).mp hdynamic

theorem gapsOf_eq_nil_iff {declaration : Declaration} {occurrences : List (String × Option String)} :
    gapsOf declaration occurrences = [] ↔ ∀ p ∈ occurrences, p.2 = none → ¬IsDynamic declaration p.1 := by
  rw [gapsOf, List.map_eq_nil_iff, List.filter_eq_nil_iff]
  refine forall₂_congr fun p _ ↦ ?_
  rw [Bool.and_eq_true_iff, Option.isNone_iff_eq_none, not_and, Option.any_eq_true]
  rfl

/-- An occurrence adds its gap to those before it. -/
theorem slots_placeholder {draft next : Draft} {name : String} {inline? : Option String} {inQuery : Bool}
    (h : placeholder context name inline? inQuery draft = .ok next) :
    next.pieces.slots = draft.pieces.slots ++ gapsOf context.declaration [(name, inline?)] := by
  cases hfind : context.declaration.find? name with
  | none =>
    rw [placeholder, hfind] at h
    cases h
  | some descriptor =>
    rw [placeholder, hfind] at h
    obtain ⟨default, -, h⟩ := bind_eq_ok.mp h
    by_cases hname : name ∈ draft.parameters
    · dsimp only at h
      rw [if_pos hname] at h
      cases h
    · dsimp only at h
      rw [if_neg hname] at h
      cases h
      cases inline? with
      | some regex =>
        have hgaps : gapsOf context.declaration [(name, some regex)] = [] := rfl
        simp only [Draft.text, Pieces.slots_addText, hgaps, List.append_nil]
      | none =>
        cases hdynamic : descriptor.dynamic with
        | true =>
          have hgaps : gapsOf context.declaration [(name, none)] = [name] := by simp [gapsOf, hfind, hdynamic]
          simp only [if_true, Draft.text, Pieces.slots_addText, Pieces.slots_addSlot, hgaps]
        | false =>
          have hgaps : gapsOf context.declaration [(name, none)] = [] := by simp [gapsOf, hfind, hdynamic]
          simp [Draft.text, Pieces.slots_addText, hgaps]

mutual

theorem slots_segment {context : Context} {draft next : Draft} {segment : Segment}
    (h : Fragment.segment context draft segment = .ok next) :
    next.pieces.slots = draft.pieces.slots ++ gapsOf context.declaration segment.placeholders := by
  cases segment with
  | literal text =>
    cases h
    rw [Draft.text, Pieces.slots_addText]
    exact (List.append_nil _).symm
  | placeholder name inline? => exact slots_placeholder h
  | positional index => cases h
  | optional inner =>
    obtain ⟨inside, hinside, h⟩ := bind_eq_ok.mp h
    cases h
    rw [Draft.text, Pieces.slots_addText, slots_segments hinside, Draft.text, Pieces.slots_addText]
    rfl

theorem slots_segments {context : Context} {draft next : Draft} {segments : List Segment}
    (h : Fragment.segments context draft segments = .ok next) :
    next.pieces.slots = draft.pieces.slots ++ gapsOf context.declaration (Segment.placeholdersAll segments) := by
  cases segments with
  | nil =>
    cases h
    exact (List.append_nil _).symm
  | cons head rest =>
    obtain ⟨middle, hhead, h⟩ := bind_eq_ok.mp h
    rw [slots_segments h, slots_segment hhead, Segment.placeholdersAll, gapsOf_append, List.append_assoc]

end

theorem slots_queryBranch {draft next : Draft} {query : String} {branch : Pieces}
    (h : queryBranch context draft query = .ok (next, branch)) :
    branch.slots = gapsOf context.declaration ((queryPart? query).toList.map QueryPart.occurrence) := by
  unfold queryBranch at h
  unfold queryPart?
  cases hpair : splitPair? query with
  | none =>
    rw [hpair] at h
    cases h
  | some pair =>
    obtain ⟨key, value⟩ := pair
    rw [hpair] at h
    dsimp only at h ⊢
    split at h
    · obtain ⟨segments, hsegments, h⟩ := bind_eq_ok.mp h
      split at h
      · obtain ⟨filled, hfilled, h⟩ := bind_eq_ok.mp h
        cases h
        rw [slots_placeholder hfilled, Draft.text, Pieces.slots_addText, Draft.text, Pieces.slots_addText, hsegments]
        rfl
      · cases h
    · cases h

theorem slots_queryBranches {draft last : Draft} {queries : List String} {branches : List Pieces}
    (h : queryBranches context draft queries = .ok (last, branches)) :
    branches.flatMap Pieces.slots =
      gapsOf context.declaration ((queries.filterMap queryPart?).map QueryPart.occurrence) := by
  induction queries generalizing draft branches with
  | nil =>
    cases h
    rfl
  | cons query rest ih =>
    obtain ⟨⟨next, branch⟩, hbranch, h⟩ := bind_eq_ok.mp h
    obtain ⟨⟨final, others⟩, hothers, h⟩ := bind_eq_ok.mp h
    cases h
    rw [List.flatMap_cons, slots_queryBranch hbranch, ih hothers, ← gapsOf_append, ← List.map_append, List.filterMap_cons]
    cases queryPart? query <;> rfl

/-! ### Parameters -/

theorem nodup_placeholder {draft next : Draft} {name : String} {inline? : Option String} {inQuery : Bool}
    (hdraft : draft.parameters.Nodup) (h : placeholder context name inline? inQuery draft = .ok next) :
    next.parameters.Nodup := by
  obtain ⟨-, hparameters, -⟩ := fill_placeholder (fun _ ↦ "") h
  have hname : name ∉ draft.parameters := by
    intro hname
    cases hfind : context.declaration.find? name with
    | none =>
      rw [placeholder, hfind] at h
      cases h
    | some descriptor =>
      rw [placeholder, hfind] at h
      obtain ⟨default, -, h⟩ := bind_eq_ok.mp h
      dsimp only at h
      rw [if_pos hname] at h
      cases h
  rw [hparameters, List.nodup_append]
  refine ⟨hdraft, List.pairwise_singleton _ name, fun other hother last hlast ↦ ?_⟩
  rw [List.mem_singleton.mp hlast]
  rintro rfl
  exact hname hother

mutual

theorem nodup_segment {context : Context} {draft next : Draft} {segment : Segment} (hdraft : draft.parameters.Nodup)
    (h : Fragment.segment context draft segment = .ok next) : next.parameters.Nodup := by
  cases segment with
  | literal text =>
    cases h
    exact hdraft
  | placeholder name inline? => exact nodup_placeholder hdraft h
  | positional index => cases h
  | optional inner =>
    obtain ⟨inside, hinside, h⟩ := bind_eq_ok.mp h
    cases h
    rw [Draft.text_parameters]
    refine nodup_segments ?_ hinside
    rwa [Draft.text_parameters]

theorem nodup_segments {context : Context} {draft next : Draft} {segments : List Segment}
    (hdraft : draft.parameters.Nodup) (h : Fragment.segments context draft segments = .ok next) :
    next.parameters.Nodup := by
  cases segments with
  | nil =>
    cases h
    exact hdraft
  | cons head rest =>
    obtain ⟨middle, hhead, h⟩ := bind_eq_ok.mp h
    exact nodup_segments (nodup_segment hdraft hhead) h

end

theorem nodup_queryBranch {draft next : Draft} {query : String} {branch : Pieces} (hdraft : draft.parameters.Nodup)
    (h : queryBranch context draft query = .ok (next, branch)) : next.parameters.Nodup := by
  unfold queryBranch at h
  cases hpair : splitPair? query with
  | none =>
    rw [hpair] at h
    cases h
  | some pair =>
    obtain ⟨key, value⟩ := pair
    rw [hpair] at h
    dsimp only at h
    split at h
    · obtain ⟨segments, hsegments, h⟩ := bind_eq_ok.mp h
      split at h
      · obtain ⟨filled, hfilled, h⟩ := bind_eq_ok.mp h
        cases h
        have hopened := nodup_placeholder ?_ hfilled
        · exact hopened
        · rwa [Draft.text_parameters, Draft.text_parameters]
      · cases h
    · cases h

theorem nodup_queryBranches {draft last : Draft} {queries : List String} {branches : List Pieces}
    (hdraft : draft.parameters.Nodup) (h : queryBranches context draft queries = .ok (last, branches)) :
    last.parameters.Nodup := by
  induction queries generalizing draft branches with
  | nil =>
    cases h
    exact hdraft
  | cons query rest ih =>
    obtain ⟨⟨next, branch⟩, hbranch, h⟩ := bind_eq_ok.mp h
    obtain ⟨⟨final, others⟩, hothers, h⟩ := bind_eq_ok.mp h
    cases h
    exact ih (nodup_queryBranch hdraft hbranch) hothers

/-! ### Whole fragments -/

/-- The text of a fragment with a path and query parts. -/
def fragmentText (context : Context) (filling : String → String) (path : List Segment) (parts : List QueryPart) :
    String :=
  "(?P<" ++ Definition.fragmentName context.index ++ ">" ++ segmentsText context filling path ++ "\\?(?:(?:" ++
    String.join (parts.map fun part ↦ part.text context filling ++ "|") ++ "[^&]*)&)*)"

/-- A fragment begins and ends with a parenthesis. -/
theorem toList_fragmentText (context : Context) (filling : String → String) (path : List Segment)
    (parts : List QueryPart) : ∃ x, (fragmentText context filling path parts).toList = '(' :: (x ++ [')']) := by
  refine ⟨['?', 'P', '<'] ++ (Definition.fragmentName context.index).toList ++ ['>'] ++
    (segmentsText context filling path).toList ++ "\\?(?:(?:".toList ++
    (String.join (parts.map fun part ↦ part.text context filling ++ "|")).toList ++ "[^&]*)&)*".toList, ?_⟩
  simp [fragmentText, String.toList_append]

/-- The occurrences of parameters in a pattern: those in its path, then those in its query. -/
def occurrences (pattern : PatternDeclaration) : List (String × Option String) :=
  Segment.placeholdersAll ((Segment.parse (rooted pattern.pattern)).toOption.getD []) ++
    (pattern.query.filterMap queryPart?).map QueryPart.occurrence

/-- No occurrence in a pattern leaves a gap. -/
def IsGapless (declaration : Declaration) : Prop :=
  ∀ pattern ∈ declaration.patterns, ∀ p ∈ occurrences pattern, p.2 = none → ¬IsDynamic declaration p.1

theorem IsStatic.isGapless {declaration : Declaration} (h : IsStatic declaration) : IsGapless declaration := by
  rintro pattern - p - - ⟨descriptor, hfind, hdynamic⟩
  exact Bool.noConfusion ((dynamic_of_find? h hfind).symm.trans hdynamic)

theorem fill_pairs (pieces : Pieces) (branches : List Pieces) :
    (branches.foldl (fun pieces branch ↦ (pieces.extend branch).addText "|") pieces).fill filling =
      pieces.fill filling ++ String.join (branches.map fun branch ↦ branch.fill filling ++ "|") := by
  induction branches generalizing pieces with
  | nil => simp [String.join]
  | cons branch rest ih =>
    rw [List.foldl_cons, ih, Pieces.fill_addText, Pieces.fill_extend, List.map_cons, String.join_cons]
    simp only [String.append_assoc]

theorem slots_pairs (pieces : Pieces) (branches : List Pieces) :
    (branches.foldl (fun pieces branch ↦ (pieces.extend branch).addText "|") pieces).slots =
      pieces.slots ++ branches.flatMap Pieces.slots := by
  induction branches generalizing pieces with
  | nil => simp
  | cons branch rest ih =>
    rw [List.foldl_cons, ih, Pieces.slots_addText, Pieces.slots_extend, List.flatMap_cons, List.append_assoc]

section Compile

variable {declaration : Declaration} {pattern : PatternDeclaration} {index : Nat} {definition : Definition}
  {pieces : Pieces}

/-- What a compilation yields. -/
theorem compile_ok (h : compile declaration pattern index = .ok (definition, pieces)) :
    let context : Context := ⟨declaration, pattern.pattern, index⟩
    ∃ (path : List Segment) (parts : List QueryPart) (opened draft : Draft), Segment.parse (rooted pattern.pattern) = .ok path ∧
      segments context opened path = .ok draft ∧
      pattern.query.map queryPart? = parts.map some ∧ definition.index = index ∧
      definition.parameters = (Segment.placeholdersAll path).map Prod.fst ++ parts.map QueryPart.name ∧
      definition.inlineRegexes = inlined (Segment.placeholdersAll path ++ parts.map QueryPart.occurrence) ∧
      pieces.fill filling = fragmentText context filling path parts := by
  obtain ⟨path, hpath, h⟩ := bind_eq_ok.mp h
  obtain ⟨draft, hdraft, h⟩ := bind_eq_ok.mp h
  obtain ⟨⟨last, branches⟩, hbranches, h⟩ := bind_eq_ok.mp h
  cases h
  obtain ⟨hfill, hparameters, hinline⟩ := fill_segments filling hdraft
  obtain ⟨parts, hparts, hfills, hpieces, hparameters', hinline'⟩ := fill_queryBranches filling hbranches
  refine ⟨path, parts, _, draft, hpath, hdraft, hparts, rfl, ?_, ?_, ?_⟩
  · rw [hparameters', hparameters]
    rfl
  · rw [hinline', hinline, inlined_append]
    rfl
  · have hpairs : branches.map (fun branch ↦ branch.fill filling ++ "|") =
        parts.map fun part ↦ part.text ⟨declaration, pattern.pattern, index⟩ filling ++ "|" := by
      have hmapped := congrArg (List.map (· ++ "|")) hfills
      rwa [List.map_map, List.map_map] at hmapped
    rw [Pieces.fill_addText, fill_pairs, Pieces.fill_addText, hpieces, hfill, hpairs, fragmentText, Draft.text,
      Pieces.fill_addText]
    simp [Pieces.fill]
    rfl

/-- A fragment has the gaps that its occurrences leave, in their order. -/
theorem slots_of_compile (h : compile declaration pattern index = .ok (definition, pieces)) :
    pieces.slots = gapsOf declaration (occurrences pattern) := by
  obtain ⟨path, hpath, h⟩ := bind_eq_ok.mp h
  obtain ⟨draft, hdraft, h⟩ := bind_eq_ok.mp h
  obtain ⟨⟨last, branches⟩, hbranches, h⟩ := bind_eq_ok.mp h
  cases h
  obtain ⟨parts, -, -, hpieces, -⟩ := fill_queryBranches (fun _ ↦ "") hbranches
  rw [Pieces.slots_addText, slots_pairs, Pieces.slots_addText, hpieces, slots_segments hdraft,
    slots_queryBranches hbranches, Draft.text, Pieces.slots_addText, occurrences, hpath, gapsOf_append]
  rfl

theorem isQueryKey_of_compile (h : compile declaration pattern index = .ok (definition, pieces)) :
    ∀ query ∈ pattern.query, ∀ part, queryPart? query = some part → isQueryKey part.key = true := by
  obtain ⟨path, -, h⟩ := bind_eq_ok.mp h
  obtain ⟨draft, -, h⟩ := bind_eq_ok.mp h
  obtain ⟨⟨last, branches⟩, hbranches, -⟩ := bind_eq_ok.mp h
  exact isQueryKey_of_queryBranches hbranches

/-- A pattern captures each parameter once. -/
theorem nodup_parameters (h : compile declaration pattern index = .ok (definition, pieces)) :
    definition.parameters.Nodup := by
  obtain ⟨path, -, h⟩ := bind_eq_ok.mp h
  obtain ⟨draft, hdraft, h⟩ := bind_eq_ok.mp h
  obtain ⟨⟨last, branches⟩, hbranches, h⟩ := bind_eq_ok.mp h
  cases h
  exact nodup_queryBranches (nodup_segments List.nodup_nil hdraft) hbranches

/-- The parameters in the path are among those of the pattern. -/
theorem mem_parameters_of_path {path : List Segment} (h : compile declaration pattern index = .ok (definition, pieces))
    (hpath : Segment.parse (rooted pattern.pattern) = .ok path) {p : String × Option String}
    (hp : p ∈ Segment.placeholdersAll path) : p.1 ∈ definition.parameters := by
  obtain ⟨other, parts, _, _, hother, -, -, -, hparameters, -⟩ := compile_ok (fun _ ↦ "") h
  obtain rfl : other = path := Except.ok.inj (hother.symm.trans hpath)
  rw [hparameters]
  exact List.mem_append_left _ (List.mem_map_of_mem hp)

theorem definition_of_compile (h : compile declaration pattern index = .ok (definition, pieces)) {path : List Segment}
    (hpath : Segment.parse (rooted pattern.pattern) = .ok path) : definition.raw = pattern.pattern ∧
      definition.queryParameters = definition.parameters.drop (Segment.placeholdersAll path).length := by
  obtain ⟨own, hown, h⟩ := bind_eq_ok.mp h
  obtain rfl : own = path := Except.ok.inj (hown.symm.trans hpath)
  obtain ⟨draft, hdraft, h⟩ := bind_eq_ok.mp h
  obtain ⟨⟨last, branches⟩, hbranches, h⟩ := bind_eq_ok.mp h
  cases h
  refine ⟨rfl, ?_⟩
  obtain ⟨-, hparameters, -⟩ := fill_segments (fun _ ↦ "") hdraft
  dsimp only
  rw [hparameters]
  simp

/-- Without dynamic parameters a fragment has no gaps. -/
theorem slots_compile (hstatic : IsStatic declaration) (h : compile declaration pattern index = .ok (definition, pieces)) :
    pieces.slots = [] := by
  refine List.eq_nil_iff_forall_not_mem.mpr fun slot hslot ↦ ?_
  obtain ⟨descriptor, hfind, hdynamic⟩ := isDynamic_of_mem_gapsOf (slots_of_compile h ▸ hslot)
  exact Bool.noConfusion (hdynamic.symm.trans (dynamic_of_find? hstatic hfind))

end Compile

end PathBinding.Fragment
