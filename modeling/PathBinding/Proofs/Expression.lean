import PathBinding.Proofs.Fragment
import PathBinding.Proofs.Placeholders
import PathBinding.Proofs.Regex.Pairs

/-!
The expression of a fragment. If the literals of a path are plain and the expressions of all parameters can be held
together, the text of a fragment is read as what it is meant to be: each segment as an expression of its own
(`writes_segments`), the query parts as alternatives of one pair (`writes_queryParts`), and the whole as the group of the
pattern (`writes_fragment`).
-/

set_option autoImplicit false
set_option relaxedAutoImplicit false

namespace PathBinding

open Regex

/-! ### Plain literals -/

namespace Segment

mutual

/-- The literals of a segment from left to right, with their backslashes. -/
def literals : Segment → List String
  | .literal text => [text]
  | .placeholder _ _ => []
  | .positional _ => []
  | .optional inner => literalsAll inner

def literalsAll : List Segment → List String
  | [] => []
  | segment :: rest => literals segment ++ literalsAll rest

end

/-- Whether a literal consists of characters without a meaning in expressions and of escapes of those that have one. -/
def isPlain : List Char → Bool
  | [] => true
  | '\\' :: c :: rest => isMeta c && isPlain rest
  | c :: rest => !isMeta c && isPlain rest

theorem writes_plain_literal {text : List Char} (h : isPlain text = true) :
    Writes text (characters (unescapeChars text)) := by
  induction text using isPlain.induct with
  | case1 => exact .nil
  | case2 c rest ih =>
    rw [isPlain, Bool.and_eq_true] at h
    rw [unescapeChars]
    exact (writes_escaped h.1).append (ih h.2)
  | case3 c rest hne ih =>
    rw [isPlain, Bool.and_eq_true, Bool.not_eq_true'] at h
    · have hunescape : unescapeChars (c :: rest) = c :: unescapeChars rest := by
        rw [unescapeChars]
        · rintro rfl rfl
          cases h.1
        · exact hne
      rw [hunescape]
      exact (writes_plain h.1).append (ih h.2)
    · exact hne

end Segment

namespace Fragment

/-! ### Names of groups -/

theorem isGroupName_fragmentName (index : Nat) : IsGroupName (Definition.fragmentName index) := by
  refine ⟨'p', (toString index).toList, ?_, rfl, fun c hc ↦ ?_⟩
  · rw [Definition.fragmentName, String.toList_append]
    rfl
  · rw [Nat.toString_eq_repr, Nat.toList_repr] at hc
    have hdigit := Nat.isDigit_of_mem_toDigits (by decide) (by decide) hc
    simp [Char.isAlphanum, hdigit]

theorem isGroupName_groupNameIn (index : Nat) {name : String} (h : Segment.IsName name) :
    IsGroupName (Definition.groupNameIn (Definition.fragmentName index) name) := by
  obtain ⟨first, letters, hname, hfirst, hletters⟩ := isGroupName_fragmentName index
  refine ⟨first, letters ++ '_' :: name.toList, ?_, hfirst, fun c hc ↦ ?_⟩
  · rw [Definition.groupNameIn, String.toList_append, String.toList_append, hname]
    simp
  · rcases List.mem_append.mp hc with hc | hc
    · exact hletters c hc
    · rcases List.mem_cons.mp hc with rfl | hc
      · rfl
      · exact h.2 c hc

/-! ### Expressions -/

/-- What the expression of a parameter denotes. -/
def bodyOf (regex : String) : Regex :=
  (held? regex).getD .empty

/-- The expression of a parameter can be held together. -/
def IsSelfContained (regex : String) : Prop :=
  (held? regex).isSome

instance (regex : String) : Decidable (IsSelfContained regex) :=
  inferInstanceAs (Decidable (_ = true))

section Expression

variable (context : Context) (filling : String → String)

/-- The group of a parameter. -/
def parameterRegex (index : Nat) (name regex : String) : Regex :=
  .group (some (Definition.groupNameIn (Definition.fragmentName index) name)) (bodyOf regex)

mutual

/-- The expressions that a segment of a path adds. -/
def segmentRegexes : Segment → List Regex
  | .literal text => characters (Segment.unescapeChars text.toList)
  | .placeholder name inline? =>
    [parameterRegex context.index name (regexOf context.declaration filling false name inline?)]
  | .positional _ => []
  | .optional inner => [.repeat 0 (some 1) true (sequence (segmentsRegexes inner))]

def segmentsRegexes : List Segment → List Regex
  | [] => []
  | segment :: rest => segmentRegexes segment ++ segmentsRegexes rest

end

def QueryPart.regexes (part : QueryPart) : List Regex :=
  characters part.key.toList ++ [.set (.single '='),
    parameterRegex context.index part.name (regexOf context.declaration filling true part.name part.inline?)]

/-- A question mark and the pairs behind it. -/
def queryRegexes (parts : List QueryPart) : List Regex :=
  query (parts.map (QueryPart.regexes context filling))

/-- The expression of a fragment with a path and query parts. -/
def fragmentRegex (path : List Segment) (parts : List QueryPart) : Regex :=
  .group (some (Definition.fragmentName context.index))
    (sequence (segmentsRegexes context filling path ++ queryRegexes context filling parts))

end Expression

theorem unbranched_characters (text : List Char) : ∀ r ∈ characters text, Unbranched r := by
  intro r hr
  obtain ⟨c, -, rfl⟩ := List.mem_map.mp hr
  rfl

section Writing

variable {context : Context} {filling : String → String}

mutual

theorem unbranched_segment (segment : Segment) : ∀ r ∈ segmentRegexes context filling segment, Unbranched r := by
  cases segment with
  | literal text => exact unbranched_characters _
  | placeholder name inline? => exact List.forall_mem_singleton.mpr rfl
  | positional index => exact nofun
  | optional inner => exact List.forall_mem_singleton.mpr rfl

theorem unbranched_segments (segments : List Segment) :
    ∀ r ∈ segmentsRegexes context filling segments, Unbranched r := by
  cases segments with
  | nil => exact nofun
  | cons segment rest => exact List.forall_mem_append.mpr ⟨unbranched_segment segment, unbranched_segments rest⟩

end

theorem toList_groupText (index : Nat) (name regex : String) : (groupText index name regex).toList =
    openNamed (Definition.groupNameIn (Definition.fragmentName index) name) ++ regex.toList ++ [')'] := by
  simp [groupText, openNamed, String.toList_append]

theorem writes_group (index : Nat) {name regex : String} (hname : Segment.IsName name) (h : IsSelfContained regex) :
    Writes (groupText index name regex).toList [parameterRegex index name regex] := by
  obtain ⟨body, hbody⟩ := Option.isSome_iff_exists.mp h
  have hof : bodyOf regex = body := by
    rw [bodyOf, hbody]
    rfl
  rw [toList_groupText, parameterRegex, hof]
  exact writes_named (isGroupName_groupNameIn index hname) hbody

/-- The expressions of all parameters in a path can be held together. -/
def PathSelfContained (context : Context) (filling : String → String) (path : List Segment) : Prop :=
  ∀ p ∈ Segment.placeholdersAll path, IsSelfContained (regexOf context.declaration filling false p.1 p.2)

def QuerySelfContained (context : Context) (filling : String → String) (parts : List QueryPart) : Prop :=
  ∀ part ∈ parts, IsSelfContained (regexOf context.declaration filling true part.name part.inline?)

/-- All literals of a path are plain. -/
def IsPlainPath (path : List Segment) : Prop :=
  ∀ text ∈ Segment.literalsAll path, Segment.isPlain text.toList = true

mutual

theorem writes_segment {segment : Segment} (hplain : ∀ text ∈ segment.literals, Segment.isPlain text.toList = true)
    (hnamed : ∀ p ∈ segment.placeholders, Segment.IsName p.1)
    (h : ∀ p ∈ segment.placeholders, IsSelfContained (regexOf context.declaration filling false p.1 p.2)) :
    Writes (segmentText context filling segment).toList (segmentRegexes context filling segment) := by
  cases segment with
  | literal text => exact Segment.writes_plain_literal (hplain text List.mem_cons_self)
  | placeholder name inline? =>
    have hself := h (name, inline?) List.mem_cons_self
    exact writes_group context.index (hnamed (name, inline?) List.mem_cons_self) hself
  | positional index => exact .nil
  | optional inner =>
    have hinner := writes_segments hplain hnamed h
    rw [segmentText, String.toList_append, String.toList_append]
    exact writes_optional hinner (unbranched_sequence (unbranched_segments inner))

/-- The text of a path denotes one expression for each of its segments. -/
theorem writes_segments {path : List Segment} (hplain : IsPlainPath path) (hnamed : Segment.Named path)
    (h : PathSelfContained context filling path) :
    Writes (segmentsText context filling path).toList (segmentsRegexes context filling path) := by
  cases path with
  | nil => exact .nil
  | cons segment rest =>
    obtain ⟨hplain, hplain'⟩ := List.forall_mem_append.mp hplain
    obtain ⟨hnamed, hnamed'⟩ := Segment.named_cons.mp hnamed
    obtain ⟨h, h'⟩ := List.forall_mem_append.mp h
    rw [segmentsText, String.toList_append]
    exact (writes_segment hplain hnamed h).append (writes_segments hplain' hnamed' h')

end

/-! ### Queries -/

theorem isName_of_queryPart? {query : String} {part : QueryPart} (h : queryPart? query = some part) :
    Segment.IsName part.name := by
  unfold queryPart? at h
  split at h
  · cases h
  · split at h
    · next hparse =>
      cases h
      exact Segment.named_of_parse hparse _ List.mem_cons_self
    · cases h

/-- Query parts come from the declared texts. -/
theorem exists_query_of_mem {queries : List String} {parts : List QueryPart}
    (h : queries.map queryPart? = parts.map some) {part : QueryPart} (hpart : part ∈ parts) :
    ∃ query ∈ queries, queryPart? query = some part := by
  have hmem : some part ∈ queries.map queryPart? := h ▸ List.mem_map_of_mem hpart
  exact List.mem_map.mp hmem

theorem isName_of_mem {queries : List String} {parts : List QueryPart} (h : queries.map queryPart? = parts.map some) :
    ∀ part ∈ parts, Segment.IsName part.name := by
  intro part hpart
  obtain ⟨query, -, hquery⟩ := exists_query_of_mem h hpart
  exact isName_of_queryPart? hquery

theorem unbranched_queryPart (part : QueryPart) : ∀ r ∈ part.regexes context filling, Unbranched r := by
  refine List.forall_mem_append.mpr ⟨unbranched_characters _, ?_⟩
  exact List.forall_mem_cons.mpr ⟨rfl, List.forall_mem_singleton.mpr rfl⟩

theorem writes_queryPart {part : QueryPart} (hname : Segment.IsName part.name)
    (h : IsSelfContained (regexOf context.declaration filling true part.name part.inline?)) :
    Writes (part.text context filling).toList (part.regexes context filling) := by
  rw [QueryPart.text, String.toList_append, String.toList_append, QueryPart.regexes, List.append_cons]
  exact ((writes_escape part.key).append (writes_plain (by decide))).append (writes_group context.index hname h)

/-- The text of a query. -/
def queryText (context : Context) (filling : String → String) (parts : List QueryPart) : List Char :=
  ['\\', '?'] ++ pairsText (parts.map fun part ↦ (part.text context filling).toList)

theorem writes_queryParts {parts : List QueryPart} (hnames : ∀ part ∈ parts, Segment.IsName part.name)
    (h : QuerySelfContained context filling parts) :
    Writes (pairsText (parts.map fun part ↦ (part.text context filling).toList))
      [.repeat 0 none true (pair (parts.map (QueryPart.regexes context filling)))] := by
  have hparts : List.Forall₂ Writes (parts.map fun part ↦ (part.text context filling).toList)
      (parts.map (QueryPart.regexes context filling)) := by
    rw [List.forall₂_map_left_iff, List.forall₂_map_right_iff, List.forall₂_same]
    exact fun part hpart ↦ writes_queryPart (hnames part hpart) (h part hpart)
  refine writes_pairs hparts fun rs hrs ↦ ?_
  obtain ⟨part, -, rfl⟩ := List.mem_map.mp hrs
  exact unbranched_queryPart part

theorem intercalate_concat (xs : List (List Char)) (last : List Char) :
    ['|'].intercalate (xs ++ [last]) = xs.flatMap (· ++ ['|']) ++ last := by
  induction xs with
  | nil => exact List.intercalate_singleton
  | cons x xs ih =>
    cases xs with
    | nil => simp
    | cons y xs =>
      rw [List.flatMap_cons, List.append_assoc, ← ih]
      simp

theorem toList_fragmentText_eq (context : Context) (filling : String → String) (path : List Segment)
    (parts : List QueryPart) : (fragmentText context filling path parts).toList =
      openNamed (Definition.fragmentName context.index) ++
        ((segmentsText context filling path).toList ++ queryText context filling parts) ++ [')'] := by
  have hjoin (texts : List String) : (String.join (texts.map (· ++ "|"))).toList =
      (texts.map String.toList).flatMap (· ++ ['|']) := by
    induction texts with
    | nil => rfl
    | cons text rest ih => rw [List.map_cons, String.join_cons, String.toList_append, ih]; simp
  have hparts := hjoin (parts.map (QueryPart.text context filling))
  rw [List.map_map, List.map_map] at hparts
  simp only [fragmentText, String.toList_append]
  rw [show (fun part : QueryPart ↦ part.text context filling ++ "|") = (· ++ "|") ∘ QueryPart.text context filling from rfl,
    hparts]
  simp [openNamed, queryText, pairsText, intercalate_concat, Function.comp_def]

/-- In front of a question mark the text is read as expressions in a row, wherever it is read at all. It leaves neither
alternatives nor open groups nor flags behind. -/
def IsRow (text : List Char) : Prop :=
  ∃ rs, Writes (text ++ ['\\', '?']) (rs ++ [.set (.single '?')])

theorem isRow_of_writes {text : List Char} {rs : List Regex} (h : Writes text rs) : IsRow text :=
  ⟨rs, h.append (writes_escaped (by decide))⟩

/-- Assumes: the text of the path is a row in front of the query, and the expressions of the query can be held together.
The text of a fragment denotes the group of the pattern. -/
theorem writes_fragment_of_row {path : List Segment} {parts : List QueryPart} {rs : List Regex}
    (hrow : Writes ((segmentsText context filling path).toList ++ ['\\', '?']) (rs ++ [.set (.single '?')]))
    (hnames : ∀ part ∈ parts, Segment.IsName part.name) (hquery : QuerySelfContained context filling parts) :
    Writes (fragmentText context filling path parts).toList [.group (some (Definition.fragmentName context.index))
      (sequence (rs ++ queryRegexes context filling parts))] := by
  have hwrites := hrow.append (writes_queryParts hnames hquery)
  rw [List.append_assoc, List.append_assoc] at hwrites
  rw [toList_fragmentText_eq]
  exact writes_capturing (isGroupName_fragmentName context.index) hwrites (unbranched_query rs _)

/-- Assumes: plain literals, proper names, and expressions of parameters that can be held together. The text of a fragment
denotes the group of the pattern. -/
theorem writes_fragment {path : List Segment} {parts : List QueryPart} (hplain : IsPlainPath path)
    (hnamed : Segment.Named path) (hnames : ∀ part ∈ parts, Segment.IsName part.name)
    (hpath : PathSelfContained context filling path) (hquery : QuerySelfContained context filling parts) :
    Writes (fragmentText context filling path parts).toList [fragmentRegex context filling path parts] :=
  writes_fragment_of_row ((writes_segments hplain hnamed hpath).append (writes_escaped (by decide))) hnames hquery

end Writing

end Fragment

end PathBinding
