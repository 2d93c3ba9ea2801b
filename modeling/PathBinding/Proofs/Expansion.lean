import PathBinding.Proofs.Decomposition
import PathBinding.Proofs.Expression

/-!
What patterns mean. A pattern expands to texts: a literal to itself without its backslashes, a placeholder to the texts
that its expression matches in full, an optional group to nothing or to what it contains, and a sequence to expansions
one behind the other (`Segment.Expands`). The expression compiled from a plain pattern, anchored alone, matches a path
exactly if the path is an expansion of the pattern with a query behind it (`matches_iff_expansion`). What the query
contains does not matter, since pairs of any kind reach the end of it.
-/

set_option autoImplicit false
set_option relaxedAutoImplicit false

namespace PathBinding

open Regex

namespace Segment

mutual

/-- A segment expands to a text, where placeholders expand to the texts that fit them. -/
def Expands (fits : String → Option String → List Char → Prop) : Segment → List Char → Prop
  | .literal text, s => s = unescapeChars text.toList
  | .placeholder name regex, s => fits name regex s
  | .positional _, _ => False
  | .optional inner, s => s = [] ∨ ExpandsAll fits inner s

def ExpandsAll (fits : String → Option String → List Char → Prop) : List Segment → List Char → Prop
  | [], s => s = []
  | segment :: rest, s => ∃ u v, s = u ++ v ∧ Expands fits segment u ∧ ExpandsAll fits rest v

end

end Segment

/-- What the text of an expression denotes matches a text from one end to the other. -/
def FullyMatches (regex : String) (s : List Char) : Prop :=
  ∃ body, held? regex = some body ∧ (Mapping.matchAlone body s).isSome

instance (regex : String) (s : List Char) : Decidable (FullyMatches regex s) :=
  decidable_of_iff ((held? regex).any fun body ↦ (Mapping.matchAlone body s).isSome) (Option.any_eq_true _ _)

theorem fullyMatches_of_held {regex : String} {body : Regex} (h : held? regex = some body) (s : List Char) :
    FullyMatches regex s ↔ body.Accepts s := by
  rw [← search_anchored_isSome]
  constructor
  · rintro ⟨own, hown, hmatch⟩
    cases h.symm.trans hown
    exact hmatch
  · exact fun hmatch ↦ ⟨body, h, hmatch⟩

/-- The expression of a parameter in a path: its own in the pattern, or else the declared one, or else that of its
kind. -/
def Declaration.pathRegex (declaration : Declaration) (name : String) (inline? : Option String) : String :=
  match inline?, declaration.find? name with
  | some regex, _ => regex
  | none, some descriptor => (descriptor.regex.or descriptor.kind.defaultRegex?).getD ""
  | none, none => ""

/-- The same in a query, where a string has another expression. -/
def Declaration.queryRegex (declaration : Declaration) (name : String) (inline? : Option String) : String :=
  match inline?, declaration.find? name with
  | some regex, _ => regex
  | none, some descriptor =>
    (descriptor.regex.or
      (if descriptor.kind = .string then some Kind.queryStringRegex else descriptor.kind.defaultRegex?)).getD ""
  | none, none => ""

namespace Fragment

/-! ### What the expression of a path accepts -/

section Accepts

variable {context : Context} {filling : String → String}

/-- The expressions of all parameters in a path are without conditions on positions. -/
def PathLookFree (context : Context) (filling : String → String) (placeholders : List (String × Option String)) : Prop :=
  ∀ p ∈ placeholders, (bodyOf (regexOf context.declaration filling false p.1 p.2)).lookFree = true

mutual

theorem lookFree_segment {segment : Segment} (h : PathLookFree context filling segment.placeholders) :
    ∀ r ∈ segmentRegexes context filling segment, r.lookFree = true := by
  cases segment with
  | literal text => exact lookFree_characters _
  | placeholder name inline? => exact List.forall_mem_singleton.mpr (h (name, inline?) List.mem_cons_self)
  | positional index => exact nofun
  | optional inner => exact List.forall_mem_singleton.mpr (lookFree_sequence (lookFree_segments h))

theorem lookFree_segments {path : List Segment} (h : PathLookFree context filling (Segment.placeholdersAll path)) :
    ∀ r ∈ segmentsRegexes context filling path, r.lookFree = true := by
  cases path with
  | nil => exact nofun
  | cons segment rest =>
    obtain ⟨hsegment, hrest⟩ := List.forall_mem_append.mp h
    exact List.forall_mem_append.mpr ⟨lookFree_segment hsegment, lookFree_segments hrest⟩

end

/-- The texts that the expression of a placeholder accepts. -/
def fits (context : Context) (filling : String → String) (name : String) (inline? : Option String) (s : List Char) : Prop :=
  (bodyOf (regexOf context.declaration filling false name inline?)).Accepts s

mutual

theorem accepts_segment {draft next : Draft} {segment : Segment} (hok : Fragment.segment context draft segment = .ok next)
    (h : PathLookFree context filling segment.placeholders) (s : List Char) :
    (sequence (segmentRegexes context filling segment)).Accepts s ↔ segment.Expands (fits context filling) s := by
  cases segment with
  | literal text => exact accepts_characters _ s
  | placeholder name inline? => exact accepts_group (h (name, inline?) List.mem_cons_self) _ s
  | positional index => cases hok
  | optional inner =>
    obtain ⟨inside, hinside, -⟩ := bind_eq_ok.mp hok
    have hinner := accepts_segments hinside h s
    refine (accepts_optional (lookFree_sequence (lookFree_segments h)) s).trans ?_
    rw [hinner, or_comm]
    rfl

/-- The expression of a path accepts the expansions of its segments. -/
theorem accepts_segments {draft next : Draft} {path : List Segment} (hok : segments context draft path = .ok next)
    (h : PathLookFree context filling (Segment.placeholdersAll path)) (s : List Char) :
    (sequence (segmentsRegexes context filling path)).Accepts s ↔ Segment.ExpandsAll (fits context filling) path s := by
  cases path with
  | nil => exact accepts_empty s
  | cons segment rest =>
    obtain ⟨middle, hsegment, hrest⟩ := bind_eq_ok.mp hok
    obtain ⟨h, h'⟩ := List.forall_mem_append.mp h
    refine (accepts_sequence_append (lookFree_segment h) (lookFree_segments h') s).trans ?_
    simp only [accepts_segment hsegment h, accepts_segments hrest h']
    rfl

end

/-! ### What the expression of a fragment accepts -/

/-- Assumes: the text ends in an ampersand, and the expressions of a path are without conditions on positions. A path with
a query behind it takes in the text if the path takes in what stands before some question mark. -/
theorem accepts_query {rs : List Regex} (hrs : ∀ r ∈ rs, r.lookFree = true) (branches : List (List Regex))
    (name : Option String) {text : List Char} (hend : text.getLast? = some '&') :
    (Regex.group name (sequence (rs ++ query branches))).Accepts text ↔
      ∃ e q, text = e ++ '?' :: q ∧ (sequence rs).Accepts e := by
  have hstart := Thread.On.start text
  rw [Accepts, mem_offsetsOf_group name hstart rfl, run_sequence_append, mem_offsetsOf_comp _ _ hstart rfl]
  have hon {t : Thread} (ht : t ∈ run none (sequence rs) [.start 0 none text]) : t.On text ∧ t.passed = [] :=
    ⟨hstart.lead ((forward_run none _).lead ht), passed_run rfl ht⟩
  constructor
  · rintro ⟨t, ht, hquery⟩
    obtain ⟨q, hq⟩ := (end_mem_query branches (hon ht).1 (hon ht).2 hend).mp hquery
    obtain ⟨e, he, -⟩ := (forward_run none _).lead ht
    refine ⟨e, q, he.rest.trans (by rw [hq]), ?_⟩
    rw [← mem_run_append_iff (lookFree_sequence hrs) (t := .start 0 none text) rfl he.rest, ← he.offset]
    exact mem_offsetsOf_of_mem ht
  · rintro ⟨e, q, rfl, he⟩
    rw [← mem_run_append_iff (lookFree_sequence hrs) (t := .start 0 none (e ++ '?' :: q)) rfl rfl] at he
    obtain ⟨t, ht, hoffset⟩ := mem_offsetsOf.mp he
    refine ⟨t, ht, (end_mem_query branches (hon ht).1 (hon ht).2 hend).mpr ⟨q, ?_⟩⟩
    obtain ⟨s, hs, -⟩ := (forward_run none _).lead ht
    have hlength : e.length = s.length := by
      have hsame := hs.offset.symm.trans hoffset
      simp only [Thread.start] at hsame
      omega
    exact (List.append_inj (hs.rest : e ++ '?' :: q = s ++ t.rest) hlength).2.symm

end Accepts

/-! ### Declared expressions -/

section Declared

variable {declaration : Declaration}

theorem not_isDynamic (hstatic : IsStatic declaration) (name : String) : ¬IsDynamic declaration name := by
  rintro ⟨descriptor, hfind, hdynamic⟩
  exact Bool.noConfusion ((dynamic_of_find? hstatic hfind).symm.trans hdynamic)

/-- An occurrence that is not resolved at each match has its declared expression. -/
theorem regexOf_path_of_not_isDynamic {name : String} {inline? : Option String}
    (h : inline? = none → ¬IsDynamic declaration name) (filling : String → String) :
    regexOf declaration filling false name inline? = declaration.pathRegex name inline? := by
  cases inline? with
  | some regex => rfl
  | none =>
    cases hfind : declaration.find? name with
    | none => simp only [regexOf, Declaration.pathRegex, hfind]
    | some descriptor =>
      have hdynamic : descriptor.dynamic = false := Bool.eq_false_iff.mpr fun hd ↦ h rfl ⟨descriptor, hfind, hd⟩
      simp only [regexOf, Declaration.pathRegex, hfind, hdynamic, effectiveRegex]
      cases descriptor.regex <;> simp

theorem regexOf_query_of_not_isDynamic {name : String} {inline? : Option String}
    (h : inline? = none → ¬IsDynamic declaration name) (filling : String → String) :
    regexOf declaration filling true name inline? = declaration.queryRegex name inline? := by
  cases inline? with
  | some regex => rfl
  | none =>
    cases hfind : declaration.find? name with
    | none => simp only [regexOf, Declaration.queryRegex, hfind]
    | some descriptor =>
      have hdynamic : descriptor.dynamic = false := Bool.eq_false_iff.mpr fun hd ↦ h rfl ⟨descriptor, hfind, hd⟩
      simp only [regexOf, Declaration.queryRegex, hfind, hdynamic, effectiveRegex]
      cases descriptor.regex with
      | some regex => simp
      | none => by_cases hkind : descriptor.kind = .string <;> simp [hkind]

theorem regexOf_path (hstatic : IsStatic declaration) (filling : String → String)
    (name : String) (inline? : Option String) :
    regexOf declaration filling false name inline? = declaration.pathRegex name inline? :=
  regexOf_path_of_not_isDynamic (fun _ ↦ not_isDynamic hstatic name) filling

theorem regexOf_query (hstatic : IsStatic declaration) (filling : String → String)
    (name : String) (inline? : Option String) :
    regexOf declaration filling true name inline? = declaration.queryRegex name inline? :=
  regexOf_query_of_not_isDynamic (fun _ ↦ not_isDynamic hstatic name) filling

theorem fullyMatches_iff {regex : String} (h : IsSelfContained regex) (s : List Char) :
    FullyMatches regex s ↔ (bodyOf regex).Accepts s := by
  obtain ⟨body, hbody⟩ := Option.isSome_iff_exists.mp h
  have hof : bodyOf regex = body := by
    rw [bodyOf, hbody]
    rfl
  rw [hof]
  exact fullyMatches_of_held hbody s

/-- An expression that can be held together and is without conditions on positions. -/
theorem bodyOf_of_held {regex : String} (h : ∃ body, held? regex = some body ∧ body.lookFree = true) :
    IsSelfContained regex ∧ (bodyOf regex).lookFree = true := by
  obtain ⟨body, hbody, hfree⟩ := h
  rw [IsSelfContained, bodyOf, hbody]
  exact ⟨rfl, hfree⟩

/-- Such expressions in a path mean what they match in full. -/
theorem means_of_held (context : Context) {filling : String → String} {path : List Segment}
    {meant : String → Option String → String}
    (hregexes : ∀ p ∈ Segment.placeholdersAll path, regexOf context.declaration filling false p.1 p.2 = meant p.1 p.2)
    (hheld : ∀ p ∈ Segment.placeholdersAll path, ∃ body, held? (meant p.1 p.2) = some body ∧ body.lookFree = true) :
    PathSelfContained context filling path ∧ PathLookFree context filling (Segment.placeholdersAll path) ∧
      ∀ p ∈ Segment.placeholdersAll path, ∀ s, fits context filling p.1 p.2 s ↔ FullyMatches (meant p.1 p.2) s := by
  refine ⟨fun p hp ↦ ?_, fun p hp ↦ ?_, fun p hp s ↦ ?_⟩
  · rw [hregexes p hp]
    exact (bodyOf_of_held (hheld p hp)).1
  · rw [hregexes p hp]
    exact (bodyOf_of_held (hheld p hp)).2
  · rw [fits, hregexes p hp, ← fullyMatches_iff (bodyOf_of_held (hheld p hp)).1]

end Declared

end Fragment

namespace Segment

variable {fits fits' : String → Option String → List Char → Prop}

mutual

theorem expands_congr {segment : Segment} (h : ∀ p ∈ segment.placeholders, ∀ s, fits p.1 p.2 s ↔ fits' p.1 p.2 s)
    (s : List Char) : segment.Expands fits s ↔ segment.Expands fits' s := by
  cases segment with
  | literal text => exact Iff.rfl
  | placeholder name regex => exact h (name, regex) List.mem_cons_self s
  | positional index => exact Iff.rfl
  | optional inner => exact or_congr Iff.rfl (expandsAll_congr h s)

/-- What fits the placeholders decides what segments expand to. -/
theorem expandsAll_congr {path : List Segment}
    (h : ∀ p ∈ placeholdersAll path, ∀ s, fits p.1 p.2 s ↔ fits' p.1 p.2 s) (s : List Char) :
    ExpandsAll fits path s ↔ ExpandsAll fits' path s := by
  cases path with
  | nil => exact Iff.rfl
  | cons segment rest =>
    obtain ⟨hsegment, hrest⟩ := List.forall_mem_append.mp h
    simp only [ExpandsAll, expands_congr hsegment, expandsAll_congr hrest]

end

end Segment

/-- Assumes: no parameter is dynamic, a pattern compiles, its literals are plain, the expressions of all its parameters can
be held together, and those in the path are without conditions on positions. The fragment of the pattern is a text
without gaps. If it can be anchored alone at all, it matches a path if and only if the path in its normal form is an
expansion of the pattern with a question mark and any query behind it. -/
theorem matches_iff_expansion {declaration : Declaration} {pattern : PatternDeclaration} {index : Nat}
    {definition : Definition} {pieces : Pieces} {path : List Segment} (hstatic : Fragment.IsStatic declaration)
    (hcompile : Fragment.compile declaration pattern index = .ok (definition, pieces))
    (hparse : Segment.parse (Fragment.rooted pattern.pattern) = .ok path) (hplain : Fragment.IsPlainPath path)
    (hpath : ∀ p ∈ Segment.placeholdersAll path, ∃ body, held? (declaration.pathRegex p.1 p.2) = some body ∧
      body.lookFree = true)
    (hquery : ∀ query ∈ pattern.query, ∀ part, Fragment.queryPart? query = some part →
      (held? (declaration.queryRegex part.name part.inline?)).isSome) :
    ∃ text, pieces.static? = some text ∧ ∀ regex, parse? ("^(?:" ++ text ++ ")$").toList = some regex → ∀ request,
      ((regex.search (normalizePath request).toList).isSome ↔
        ∃ e q, (normalizePath request).toList = e ++ '?' :: q ∧
          Segment.ExpandsAll (fun name inline? ↦ FullyMatches (declaration.pathRegex name inline?)) path e) := by
  let filling : String → String := fun _ ↦ ""
  have hfragment := Pieces.static?_of_slots filling (Fragment.slots_compile hstatic hcompile)
  refine ⟨pieces.fill filling, hfragment, fun regex hregex request ↦ ?_⟩
  obtain ⟨path', parts, opened, draft, hparse', hsegments, hparts, -, -, -, hfill⟩ :=
    Fragment.compile_ok filling hcompile
  cases hparse.symm.trans hparse'
  let context : Fragment.Context := ⟨declaration, pattern.pattern, index⟩
  have hself : Fragment.PathSelfContained context filling path := by
    intro p hp
    obtain ⟨body, hbody, -⟩ := hpath p hp
    rw [Fragment.regexOf_path hstatic, Fragment.IsSelfContained, hbody]
    rfl
  have hfree : Fragment.PathLookFree context filling (Segment.placeholdersAll path) := by
    intro p hp
    obtain ⟨body, hbody, hlookFree⟩ := hpath p hp
    rw [Fragment.regexOf_path hstatic, Fragment.bodyOf, hbody]
    exact hlookFree
  have hdeclared : ∀ part ∈ parts, ∃ query ∈ pattern.query, Fragment.queryPart? query = some part := by
    intro part hpart
    have hsome : some part ∈ pattern.query.map Fragment.queryPart? := hparts ▸ List.mem_map_of_mem hpart
    exact List.mem_map.mp hsome
  have hnames : ∀ part ∈ parts, Segment.IsName part.name := by
    intro part hpart
    obtain ⟨query, -, hpart⟩ := hdeclared part hpart
    exact Fragment.isName_of_queryPart? hpart
  have hqueries : Fragment.QuerySelfContained context filling parts := by
    intro part hpart
    obtain ⟨query, hmem, hpart⟩ := hdeclared part hpart
    rw [Fragment.regexOf_query hstatic]
    exact hquery query hmem part hpart
  have hwrites := Fragment.writes_fragment hplain (Segment.named_of_parse hparse) hnames hself hqueries
  rw [← hfill] at hwrites
  have htext : ("^(?:" ++ pieces.fill filling ++ ")$").toList =
      ['^', '(', '?', ':'] ++ ['|'].intercalate [(pieces.fill filling).toList] ++ [')', '$'] := by
    simp [String.toList_append]
  rw [htext] at hregex
  have hone : ∀ r ∈ [Fragment.fragmentRegex context filling path parts], ∃ name body, r = .group name body :=
    List.forall_mem_singleton.mpr ⟨_, _, rfl⟩
  rw [parse?_writes (.cons hwrites .nil) hone (List.cons_ne_nil _ _) hregex]
  have hexpands (e : List Char) : (sequence (Fragment.segmentsRegexes context filling path)).Accepts e ↔
      Segment.ExpandsAll (fun name inline? ↦ FullyMatches (declaration.pathRegex name inline?)) path e := by
    rw [Fragment.accepts_segments hsegments hfree]
    refine Segment.expandsAll_congr (fun p hp s ↦ ?_) e
    rw [Fragment.fits, ← Fragment.fullyMatches_iff (hself p hp), Fragment.regexOf_path hstatic]
  refine (search_anchored_isSome _ _).trans ?_
  refine (Fragment.accepts_query (Fragment.lookFree_segments hfree) _ _ (getLast?_normalizePath request)).trans ?_
  simp only [hexpands]

/-- Pages by language and number. -/
def localized : Declaration :=
  { owner := "Localized"
    parameters := [⟨"lang", .string, none, false⟩, ⟨"number", .integer, none, false⟩, ⟨"term", .string, none, false⟩]
    patterns := [⟨"[/:lang:en|de:]/page\\.:number", ["q=:term"]⟩] }

/-- A page in a language is matched with a query behind it, so the path is an expansion of the pattern. -/
theorem localized_expands : ∃ (text : String) (regex : Regex) (path : List Segment) (e q : List Char),
    localized.fragment? 0 = some text ∧ parse? ("^(?:" ++ text ++ ")$").toList = some regex ∧
      (regex.search (normalizePath "de/page.3?q=x").toList).isSome ∧ Fragment.IsPlainPath path ∧
      (normalizePath "de/page.3?q=x").toList = e ++ '?' :: q ∧
      Segment.ExpandsAll (fun name inline? ↦ FullyMatches (localized.pathRegex name inline?)) path e := by
  have hmatch : (localized.matchAlone? 0 "de/page.3?q=x").isSome := by decide +kernel
  obtain ⟨t, ht⟩ := Option.isSome_iff_exists.mp hmatch
  obtain ⟨regex, hregex, hsearch⟩ := Option.bind_eq_some_iff.mp ht
  obtain ⟨text, hfragment, hregex⟩ := Option.bind_eq_some_iff.mp hregex
  obtain ⟨pattern, definition, pieces, hpattern, hcompile, hpieces⟩ := Declaration.exists_of_fragment? hfragment
  cases hpattern
  let path : List Segment :=
    [.optional [.literal "/", .placeholder "lang" (some "en|de")], .literal "/page\\.", .placeholder "number" none]
  have hstatic : Fragment.IsStatic localized := by
    unfold Fragment.IsStatic
    decide
  have hplain : Fragment.IsPlainPath path := by
    unfold Fragment.IsPlainPath
    decide +kernel
  have hpath : ∀ p ∈ Segment.placeholdersAll path,
      (held? (localized.pathRegex p.1 p.2)).any (·.lookFree) = true := by
    decide +kernel
  have hquery : ∀ query ∈ ["q=:term"], (Fragment.queryPart? query).all fun part ↦
      (held? (localized.queryRegex part.name part.inline?)).isSome := by
    decide +kernel
  obtain ⟨text', htext', hiff⟩ := matches_iff_expansion hstatic hcompile rfl hplain
    (fun p hp ↦ (Option.any_eq_true _ _).mp (hpath p hp))
    (fun query hmem part hpart ↦ by
      have hall := hquery query hmem
      rwa [hpart] at hall)
  cases hpieces.symm.trans htext'
  have hmatched : (regex.search (normalizePath "de/page.3?q=x").toList).isSome := by
    rw [hsearch]
    rfl
  obtain ⟨e, q, hsplit, hexpands⟩ := (hiff regex hregex "de/page.3?q=x").mp hmatched
  exact ⟨text, regex, path, e, q, hfragment, hregex, hmatched, hplain, hsplit, hexpands⟩

end PathBinding
