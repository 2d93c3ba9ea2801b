import PathBinding.Binding
import PathBinding.Proofs.Mapping

/-!
Declarations that compile alike. If two declarations of the same parameters ask for the same expressions once gaps are
filled (`Agrees`, `AgreesOn`), each step of a compilation does the same in both up to the filled text
(`filled_placeholder`, `filled_segments`, `filled_compile`). So a declaration without gaps compiles to what the other
compiles to when its gaps are filled (`build_filled`).
-/

set_option autoImplicit false
set_option relaxedAutoImplicit false

namespace PathBinding

/-- Computations that yield alike and go on alike yield alike. -/
theorem map_bind_congr {ε α α' β β' γ δ : Type} {x : Except ε α} {y : Except ε α'} {v : α → γ} {w : α' → γ}
    {f : α → Except ε β} {g : α' → Except ε β'} {v' : β → δ} {w' : β' → δ} (h : x.map v = y.map w)
    (hgo : ∀ a b, v a = w b → (f a).map v' = (g b).map w') : (x >>= f).map v' = (y >>= g).map w' := by
  cases x with
  | error e =>
    cases y with
    | error e' =>
      have hsame : (.error e : Except ε γ) = .error e' := h
      cases hsame
      rfl
    | ok b => cases h
  | ok a =>
    cases y with
    | error e => cases h
    | ok b => exact hgo a b (Except.ok.inj h)

namespace Fragment

/-- A draft with its gaps filled. -/
def Draft.filled (filling : String → String) (draft : Draft) : List String × List (String × String) × String :=
  (draft.parameters, draft.inlineRegexes, draft.pieces.fill filling)

/-- Two declarations of the same parameters ask for the same expressions in a path, once gaps are filled. -/
structure Agrees (f g : String → String) (a b : Declaration) : Prop where
  owner : a.owner = b.owner
  shapes : a.parameters.map Descriptor.shape = b.parameters.map Descriptor.shape
  path : ∀ name, regexOf a f false name none = regexOf b g false name none

/-- They ask for the same expressions in the queries of a pattern. -/
def AgreesOn (f g : String → String) (a b : Declaration) (pattern : PatternDeclaration) : Prop :=
  ∀ query ∈ pattern.query, ∀ part, queryPart? query = some part →
    regexOf a f true part.name part.inline? = regexOf b g true part.name part.inline?

theorem find?_shape (declaration : Declaration) (name : String) :
    (declaration.find? name).map Descriptor.shape =
      (declaration.parameters.map Descriptor.shape).find? (·.1 == name) := by
  rw [List.find?_map]
  rfl

section Filled

variable {f g : String → String} {a b : Declaration} {raw : String} {index : Nat}

theorem Agrees.regexOf_path (h : Agrees f g a b) (name : String) (inline? : Option String) :
    regexOf a f false name inline? = regexOf b g false name inline? := by
  cases inline? with
  | none => exact h.path name
  | some regex => rfl

mutual

theorem segmentText_congr (h : Agrees f g a b) (segment : Segment) :
    segmentText ⟨a, raw, index⟩ f segment = segmentText ⟨b, raw, index⟩ g segment := by
  cases segment with
  | literal text => rfl
  | placeholder name inline? => exact congrArg (groupText index name) (h.regexOf_path name inline?)
  | positional position => rfl
  | optional inner => rw [segmentText, segmentText, segmentsText_congr h inner]

theorem segmentsText_congr (h : Agrees f g a b) (path : List Segment) :
    segmentsText ⟨a, raw, index⟩ f path = segmentsText ⟨b, raw, index⟩ g path := by
  cases path with
  | nil => rfl
  | cons segment rest => rw [segmentsText, segmentsText, segmentText_congr h segment, segmentsText_congr h rest]

end

theorem placeholder_ok {context : Context} {name : String} {inline? : Option String} {inQuery : Bool} {draft : Draft}
    {descriptor : Descriptor} {default : String} (hfind : context.declaration.find? name = some descriptor)
    (hdefault : descriptor.kind.requireDefaultRegex name context.declaration.owner = .ok default)
    (hname : name ∉ draft.parameters) : ∃ next, placeholder context name inline? inQuery draft = .ok next := by
  rw [placeholder, hfind]
  dsimp only
  rw [hdefault]
  dsimp only [bind, Except.bind]
  rw [if_neg hname]
  exact ⟨_, rfl⟩

theorem filled_placeholder (h : Agrees f g a b) {name : String} {inline? : Option String} {inQuery : Bool}
    (hregex : regexOf a f inQuery name inline? = regexOf b g inQuery name inline?) {x y : Draft}
    (hxy : x.filled f = y.filled g) :
    (placeholder ⟨a, raw, index⟩ name inline? inQuery x).map (Draft.filled f) =
      (placeholder ⟨b, raw, index⟩ name inline? inQuery y).map (Draft.filled g) := by
  obtain ⟨hparameters, hinline, hfill⟩ : x.parameters = y.parameters ∧ x.inlineRegexes = y.inlineRegexes ∧
      x.pieces.fill f = y.pieces.fill g := by
    simpa only [Draft.filled, Prod.mk.injEq] using hxy
  have hshape : (a.find? name).map Descriptor.shape = (b.find? name).map Descriptor.shape := by
    rw [find?_shape, find?_shape, h.shapes]
  cases hfind : a.find? name with
  | none =>
    rw [hfind] at hshape
    have hfind' : b.find? name = none := Option.map_eq_none_iff.mp hshape.symm
    rw [placeholder, placeholder, hfind, hfind', h.owner]
    rfl
  | some descriptor =>
    rw [hfind] at hshape
    obtain ⟨other, hfind', hother⟩ := Option.map_eq_some_iff.mp hshape.symm
    have hkind : other.kind = descriptor.kind := congrArg Prod.snd hother
    cases hdefault : descriptor.kind.requireDefaultRegex name a.owner with
    | error e =>
      have hdefault' : other.kind.requireDefaultRegex name b.owner = .error e := by rw [hkind, ← h.owner, hdefault]
      rw [placeholder, placeholder, hfind, hfind']
      dsimp only
      rw [hdefault, hdefault']
      rfl
    | ok default =>
      have hdefault' : other.kind.requireDefaultRegex name b.owner = .ok default := by rw [hkind, ← h.owner, hdefault]
      by_cases hname : name ∈ x.parameters
      · have hname' : name ∈ y.parameters := hparameters ▸ hname
        rw [placeholder, placeholder, hfind, hfind']
        dsimp only
        rw [hdefault, hdefault']
        dsimp only [bind, Except.bind]
        rw [if_pos hname, if_pos hname', h.owner]
        rfl
      · obtain ⟨next, hnext⟩ : ∃ next, placeholder ⟨a, raw, index⟩ name inline? inQuery x = .ok next :=
          placeholder_ok hfind hdefault hname
        obtain ⟨next', hnext'⟩ : ∃ next, placeholder ⟨b, raw, index⟩ name inline? inQuery y = .ok next :=
          placeholder_ok hfind' hdefault' (hparameters ▸ hname)
        obtain ⟨hfills, hnames, hinlines⟩ := fill_placeholder f hnext
        obtain ⟨hfills', hnames', hinlines'⟩ := fill_placeholder g hnext'
        rw [hnext, hnext']
        refine congrArg Except.ok (Prod.ext ?_ (Prod.ext ?_ ?_))
        · exact hnames.trans ((congrArg (· ++ [name]) hparameters).trans hnames'.symm)
        · exact hinlines.trans ((congrArg (· ++ inlined [(name, inline?)]) hinline).trans hinlines'.symm)
        · refine hfills.trans (Eq.trans ?_ hfills'.symm)
          rw [hfill]
          exact congrArg (fun regex ↦ y.pieces.fill g ++ groupText index name regex) hregex

theorem filled_text {x y : Draft} (hxy : x.filled f = y.filled g) (text : String) :
    (x.text text).filled f = (y.text text).filled g := by
  simp only [Draft.filled, Prod.mk.injEq] at hxy
  simp only [Draft.filled, Draft.text, Pieces.fill_addText, hxy]

mutual

theorem filled_segment {f g : String → String} {a b : Declaration} {raw : String} {index : Nat} (h : Agrees f g a b)
    (segment : Segment) {x y : Draft} (hxy : x.filled f = y.filled g) :
    (Fragment.segment ⟨a, raw, index⟩ x segment).map (Draft.filled f) =
      (Fragment.segment ⟨b, raw, index⟩ y segment).map (Draft.filled g) := by
  cases segment with
  | literal text => exact congrArg Except.ok (filled_text hxy text)
  | placeholder name inline? => exact filled_placeholder h (h.regexOf_path name inline?) hxy
  | positional position => rfl
  | optional inner =>
    refine map_bind_congr (filled_segments h inner (filled_text hxy "(?:")) fun inside inside' hinside ↦ ?_
    exact congrArg Except.ok (filled_text hinside ")?")

theorem filled_segments {f g : String → String} {a b : Declaration} {raw : String} {index : Nat} (h : Agrees f g a b)
    (path : List Segment) {x y : Draft} (hxy : x.filled f = y.filled g) :
    (Fragment.segments ⟨a, raw, index⟩ x path).map (Draft.filled f) =
      (Fragment.segments ⟨b, raw, index⟩ y path).map (Draft.filled g) := by
  cases path with
  | nil => exact congrArg Except.ok hxy
  | cons head rest =>
    exact map_bind_congr (filled_segment h head hxy) fun middle middle' hmiddle ↦ filled_segments h rest hmiddle

end

theorem filled_queryBranch (h : Agrees f g a b) {query : String}
    (hregex : ∀ part, queryPart? query = some part →
      regexOf a f true part.name part.inline? = regexOf b g true part.name part.inline?)
    {x y : Draft} (hxy : x.filled f = y.filled g) :
    (queryBranch ⟨a, raw, index⟩ x query).map (fun r ↦ (r.1.filled f, r.2.fill f)) =
      (queryBranch ⟨b, raw, index⟩ y query).map (fun r ↦ (r.1.filled g, r.2.fill g)) := by
  unfold queryBranch
  cases hpair : splitPair? query with
  | none => rfl
  | some pair =>
    obtain ⟨key, value⟩ := pair
    dsimp only
    cases hkey : isQueryKey key with
    | false => rfl
    | true =>
      simp only [if_true]
      cases hparse : Segment.parse value with
      | error e => rfl
      | ok segments =>
        dsimp only [bind, Except.bind]
        split
        · next name inline? =>
          have hpart : queryPart? query = some ⟨key, name, inline?⟩ := by
            rw [queryPart?, hpair]
            simp only [hparse]
          have hkeyed : (({ x with pieces := [] }.text (Regex.escape key)).text "=").filled f =
              (({ y with pieces := [] }.text (Regex.escape key)).text "=").filled g := by
            refine filled_text (filled_text ?_ _) _
            simp only [Draft.filled, Prod.mk.injEq] at hxy
            simp only [Draft.filled, Pieces.fill, hxy]
          refine map_bind_congr (filled_placeholder h (hregex _ hpart) hkeyed) fun branch branch' hbranch ↦ ?_
          simp only [Draft.filled, Prod.mk.injEq] at hxy hbranch
          refine congrArg Except.ok ?_
          simp only [Draft.filled, hxy, hbranch]
        · rfl

theorem filled_queryBranches (h : Agrees f g a b) {queries : List String}
    (hregex : ∀ query ∈ queries, ∀ part, queryPart? query = some part →
      regexOf a f true part.name part.inline? = regexOf b g true part.name part.inline?)
    {x y : Draft} (hxy : x.filled f = y.filled g) :
    (queryBranches ⟨a, raw, index⟩ x queries).map (fun r ↦ (r.1.filled f, r.2.map (Pieces.fill f))) =
      (queryBranches ⟨b, raw, index⟩ y queries).map (fun r ↦ (r.1.filled g, r.2.map (Pieces.fill g))) := by
  induction queries generalizing x y with
  | nil => exact congrArg (fun filled ↦ Except.ok (filled, [])) hxy
  | cons query rest ih =>
    obtain ⟨hquery, hrest⟩ := List.forall_mem_cons.mp hregex
    refine map_bind_congr (filled_queryBranch h hquery hxy) fun r r' hr ↦ ?_
    obtain ⟨hnext, hbranch⟩ := Prod.mk.inj hr
    refine map_bind_congr (ih hrest hnext) fun s s' hs ↦ ?_
    obtain ⟨hlast, hbranches⟩ := Prod.mk.inj hs
    refine congrArg Except.ok ?_
    simp only [List.map_cons, hlast, hbranch, hbranches]

/-- A pattern compiles alike in both declarations, up to the filled text. -/
theorem filled_compile (h : Agrees f g a b) {pattern : PatternDeclaration} (hquery : AgreesOn f g a b pattern)
    (index : Nat) :
    (compile a pattern index).map (fun c ↦ (c.1, c.2.fill f)) =
      (compile b pattern index).map (fun c ↦ (c.1, c.2.fill g)) := by
  unfold compile
  refine map_bind_congr (v := id) (w := id) rfl fun path path' hpath ↦ ?_
  cases hpath
  refine map_bind_congr (filled_segments h path (filled_text rfl _)) fun draft draft' hdraft ↦ ?_
  refine map_bind_congr (filled_queryBranches h hquery hdraft) fun r r' hr ↦ ?_
  obtain ⟨hlast, hbranches⟩ := Prod.mk.inj hr
  simp only [Draft.filled, Prod.mk.injEq] at hdraft hlast
  refine congrArg Except.ok (Prod.ext ?_ ?_)
  · simp only [hdraft, hlast]
  · have hbars : r.2.map (fun branch ↦ branch.fill f ++ "|") = r'.2.map fun branch ↦ branch.fill g ++ "|" := by
      have hmapped := congrArg (List.map (· ++ "|")) hbranches
      rwa [List.map_map, List.map_map] at hmapped
    simp only [Pieces.fill_addText, fill_pairs, hlast, hbars]

end Filled

end Fragment

namespace Mapping

open Fragment

variable {f g : String → String} {a b : Declaration} {settings : Settings}

theorem filled_compileFrom (h : Agrees f g a b) {patterns : List PatternDeclaration}
    (hquery : ∀ pattern ∈ patterns, AgreesOn f g a b pattern) (index : Nat) :
    (compileFrom a index patterns).map (List.map fun c ↦ (c.1, c.2.fill f)) =
      (compileFrom b index patterns).map (List.map fun c ↦ (c.1, c.2.fill g)) := by
  induction patterns generalizing index with
  | nil => rfl
  | cons pattern rest ih =>
    obtain ⟨hpattern, hrest⟩ := List.forall_mem_cons.mp hquery
    refine map_bind_congr (filled_compile h hpattern index) fun c c' hc ↦ ?_
    refine map_bind_congr (ih hrest (index + 1)) fun cs cs' hcs ↦ ?_
    refine congrArg Except.ok ?_
    rw [List.map_cons, List.map_cons, hc, hcs]

theorem checkDescriptors_congr {owner : String} {seen : List String} {first second : List Descriptor}
    (h : first.map Descriptor.shape = second.map Descriptor.shape) :
    checkDescriptors owner seen first = checkDescriptors owner seen second := by
  induction first generalizing seen second with
  | nil =>
    have hnil : second = [] := List.map_eq_nil_iff.mp h.symm
    rw [hnil]
  | cons descriptor rest ih =>
    cases second with
    | nil => cases h
    | cons other others =>
      rw [List.map_cons, List.map_cons, List.cons.injEq] at h
      obtain ⟨hname, hkind⟩ := Prod.mk.inj h.1
      rw [checkDescriptors, checkDescriptors, hname, hkind, ih h.2]

theorem fill_join_congr {fragments others : List Pieces}
    (h : fragments.map (Pieces.fill f) = others.map (Pieces.fill g)) :
    (join fragments).fill f = (join others).fill g := by
  have htexts := congrArg (List.map String.toList) h
  rw [List.map_map, List.map_map] at htexts
  apply String.toList_injective
  rw [fill_join, fill_join]
  exact congrArg (fun texts ↦ ['^', '(', '?', ':'] ++ ['|'].intercalate texts ++ [')', '$']) htexts

/-- Assumes: two declarations of the same patterns ask for the same expressions once gaps are filled, the first has gaps
and the second has none. The second compiles to the first with its gaps filled, or fails where that is not an
expression. -/
theorem build_filled (h : Agrees f g a b) (hpatterns : b.patterns = a.patterns)
    (hquery : ∀ pattern ∈ a.patterns, AgreesOn f g a b pattern) (hstatic : IsStatic b) {mapping : Mapping}
    {pieces : Pieces} (hbuild : build a settings = .ok mapping) (hsource : mapping.source = .dynamic pieces) :
    build b settings = (mapping.regexOf (.text (pieces.fill f))).map fun regex ↦
      withSource b settings mapping.patterns (.static (pieces.fill f) regex) := by
  obtain ⟨hcheck, compiled, hcompiled, hpieces, rfl⟩ := dynamic_parts hbuild hsource
  have hfilled := filled_compileFrom h hquery 0
  rw [hcompiled] at hfilled
  obtain ⟨others, hothers, hsame⟩ : ∃ others, compileFrom b 0 a.patterns = .ok others ∧
      compiled.map (fun c ↦ (c.1, c.2.fill f)) = others.map fun c ↦ (c.1, c.2.fill g) := by
    cases hb : compileFrom b 0 a.patterns with
    | error e =>
      rw [hb] at hfilled
      cases hfilled
    | ok others =>
      rw [hb] at hfilled
      exact ⟨others, rfl, Except.ok.inj hfilled⟩
  have hdefinitions : compiled.map Prod.fst = others.map Prod.fst := by
    have hmapped := congrArg (List.map Prod.fst) hsame
    rwa [List.map_map, List.map_map] at hmapped
  have hfills : (compiled.map Prod.snd).map (Pieces.fill f) = (others.map Prod.snd).map (Pieces.fill g) := by
    have hmapped := congrArg (List.map Prod.snd) hsame
    rw [List.map_map, List.map_map] at hmapped ⊢
    exact hmapped
  have htext : (join (others.map Prod.snd)).static? = some (pieces.fill f) := by
    rw [hpieces, fill_join_congr hfills]
    exact static?_join hstatic hothers g
  have hcheck' : checkDescriptors b.owner [] b.parameters = .ok () := by
    rw [← h.owner, ← checkDescriptors_congr h.shapes, hcheck]
  rw [build_of_compileFrom hcheck' (hpatterns ▸ hothers), sourceOf_of_static? htext]
  change _ = Except.map _ (compileRegex a.owner settings.regexSizeLimit (pieces.fill f))
  rw [h.owner, ← hdefinitions]
  cases compileRegex b.owner settings.regexSizeLimit (pieces.fill f) <;> rfl

end Mapping

end PathBinding
