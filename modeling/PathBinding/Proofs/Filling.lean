import PathBinding.Proofs.Expansion
import PathBinding.Proofs.Regex.Sources
import PathBinding.Proofs.Rows

/-!
Patterns filled with texts. A sequence of segments is filled with a text for each parameter: placeholders stand for their
texts, and an optional group is left out if its parameters have no texts (`Segment.Fills`). A match of the group of a
pattern fills the path in front of a question mark with what it captures (`fills_of_matchAlone`): which thread goes on at
an offset has been decided by its way there, and on each way a group takes part as a whole.
-/

set_option autoImplicit false
set_option relaxedAutoImplicit false

namespace PathBinding

open Regex

namespace Segment

mutual

/-- A segment is filled to a text. -/
def Fills (fits : String → Option String → List Char → Prop) (value : String → Option (List Char)) :
    Segment → List Char → Prop
  | .literal text, s => s = unescapeChars text.toList
  | .placeholder name regex, s => value name = some s ∧ fits name regex s
  | .positional _, _ => False
  | .optional inner, s =>
    (s = [] ∧ ∀ p ∈ placeholdersAll inner, value p.1 = none) ∨ FillsAll fits value inner s

def FillsAll (fits : String → Option String → List Char → Prop) (value : String → Option (List Char)) :
    List Segment → List Char → Prop
  | [], s => s = []
  | segment :: rest, s => ∃ u v, s = u ++ v ∧ Fills fits value segment u ∧ FillsAll fits value rest v

end

variable {fits : String → Option String → List Char → Prop} {value value' : String → Option (List Char)}

mutual

theorem fills_congr {segment : Segment} (h : ∀ p ∈ segment.placeholders, value p.1 = value' p.1) (s : List Char) :
    segment.Fills fits value s ↔ segment.Fills fits value' s := by
  cases segment with
  | literal text => exact Iff.rfl
  | placeholder name regex => rw [Fills, Fills, h (name, regex) List.mem_cons_self]
  | positional index => exact Iff.rfl
  | optional inner =>
    refine or_congr (and_congr_right fun _ ↦ ?_) (fillsAll_congr h s)
    exact forall₂_congr fun p hp ↦ by rw [h p hp]

/-- Only the texts of the parameters that occur matter. -/
theorem fillsAll_congr {path : List Segment} (h : ∀ p ∈ placeholdersAll path, value p.1 = value' p.1) (s : List Char) :
    FillsAll fits value path s ↔ FillsAll fits value' path s := by
  cases path with
  | nil => exact Iff.rfl
  | cons segment rest =>
    obtain ⟨hsegment, hrest⟩ := List.forall_mem_append.mp h
    simp only [FillsAll, fills_congr hsegment, fillsAll_congr hrest]

end

mutual

theorem expands_of_fills {segment : Segment} {s : List Char} (h : segment.Fills fits value s) :
    segment.Expands fits s := by
  cases segment with
  | literal text => exact h
  | placeholder name regex => exact h.2
  | positional index => exact h
  | optional inner => exact h.imp And.left expandsAll_of_fillsAll

/-- What segments are filled to is an expansion of them. -/
theorem expandsAll_of_fillsAll {path : List Segment} {s : List Char} (h : FillsAll fits value path s) :
    ExpandsAll fits path s := by
  cases path with
  | nil => exact h
  | cons segment rest =>
    obtain ⟨u, v, hs, hsegment, hrest⟩ := h
    exact ⟨u, v, hs, expands_of_fills hsegment, expandsAll_of_fillsAll hrest⟩

end

mutual

theorem fits_of_fills {segment : Segment} {s : List Char} (h : segment.Fills fits value s) {p : String × Option String}
    (hp : p ∈ segment.placeholders) {w : List Char} (hw : value p.1 = some w) : fits p.1 p.2 w := by
  cases segment with
  | literal text => cases hp
  | placeholder name regex =>
    obtain rfl := List.mem_singleton.mp hp
    obtain ⟨hs, hfits⟩ := h
    obtain rfl : s = w := Option.some.inj (hs.symm.trans hw)
    exact hfits
  | positional index => cases h
  | optional inner =>
    rcases h with ⟨-, hnone⟩ | hfills
    · exact nomatch (hnone p hp).symm.trans hw
    · exact fits_of_fillsAll hfills hp hw

/-- The texts that segments are filled with fit. -/
theorem fits_of_fillsAll {path : List Segment} {s : List Char} (h : FillsAll fits value path s) {p : String × Option String}
    (hp : p ∈ placeholdersAll path) {w : List Char} (hw : value p.1 = some w) : fits p.1 p.2 w := by
  cases path with
  | nil => cases hp
  | cons segment rest =>
    obtain ⟨u, v, -, hsegment, hrest⟩ := h
    rcases List.mem_append.mp hp with hp | hp
    · exact fits_of_fills hsegment hp hw
    · exact fits_of_fillsAll hrest hp hw

end

end Segment

/-! ### What a way through a path captures -/

namespace Regex

variable {t u : Thread} {ts : List Thread}

/-- The text that captures hold for a parameter of a fragment. -/
def textIn (fragment : String) (captures : List Capture) (name : String) : Option (List Char) :=
  (captures.find? (·.name == Definition.groupNameIn fragment name)).map Capture.text

theorem textIn_append_of_notMem {fragment : String} {first second : List Capture} {name : String}
    (h : ∀ k ∈ first, k.name ≠ Definition.groupNameIn fragment name) :
    textIn fragment (first ++ second) name = textIn fragment second name := by
  have hnone : first.find? (·.name == Definition.groupNameIn fragment name) = none :=
    List.find?_eq_none.mpr fun k hk ↦ by simpa using h k hk
  rw [textIn, List.find?_append, hnone, Option.none_or]
  rfl

theorem textIn_append_left {fragment : String} {first second : List Capture} {name : String}
    (h : ∀ k ∈ second, k.name ≠ Definition.groupNameIn fragment name) :
    textIn fragment (first ++ second) name = textIn fragment first name := by
  have hnone : second.find? (·.name == Definition.groupNameIn fragment name) = none :=
    List.find?_eq_none.mpr fun k hk ↦ by simpa using h k hk
  rw [textIn, List.find?_append, hnone, Option.or_none]
  rfl

/-- `u` comes from `t` over a text, and what has been captured on the way, all of it under the given names, fills
something with that text. -/
def Thread.FillsTo (fragment : String) (names : List String)
    (fills : (String → Option (List Char)) → List Char → Prop) (t u : Thread) : Prop :=
  ∃ s gained, t.rest = s ++ u.rest ∧ u.captures = gained ++ t.captures ∧ (∀ k ∈ gained, k.name ∈ names) ∧
    fills (textIn fragment gained) s

/-- What an optional expression reaches has gone through it or past it. -/
theorem mem_run_optional {r : Regex} (hnodup : (offsetsOf ts).Nodup)
    (hu : u ∈ run none (.repeat 0 (some 1) true r) ts) :
    (∃ v ∈ run none r (ts.map Thread.mark), u = v.unmark) ∨ u ∈ ts := by
  have hrun : run none (.repeat 0 (some 1) true r) ts = prefer ts (run none r) id := by
    have hpass : ts.filterMap (·.pass? none) = ts := List.filterMap_some
    rw [run, upTo_succ]
    exact congrArg (prefer · (run none r) id) hpass
  rw [hrun, prefer_eq (forward_run none r) (.id .all) hnodup] at hu
  obtain ⟨t, ht, hmem⟩ := List.mem_flatMap.mp ((distinct_sublist _).subset hu)
  obtain ⟨v, hv, rfl⟩ := List.mem_map.mp hmem
  rcases List.mem_append.mp hv with hv | hv
  · exact .inl ⟨v, List.mem_of_mem_filter hv, rfl⟩
  · obtain ⟨s, hs, rfl⟩ := List.mem_map.mp (List.mem_of_mem_filter hv)
    exact .inr hs

end Regex

namespace Fragment

variable {context : Context} {filling : String → String} {fits : String → Option String → List Char → Prop}
  {text : List Char}

/-- What the expressions of placeholders read somewhere fits them. -/
def FitsWhatIsRead (context : Context) (filling : String → String) (fits : String → Option String → List Char → Prop)
    (placeholders : List (String × Option String)) : Prop :=
  ∀ p ∈ placeholders, ∀ (t : Thread) (s rest : List Char), t.passed = [] → t.rest = s ++ rest →
    t.offset + s.length ∈ offsetsOf (run none (bodyOf (regexOf context.declaration filling false p.1 p.2)) [t]) →
      fits p.1 p.2 s

mutual

theorem fills_segment {draft next : Draft} {segment : Segment} {ts : List Thread} {u : Thread}
    (hok : Fragment.segment context draft segment = .ok next)
    (hfits : FitsWhatIsRead context filling fits segment.placeholders)
    (hnodup : ((segmentRegexes context filling segment).flatMap groupNames).Nodup) (hts : (offsetsOf ts).Nodup)
    (hon : ∀ t ∈ ts, t.On text ∧ t.passed = [])
    (hu : u ∈ run none (sequence (segmentRegexes context filling segment)) ts) :
    ∃ t ∈ ts, t.FillsTo (Definition.fragmentName context.index)
      ((segmentRegexes context filling segment).flatMap groupNames) (fun value ↦ segment.Fills fits value) u := by
  cases segment with
  | literal letters =>
    obtain ⟨t, ht, ⟨s, hs, -⟩, hoffset⟩ := exists_source _ hts hon hu
    obtain ⟨gained, hgained, hnames⟩ := hs.captures
    have hs' : s = Segment.unescapeChars letters.toList := by
      rw [hs.offset, segmentRegexes,
        mem_run_append_iff (lookFree_sequence (lookFree_characters _)) (hon t ht).2 hs.rest] at hoffset
      exact (accepts_characters _ s).mp hoffset
    refine ⟨t, ht, s, gained, hs.rest, hgained, fun k hk ↦ ?_, hs'⟩
    have hname := (hnames k hk).1
    rwa [Scope.outside, groupNames_sequence] at hname
  | placeholder name inline? =>
    let group : String := Definition.groupNameIn (Definition.fragmentName context.index) name
    let body : Regex := bodyOf (regexOf context.declaration filling false name inline?)
    have hmem : u ∈ (run none body (ts.map Thread.mark)).map fun t ↦ (t.capture group).unmark := hu
    obtain ⟨v, hv, rfl⟩ := List.mem_map.mp hmem
    have hon' : ∀ m ∈ ts.map Thread.mark, m.On text ∧ m.passed = [] := by
      intro m hm
      obtain ⟨t, ht, rfl⟩ := List.mem_map.mp hm
      exact ⟨(hon t ht).1.ahead (s := []) ⟨rfl, rfl, rfl⟩, (hon t ht).2⟩
    obtain ⟨m, hm, ⟨s, hs, -⟩, hoffset⟩ := exists_source body (by rwa [offsetsOf_mark]) hon' hv
    obtain ⟨t, ht, rfl⟩ := List.mem_map.mp hm
    obtain ⟨gained, hgained, hnames⟩ := hs.captures
    have hcapture : (v.capture group).captures = ⟨group, t.rest, s.length⟩ :: v.captures := hs.captures_capture group
    have htext : Capture.text ⟨group, t.rest, s.length⟩ = s := by
      have hrest : t.rest = s ++ v.rest := hs.rest
      rw [Capture.text, hrest, List.take_left]
    rw [hs.offset] at hoffset
    have hfit : fits name inline? s := hfits (name, inline?) List.mem_cons_self t.mark s v.rest (hon' _ hm).2 hs.rest hoffset
    refine ⟨t, ht, s, ⟨group, t.rest, s.length⟩ :: gained, ?_, ?_, fun k hk ↦ ?_, ?_, hfit⟩
    · rw [Thread.From.unmark_capture]
      exact hs.rest
    · rw [Thread.From.unmark_capture, hcapture, hgained]
      rfl
    · rw [segmentRegexes, List.flatMap_singleton, parameterRegex, groupNames]
      rcases List.mem_cons.mp hk with rfl | hk
      · exact List.mem_cons_self
      · exact List.mem_cons_of_mem _ (hnames k hk).1
    · simp only [textIn, List.find?_cons, group, beq_self_eq_true, Option.map_some]
      exact congrArg some htext
  | positional index => cases hok
  | optional inner =>
    obtain ⟨inside, hinside, -⟩ := bind_eq_ok.mp hok
    have hmem : u ∈ run none (.repeat 0 (some 1) true (sequence (segmentsRegexes context filling inner))) ts := hu
    rw [segmentRegexes, List.flatMap_singleton, groupNames, groupNames_sequence] at hnodup ⊢
    rcases mem_run_optional hts hmem with ⟨v, hv, rfl⟩ | hu
    · have hon' : ∀ m ∈ ts.map Thread.mark, m.On text ∧ m.passed = [] := by
        intro m hm
        obtain ⟨t, ht, rfl⟩ := List.mem_map.mp hm
        exact ⟨(hon t ht).1.ahead (s := []) ⟨rfl, rfl, rfl⟩, (hon t ht).2⟩
      obtain ⟨m, hm, s, gained, hrest, hgained, hnames, hfills⟩ :=
        fills_segments hinside hfits hnodup (by rwa [offsetsOf_mark]) hon' hv
      obtain ⟨t, ht, rfl⟩ := List.mem_map.mp hm
      exact ⟨t, ht, s, gained, hrest, hgained, hnames, .inr hfills⟩
    · exact ⟨u, hu, [], [], rfl, rfl, List.forall_mem_nil _, .inl ⟨rfl, fun _ _ ↦ rfl⟩⟩

/-- Assumes: no group is named twice. A way through the expressions of segments fills them with what it captures. -/
theorem fills_segments {draft next : Draft} {path : List Segment} {ts : List Thread} {u : Thread}
    (hok : segments context draft path = .ok next)
    (hfits : FitsWhatIsRead context filling fits (Segment.placeholdersAll path))
    (hnodup : ((segmentsRegexes context filling path).flatMap groupNames).Nodup) (hts : (offsetsOf ts).Nodup)
    (hon : ∀ t ∈ ts, t.On text ∧ t.passed = [])
    (hu : u ∈ run none (sequence (segmentsRegexes context filling path)) ts) :
    ∃ t ∈ ts, t.FillsTo (Definition.fragmentName context.index)
      ((segmentsRegexes context filling path).flatMap groupNames) (fun value ↦ Segment.FillsAll fits value path) u := by
  cases path with
  | nil => exact ⟨u, hu, [], [], rfl, rfl, List.forall_mem_nil _, rfl⟩
  | cons segment rest =>
    obtain ⟨middle, hsegment, hrest⟩ := bind_eq_ok.mp hok
    obtain ⟨hfits, hfits'⟩ := List.forall_mem_append.mp hfits
    rw [segmentsRegexes, List.flatMap_append] at hnodup
    obtain ⟨hnodup, hnodup', hdisjoint⟩ := List.nodup_append.mp hnodup
    rw [segmentsRegexes, run_sequence_append] at hu
    have hreached := (forward_run none (sequence (segmentRegexes context filling segment))).nodup ts hts
    have hon' : ∀ v ∈ run none (sequence (segmentRegexes context filling segment)) ts, v.On text ∧ v.passed = [] := by
      intro v hv
      obtain ⟨t, ht, hlead, -⟩ := exists_source _ hts hon hv
      refine ⟨(hon t ht).1.lead hlead, List.eq_nil_iff_forall_not_mem.mpr fun p hp ↦ ?_⟩
      obtain ⟨s, hs, -⟩ := hlead
      exact (hs.passed p hp).elim (fun hin ↦ by simp [(hon t ht).2] at hin) id
    obtain ⟨v, hv, s', gained', hrest', hgained', hnames', hfills'⟩ := fills_segments hrest hfits' hnodup' hreached hon' hu
    obtain ⟨t, ht, s, gained, hrest, hgained, hnames, hfills⟩ := fills_segment hsegment hfits hnodup hts hon hv
    refine ⟨t, ht, s ++ s', gained' ++ gained, ?_, ?_, ?_, s, s', rfl, ?_, ?_⟩
    · rw [hrest, hrest', List.append_assoc]
    · rw [hgained', hgained, List.append_assoc]
    · rw [segmentsRegexes, List.flatMap_append]
      exact List.forall_mem_append.mpr ⟨fun k hk ↦ List.mem_append_right _ (hnames' k hk),
        fun k hk ↦ List.mem_append_left _ (hnames k hk)⟩
    · refine (Segment.fills_congr (fun p hp ↦ ?_) s).mpr hfills
      exact textIn_append_of_notMem fun k hk heq ↦ hdisjoint _ (mem_groupNames_segment hp) _ (heq ▸ hnames' k hk) rfl
    · refine (Segment.fillsAll_congr (fun p hp ↦ ?_) s').mpr hfills'
      exact textIn_append_left fun k hk heq ↦ hdisjoint _ (heq ▸ hnames k hk) _ (mem_groupNames_segments hp) rfl

end

/-- Without conditions on positions the expressions of parameters read what they accept. -/
theorem fitsWhatIsRead_of_lookFree {placeholders : List (String × Option String)}
    (h : PathLookFree context filling placeholders) :
    FitsWhatIsRead context filling (Fragment.fits context filling) placeholders :=
  fun p hp _ _ _ hpassed hrest hoffset ↦ (mem_run_append_iff (h p hp) hpassed hrest).mp hoffset

/-- Assumes: the path of a pattern compiles, and a text ends in an ampersand. A match of the text by the group of the
pattern fills the path with what the group has captured, in front of a question mark. -/
theorem fills_of_matchAlone {draft next : Draft} {path : List Segment} {parts : List QueryPart}
    (hok : segments context draft path = .ok next)
    (hfits : FitsWhatIsRead context filling fits (Segment.placeholdersAll path))
    (hnodup : (fragmentRegex context filling path parts).groupNames.Nodup) (hend : text.getLast? = some '&') {v : Thread}
    (hv : Mapping.matchAlone (fragmentRegex context filling path parts) text = some v) :
    ∃ s q, text = s ++ '?' :: q ∧ Segment.FillsAll fits
      (fun name ↦ v.captured? (Definition.groupNameIn (Definition.fragmentName context.index) name)) path s := by
  have hrel := Mapping.matchAlone_query (Definition.fragmentName context.index) (segmentsRegexes context filling path)
    (parts.map (QueryPart.regexes context filling)) hend
  rw [fragmentRegex, queryRegexes] at hv
  rw [hv] at hrel
  have hpaths : ((segmentsRegexes context filling path).flatMap groupNames).Nodup := by
    have hall := hnodup
    rw [fragmentRegex, groupNames, List.nodup_cons, groupNames_sequence, List.flatMap_append] at hall
    exact (List.nodup_append.mp hall.2).1
  cases hfirst : (run none (sequence (segmentsRegexes context filling path)) [(Thread.start 0 none text).mark]).find?
      Thread.atMark with
  | none =>
    rw [hfirst] at hrel
    cases hrel
  | some u =>
    rw [hfirst] at hrel
    cases hrel with
    | some hsame =>
      have hon : ∀ t ∈ [(Thread.start 0 none text).mark], t.On text ∧ t.passed = [] :=
        List.forall_mem_singleton.mpr ⟨(Thread.On.start text).ahead (s := []) ⟨rfl, rfl, rfl⟩, rfl⟩
      have hts : (offsetsOf [(Thread.start 0 none text).mark]).Nodup := List.nodup_singleton _
      obtain ⟨t, ht, s, gained, hrest, hgained, -, hfills⟩ :=
        fills_segments hok hfits hpaths hts hon (List.mem_of_find?_eq_some hfirst)
      obtain rfl := List.mem_singleton.mp ht
      obtain ⟨q, hq⟩ : ∃ q, u.rest = '?' :: q := by
        have hmark := List.find?_some hfirst
        rw [Thread.atMark, beq_iff_eq] at hmark
        exact List.head?_eq_some_iff.mp hmark
      refine ⟨s, q, hq ▸ hrest, (Segment.fillsAll_congr (fun p hp ↦ ?_) s).mpr hfills⟩
      rw [hsame _ (Definition.groupNameIn_ne _ _) (notMem_pair_of_path hnodup hp), Thread.captured?, hgained]
      have hnone : ((Thread.start 0 none text).mark).captures = [] := rfl
      rw [hnone, List.append_nil]
      rfl

end Fragment

end PathBinding
