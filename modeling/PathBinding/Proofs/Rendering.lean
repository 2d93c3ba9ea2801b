import PathBinding.Proofs.Filling
import PathBinding.Template

/-!
What a template renders to. If a template is filled to a text by the values of a view, it renders to that text
(`render_of_fills`). What the renderer decides for an optional group is what filling it decides: a group that is left out
has a placeholder of its own without a value, so rendering it misses something, and a group that is filled misses nothing.
-/

set_option autoImplicit false
set_option relaxedAutoImplicit false

namespace PathBinding

/-- The text of the current value of a parameter. -/
def View.textOf (view : View) (name : String) : Option (List Char) :=
  (view.get name).map fun value ↦ value.render.toList

namespace Segment

mutual

/-- Each optional group has a placeholder outside of further groups. -/
def IsAnchored : Segment → Prop
  | .literal _ | .placeholder _ _ | .positional _ => True
  | .optional inner => (∃ name regex, .placeholder name regex ∈ inner) ∧ AllAnchored inner

def AllAnchored : List Segment → Prop
  | [] => True
  | segment :: rest => IsAnchored segment ∧ AllAnchored rest

end

theorem mem_placeholdersAll {parts : List Segment} {name : String} {regex : Option String}
    (h : .placeholder name regex ∈ parts) : (name, regex) ∈ placeholdersAll parts := by
  induction parts with
  | nil => cases h
  | cons part rest ih =>
    rcases List.mem_cons.mp h with rfl | h
    · exact List.mem_cons_self
    · exact List.mem_append_right _ (ih h)

mutual

/-- The placeholders of a segment are names of known parameters. -/
def IsNamed (known : String → Prop) : Segment → Prop
  | .literal _ => True
  | .placeholder name regex => regex = none ∧ known name
  | .positional _ => False
  | .optional inner => AllNamed known inner

def AllNamed (known : String → Prop) : List Segment → Prop
  | [] => True
  | segment :: rest => IsNamed known segment ∧ AllNamed known rest

end

mutual

theorem known_of_isNamed {known : String → Prop} {segment : Segment} (h : segment.IsNamed known)
    {p : String × Option String} (hp : p ∈ segment.placeholders) : known p.1 := by
  cases segment with
  | literal text => cases hp
  | placeholder name regex =>
    rw [List.mem_singleton.mp hp]
    exact h.2
  | positional index => cases hp
  | optional inner => exact known_of_allNamed h hp

theorem known_of_allNamed {known : String → Prop} {parts : List Segment} (h : AllNamed known parts)
    {p : String × Option String} (hp : p ∈ placeholdersAll parts) : known p.1 := by
  cases parts with
  | nil => cases hp
  | cons segment rest =>
    rcases List.mem_append.mp hp with hp | hp
    · exact known_of_isNamed h.1 hp
    · exact known_of_allNamed h.2 hp

end

end Segment

namespace Template

variable {context : Context}

/-- A template may name the parameters of its mapping. -/
def Context.Knows (context : Context) (name : String) : Prop :=
  (context.mapping.find? name).isSome

/-! ### What is missing -/

theorem segment_placeholder {name : String} (hname : context.Knows name) (inGroup : Bool) (draft : Draft) :
    segment context inGroup draft (.placeholder name none) = match context.view.get name with
      | some value => .ok (draft.text value.render)
      | none => .ok (context.mark draft name) := by
  obtain ⟨descriptor, hdescriptor⟩ := Option.isSome_iff_exists.mp hname
  rw [segment, hdescriptor]
  rfl

mutual

theorem segment_misses {part : Segment} (h : part.IsNamed context.Knows) (inGroup : Bool) (draft : Draft) :
    ∃ next, segment context inGroup draft part = .ok next ∧ draft.missing.length ≤ next.missing.length := by
  cases part with
  | literal text => exact ⟨_, rfl, Nat.le_refl _⟩
  | placeholder name regex =>
    obtain ⟨rfl, hname⟩ := h
    rw [segment_placeholder hname]
    cases context.view.get name with
    | some value => exact ⟨_, rfl, Nat.le_refl _⟩
    | none => exact ⟨_, rfl, by simp [Context.mark]⟩
  | positional index => exact h.elim
  | optional inner =>
    obtain ⟨inside, hinside, hle⟩ := segments_miss h true draft
    refine ⟨_, bind_eq_ok.mpr ⟨inside, hinside, rfl⟩, ?_⟩
    split
    · exact Nat.le_refl _
    · exact hle

/-- Rendering goes on past anything that is missing. -/
theorem segments_miss {parts : List Segment} (h : Segment.AllNamed context.Knows parts) (inGroup : Bool) (draft : Draft) :
    ∃ next, segments context inGroup draft parts = .ok next ∧ draft.missing.length ≤ next.missing.length := by
  cases parts with
  | nil => exact ⟨draft, rfl, Nat.le_refl _⟩
  | cons part rest =>
    obtain ⟨middle, hmiddle, hle⟩ := segment_misses h.1 inGroup draft
    obtain ⟨next, hnext, hle'⟩ := segments_miss h.2 inGroup middle
    exact ⟨next, bind_eq_ok.mpr ⟨middle, hmiddle, hnext⟩, Nat.le_trans hle hle'⟩

end

/-- A placeholder without a value is missed. -/
theorem segments_miss_placeholder {parts : List Segment} (h : Segment.AllNamed context.Knows parts) {name : String}
    {regex : Option String} (hmem : .placeholder name regex ∈ parts) (hnone : context.view.get name = none)
    (inGroup : Bool) (draft : Draft) :
    ∃ next, segments context inGroup draft parts = .ok next ∧ draft.missing.length < next.missing.length := by
  induction parts generalizing draft with
  | nil => cases hmem
  | cons part rest ih =>
    rcases List.mem_cons.mp hmem with rfl | hmem
    · obtain ⟨rfl, hname⟩ := h.1
      have hmark : segment context inGroup draft (.placeholder name none) = .ok (context.mark draft name) := by
        rw [segment_placeholder hname, hnone]
      obtain ⟨next, hnext, hle⟩ := segments_miss h.2 inGroup (context.mark draft name)
      refine ⟨next, bind_eq_ok.mpr ⟨_, hmark, hnext⟩, Nat.lt_of_lt_of_le ?_ hle⟩
      simp [Context.mark]
    · obtain ⟨middle, hmiddle, hle⟩ := segment_misses h.1 inGroup draft
      obtain ⟨next, hnext, hlt⟩ := ih h.2 hmem middle
      exact ⟨next, bind_eq_ok.mpr ⟨middle, hmiddle, hnext⟩, Nat.lt_of_le_of_lt hle hlt⟩

/-! ### Filled templates -/

variable {fits : String → Option String → List Char → Prop}

theorem text_append (draft : Draft) (u v : List Char) :
    (draft.text (.ofList u)).text (.ofList v) = draft.text (.ofList (u ++ v)) := by
  simp [Draft.text, String.append_assoc, String.ofList_append]

mutual

theorem segment_of_fills {part : Segment} (hnamed : part.IsNamed context.Knows) (hanchored : part.IsAnchored) {s : List Char}
    (hfills : part.Fills fits context.view.textOf s) (inGroup : Bool) (draft : Draft) :
    segment context inGroup draft part = .ok (draft.text (.ofList s)) := by
  cases part with
  | literal text =>
    obtain rfl : s = Segment.unescapeChars text.toList := hfills
    rfl
  | placeholder name regex =>
    obtain ⟨rfl, hname⟩ := hnamed
    obtain ⟨value, hvalue, rfl⟩ := Option.map_eq_some_iff.mp hfills.1
    rw [segment_placeholder hname, hvalue, String.ofList_toList]
  | positional index => exact hnamed.elim
  | optional inner =>
    obtain ⟨⟨name, regex, hmem⟩, hanchored⟩ := hanchored
    rcases hfills with ⟨rfl, hnone⟩ | hfills
    · have hvalue : context.view.get name = none :=
        Option.map_eq_none_iff.mp (hnone (name, regex) (Segment.mem_placeholdersAll hmem))
      obtain ⟨inside, hinside, hlt⟩ := segments_miss_placeholder hnamed hmem hvalue true draft
      refine bind_eq_ok.mpr ⟨inside, hinside, ?_⟩
      rw [if_pos hlt]
      simp [Draft.text]
      rfl
    · have hinside := segments_of_fills hnamed hanchored hfills true draft
      refine bind_eq_ok.mpr ⟨_, hinside, ?_⟩
      exact congrArg Except.ok (if_neg (Nat.lt_irrefl draft.missing.length))

/-- Segments that a view fills to a text are rendered as that text, and nothing is missing. -/
theorem segments_of_fills {parts : List Segment} (hnamed : Segment.AllNamed context.Knows parts)
    (hanchored : Segment.AllAnchored parts) {s : List Char}
    (hfills : Segment.FillsAll fits context.view.textOf parts s) (inGroup : Bool) (draft : Draft) :
    segments context inGroup draft parts = .ok (draft.text (.ofList s)) := by
  cases parts with
  | nil =>
    obtain rfl : s = [] := hfills
    simp [segments, Draft.text]
  | cons part rest =>
    obtain ⟨u, v, rfl, hpart, hrest⟩ := hfills
    have hmiddle := segment_of_fills hnamed.1 hanchored.1 hpart inGroup draft
    have hlast := segments_of_fills hnamed.2 hanchored.2 hrest inGroup (draft.text (.ofList u))
    rw [text_append] at hlast
    exact bind_eq_ok.mpr ⟨_, hmiddle, hlast⟩

end

/-- Assumes: a template names known parameters only, and each of its optional groups has a placeholder of its own. It
renders to the text that the values of the view fill it to. -/
theorem render_of_fills {mapping : Mapping} {view : View} {template : String} {parts : List Segment}
    (hread : Segment.read template = .ok parts) (hnamed : Segment.AllNamed (fun name ↦ (mapping.find? name).isSome) parts)
    (hanchored : Segment.AllAnchored parts) {s : List Char} (hfills : Segment.FillsAll fits view.textOf parts s)
    (arguments : List String) (settings : Settings) :
    render mapping view template arguments settings = .ok (.ofList s) := by
  let context : Context := ⟨mapping, view, template, arguments, settings⟩
  have hdraft : segments context false {} parts = .ok (({} : Draft).text (.ofList s)) :=
    have hnamed : Segment.AllNamed context.Knows parts := hnamed
    segments_of_fills hnamed hanchored hfills false {}
  rw [render, hread]
  refine bind_eq_ok.mpr ⟨_, hdraft, ?_⟩
  simp [Draft.text]
  rfl

end Template

end PathBinding
