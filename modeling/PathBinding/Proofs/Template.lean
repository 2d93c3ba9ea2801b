import Mathlib.Data.List.Basic
import PathBinding.Proofs.Pieces
import PathBinding.Proofs.Segment.Reading
import PathBinding.Template

/-!
What a template means. The text of a sequence is put together from those of its segments: an optional group is its content
if nothing that stands in it directly is absent, and otherwise nothing (`Context.textAll`). The renderer works behind a
draft and takes back what a group has added; it still appends to any draft exactly that text and the names of what is
absent, unless something cannot be rendered at all, in which case it stops there (`segments_appends`). So rendering gives
what the template means, and of several faults the first one that cannot be rendered counts before anything missing
(`render_means`).
-/

set_option autoImplicit false
set_option relaxedAutoImplicit false

namespace PathBinding.Template

namespace Context

variable (context : Context)

/-- The name of what is absent in place of a segment: a parameter without a value or a position without an argument.
Whatever is absent in a group inside is not absent from the sequence around it. -/
def absent? : Segment → Option String
  | .placeholder name _ => if (context.view.get name).isSome then none else some name
  | .positional index => if (context.arguments[index - 1]?).isSome then none else some s!":{index}"
  | .literal _ | .optional _ => none

mutual

/-- The text of a segment, with marks for what is absent. -/
def text : Segment → String
  | .literal text => Segment.unescape text
  | .placeholder name _ => ((context.view.get name).map Value.render).getD (context.settings.missingMarkerFor name)
  | .positional index => (context.arguments[index - 1]?).getD (context.settings.missingMarkerFor s!":{index}")
  | .optional inner => if ∀ part ∈ inner, context.absent? part = none then textAll inner else ""

def textAll : List Segment → String
  | [] => ""
  | segment :: rest => text segment ++ textAll rest

end

mutual

/-- The first thing in a segment that cannot be rendered at all, and the text in front of it: a placeholder with an
expression of its own or of an unknown name, or outside of groups a position without an argument. -/
def stop? (inGroup : Bool) : Segment → Option (String × FormatFault)
  | .literal _ => none
  | .placeholder name (some _) => some ("", .inlineRegex name)
  | .placeholder name none => if (context.mapping.find? name).isSome then none else some ("", .unknownPlaceholder name)
  | .positional index =>
    if inGroup ∨ (context.arguments[index - 1]?).isSome then none
    else some ("", .outOfRange index context.arguments.length)
  | .optional inner => stopAll? true inner

def stopAll? (inGroup : Bool) : List Segment → Option (String × FormatFault)
  | [] => none
  | segment :: rest =>
    (stop? inGroup segment).or ((stopAll? inGroup rest).map fun stop ↦ (context.text segment ++ stop.1, stop.2))

end

/-- What rendering something behind a draft comes to. -/
def appends (draft : Draft) (stop? : Option (String × FormatFault)) (text : String) (absent : List String) :
    Except Error Draft :=
  match stop? with
  | some (front, fault) => .error (.format context.template (draft.rendered ++ front) fault)
  | none => .ok ⟨draft.rendered ++ text, draft.missing ++ absent⟩

/-- All placeholders of a template, also those in groups, are bare names of parameters, and outside of groups there is an
argument for each position. -/
structure Admits (parts : List Segment) : Prop where
  named : ∀ p ∈ Segment.placeholdersAll parts, p.2 = none ∧ (context.mapping.find? p.1).isSome
  within : ∀ index, .positional index ∈ parts → index ≤ context.arguments.length

/-- The parameters without values among the placeholders outside of groups, in their order. -/
def unset (parts : List Segment) : List String :=
  parts.filterMap fun
    | .placeholder name _ => if (context.view.get name).isSome then none else some name
    | _ => none

end Context

variable {context : Context}

/-! ### What the renderer appends -/

mutual

theorem segment_appends (inGroup : Bool) (draft : Draft) (part : Segment) : segment context inGroup draft part =
    context.appends draft (context.stop? inGroup part) (context.text part) (context.absent? part).toList := by
  cases part with
  | literal text => simp [segment, Context.stop?, Context.appends, Context.text, Context.absent?, Draft.text]
  | placeholder name regex =>
    cases regex with
    | some regex => simp [segment, Context.stop?, Context.appends, Context.fail]
    | none =>
      rw [segment, Context.stop?, Context.text, Context.absent?]
      cases context.mapping.find? name with
      | none => simp [Context.appends, Context.fail]
      | some descriptor =>
        cases context.view.get name with
        | none => simp [Context.appends, Context.mark]
        | some value => simp [Context.appends, Draft.text]
  | positional index =>
    rw [segment, Context.stop?, Context.text, Context.absent?]
    cases context.arguments[index - 1]? with
    | none => cases inGroup <;> simp [Context.appends, Context.mark, Context.fail]
    | some argument => simp [Context.appends, Draft.text]
  | optional inner =>
    have hinside := segments_appends true draft inner
    rw [Context.stop?, Context.text, Context.absent?]
    cases hstop : context.stopAll? true inner with
    | some stop =>
      rw [hstop] at hinside
      rw [segment, hinside]
      rfl
    | none =>
      rw [hstop] at hinside
      refine bind_eq_ok.mpr ⟨_, hinside, congrArg Except.ok ?_⟩
      -- The group is taken back exactly if the list of what is missing has grown.
      have hgrown : inner.filterMap context.absent? = [] ↔ ∀ part ∈ inner, context.absent? part = none :=
        List.filterMap_eq_nil_iff
      by_cases hpresent : ∀ part ∈ inner, context.absent? part = none
      · rw [if_pos hpresent, hgrown.mpr hpresent]
        simp
      · have hlength : 0 < (inner.filterMap context.absent?).length :=
          List.length_pos_iff.mpr fun hnil ↦ hpresent (hgrown.mp hnil)
        simp [hlength, hpresent]

/-- Whatever groups are taken back on the way, rendering adds to a draft the text of the segments and the names of what is
absent among them, or it stops at the first thing that cannot be rendered. -/
theorem segments_appends (inGroup : Bool) (draft : Draft) (parts : List Segment) : segments context inGroup draft parts =
    context.appends draft (context.stopAll? inGroup parts) (context.textAll parts) (parts.filterMap context.absent?) := by
  cases parts with
  | nil => simp [segments, Context.stopAll?, Context.appends, Context.textAll]
  | cons part rest =>
    have hfilter : (part :: rest).filterMap context.absent? =
        (context.absent? part).toList ++ rest.filterMap context.absent? := by
      rw [List.filterMap_cons]
      cases context.absent? part <;> rfl
    rw [segments, segment_appends, Context.stopAll?, Context.textAll, hfilter]
    cases context.stop? inGroup part with
    | some stop => rfl
    | none =>
      refine (segments_appends inGroup _ rest).trans ?_
      cases context.stopAll? inGroup rest with
      | some stop => simp [Context.appends, String.append_assoc]
      | none => simp [Context.appends, String.append_assoc]

end

/-! ### What cannot be rendered at all -/

/-- Rendering stops nowhere if all placeholders are names of parameters and no position outside of groups is without an
argument. -/
theorem stopAll?_eq_none_iff {inGroup : Bool} {parts : List Segment} : context.stopAll? inGroup parts = none ↔
    (∀ p ∈ Segment.placeholdersAll parts, p.2 = none ∧ (context.mapping.find? p.1).isSome) ∧
      (inGroup = false → ∀ index, .positional index ∈ parts → (context.arguments[index - 1]?).isSome) := by
  match parts with
  | [] => simp [Context.stopAll?, Segment.placeholdersAll]
  | part :: rest =>
    have hpart : context.stop? inGroup part = none ↔
        (∀ p ∈ part.placeholders, p.2 = none ∧ (context.mapping.find? p.1).isSome) ∧
          (inGroup = false → ∀ index, part = .positional index → (context.arguments[index - 1]?).isSome) := by
      match part with
      | .literal text => simp [Context.stop?, Segment.placeholders]
      | .placeholder name regex => cases regex <;> simp [Context.stop?, Segment.placeholders, Option.isSome_iff_ne_none]
      | .positional index => cases inGroup <;> simp [Context.stop?, Segment.placeholders]
      | .optional inner =>
        have hinner : context.stopAll? true inner = none ↔ _ := stopAll?_eq_none_iff
        simp [Context.stop?, Segment.placeholders, hinner]
    rw [Context.stopAll?, Option.or_eq_none_iff, Option.map_eq_none_iff, hpart, stopAll?_eq_none_iff,
      Segment.placeholdersAll, List.forall_mem_append]
    refine and_and_and_comm.trans (and_congr_right fun _ ↦ ?_)
    simp only [List.mem_cons, or_imp, forall_and, eq_comm]
termination_by sizeOf parts

theorem one_le_of_canonical {parts : List Segment} (h : Segment.CanonicalAll parts) {index : Nat}
    (hmem : .positional index ∈ parts) : 1 ≤ index := by
  induction parts with
  | nil => cases hmem
  | cons part rest ih =>
    obtain ⟨hpart, -, hrest⟩ := h
    rcases List.mem_cons.mp hmem with rfl | hmem
    · exact hpart.1
    · exact ih hrest hmem

/-- Nothing stops the rendering of a template that has been read exactly if the template is admitted. -/
theorem stopAll?_eq_none_iff_admits {parts : List Segment} (hread : Segment.read context.template = .ok parts) :
    context.stopAll? false parts = none ↔ context.Admits parts := by
  have hcanonical := (Segment.read_eq_ok_iff.mp hread).1
  have hargument {index : Nat} (hmem : .positional index ∈ parts) :
      (context.arguments[index - 1]?).isSome ↔ index ≤ context.arguments.length := by
    have hone := one_le_of_canonical hcanonical hmem
    rw [Option.isSome_iff_ne_none, ne_eq, List.getElem?_eq_none_iff]
    omega
  rw [stopAll?_eq_none_iff]
  constructor
  · rintro ⟨hnamed, hwithin⟩
    exact ⟨hnamed, fun index hmem ↦ (hargument hmem).mp (hwithin rfl index hmem)⟩
  · rintro ⟨hnamed, hwithin⟩
    exact ⟨hnamed, fun _ index hmem ↦ (hargument hmem).mpr (hwithin index hmem)⟩

/-- If nothing stops the rendering, what is absent are parameters. -/
theorem absent_eq_unset {parts : List Segment} (h : context.stopAll? false parts = none) :
    parts.filterMap context.absent? = context.unset parts := by
  refine List.filterMap_congr fun part hmem ↦ ?_
  cases part with
  | positional index => exact if_pos ((stopAll?_eq_none_iff.mp h).2 rfl index hmem)
  | literal text => rfl
  | placeholder name regex => rfl
  | optional inner => rfl

/-! ### Rendering -/

/-- Rendering a template gives what the template means. A template that cannot be read is an error of its own. One that is
not admitted is an error too, for the first thing that cannot be rendered and behind the text in front of that. Any other
template renders to its text, unless parameters outside of its groups are unset: then the error names all of them in their
order, and its text has marks in their places. -/
theorem render_means (mapping : Mapping) (view : View) (template : String) (arguments : List String) (settings : Settings) :
    let context : Context := ⟨mapping, view, template, arguments, settings⟩
    let result := render mapping view template arguments settings
    (∀ fault, Segment.read template = .error fault →
      result = .error (.format template "" (.unreadable template fault))) ∧
    ∀ parts, Segment.read template = .ok parts →
      (¬context.Admits parts → ∃ front fault, context.stopAll? false parts = some (front, fault) ∧
        result = .error (.format template front fault)) ∧
      (context.Admits parts → result =
        if context.unset parts = [] then .ok (context.textAll parts)
        else .error (.format template (context.textAll parts) (.missing (context.unset parts)))) := by
  intro context result
  refine ⟨fun fault hfault ↦ ?_, fun parts hread ↦ ?_⟩
  · simp only [result, render, hfault]
    rfl
  have hresult : result = (segments context false {} parts).bind fun draft ↦
      if draft.missing.isEmpty then .ok draft.rendered else context.fail draft (.missing draft.missing) := by
    simp only [result, render, hread]
    rfl
  rw [segments_appends] at hresult
  rw [← stopAll?_eq_none_iff_admits hread]
  constructor
  · intro hstop
    obtain ⟨⟨front, fault⟩, hstop⟩ := Option.ne_none_iff_exists'.mp hstop
    rw [hstop] at hresult
    refine ⟨front, fault, hstop, hresult.trans ?_⟩
    simp [Context.appends, Except.bind, context]
  · intro hstop
    rw [absent_eq_unset hstop, hstop] at hresult
    rw [hresult]
    by_cases hunset : context.unset parts = []
    · rw [if_pos hunset, hunset]
      simp [Context.appends, Except.bind]
    · rw [if_neg hunset]
      simp [Context.appends, Context.fail, Except.bind, hunset, context]

/-- The group without a mode is left out of the group around it, and the number of the thread is missing. -/
example :
    let mapping : Mapping :=
      { owner := "Thread", parameters := [⟨"id", .integer, none, false⟩, ⟨"message", .string, none, false⟩,
          ⟨"mode", .string, none, false⟩]
        patterns := [], noMatch := .ignore, selection := .declarationOrder, regexSizeLimit := 0, source := .dynamic [] }
    let view : View := ⟨⟨.anyExcept [], false⟩, [("message", .string "hi")], none⟩
    render mapping view "thread/:id[/:message[/:mode]]" [] {} =
      .error (.format "thread/:id[/:message[/:mode]]" "thread/<missing:id>/hi" (.missing ["id"])) := by
  decide +kernel

end PathBinding.Template
