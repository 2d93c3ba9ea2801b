import PathBinding.Mapping
import PathBinding.View

/-!
Rendering a path from a template. Values replace named placeholders and arguments the positional ones; an optional group
with anything missing is left out, and everything missing outside of groups is reported together.
-/

set_option autoImplicit false
set_option relaxedAutoImplicit false

namespace PathBinding.Template

/-- What a template is rendered with. -/
structure Context where
  mapping : Mapping
  view : View
  template : String
  arguments : List String
  settings : Settings

/-- The text rendered so far, with marks for missing values, and the names of those values. -/
structure Draft where
  rendered : String := ""
  missing : List String := []

namespace Context

def fail {α : Type} (context : Context) (draft : Draft) (fault : FormatFault) : Except Error α :=
  .error (.format context.template draft.rendered fault)

def mark (context : Context) (draft : Draft) (name : String) : Draft :=
  ⟨draft.rendered ++ context.settings.missingMarkerFor name, draft.missing ++ [name]⟩

end Context

def Draft.text (draft : Draft) (text : String) : Draft :=
  { draft with rendered := draft.rendered ++ text }

mutual

/-- Renders a segment behind a draft; `inGroup` tells whether it stands in an optional group. -/
def segment (context : Context) (inGroup : Bool) (draft : Draft) : Segment → Except Error Draft
  | .literal text => .ok (draft.text (Segment.unescape text))
  | .placeholder name (some _) => context.fail draft (.inlineRegex name)
  | .placeholder name none =>
    if (context.mapping.find? name).isNone then context.fail draft (.unknownPlaceholder name)
    else
      match context.view.get name with
      | some value => .ok (draft.text value.render)
      | none => .ok (context.mark draft name)
  | .positional index =>
    match context.arguments[index - 1]? with
    | some argument => .ok (draft.text argument)
    | none =>
      if inGroup then .ok (context.mark draft s!":{index}")
      else context.fail draft (.outOfRange index context.arguments.length)
  | .optional inner => do
    let inside ← segments context true draft inner
    return if inside.missing.length > draft.missing.length then draft else inside

def segments (context : Context) (inGroup : Bool) (draft : Draft) : List Segment → Except Error Draft
  | [] => .ok draft
  | head :: rest => do
    let next ← segment context inGroup draft head
    segments context inGroup next rest

end

/-- Renders a template for a view. -/
def render (mapping : Mapping) (view : View) (template : String) (arguments : List String) (settings : Settings) :
    Except Error String := do
  let context : Context := ⟨mapping, view, template, arguments, settings⟩
  match Segment.read template with
  | .error fault => context.fail {} (.unreadable template fault)
  | .ok read => do
    let draft ← segments context false {} read
    if draft.missing.isEmpty then return draft.rendered else context.fail draft (.missing draft.missing)

end PathBinding.Template
