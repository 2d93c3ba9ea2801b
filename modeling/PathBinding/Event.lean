import PathBinding.Policy
import PathBinding.Quoted

/-!
The trace of what a registry does. An event is what happened; its level, wording and fields follow from that. Events of a
match carry the span of the match.
-/

set_option autoImplicit false
set_option relaxedAutoImplicit false

namespace PathBinding

inductive Event
  | built (owner : String) (patterns : Nat) (dynamic : Bool)
  | registered (owner parameter : String)
  | assembled (owner regex : String)
  | selected (owner path : String) (winner : Option String)
  | missed (owner : String) (reroute : Option Reroute)
  | unconverted (owner parameter value : String)
  deriving DecidableEq, Repr

inductive EventLevel
  | trace
  | debug
  | warn
  deriving DecidableEq, Repr

def EventLevel.name : EventLevel → String
  | .trace => "TRACE"
  | .debug => "DEBUG"
  | .warn => "WARN"

private def optional {α : Type} (render : α → String) : Option α → String
  | none => "None"
  | some x => "Some(" ++ render x ++ ")"

private def quotedReroute : Reroute → String
  | .error kind => "Error(" ++ quoted kind ++ ")"
  | .view kind => "View(" ++ quoted kind ++ ")"

namespace Event

def level : Event → EventLevel
  | .built .. => .debug
  | .registered .. => .debug
  | .assembled .. => .trace
  | .selected .. => .trace
  | .missed .. => .debug
  | .unconverted .. => .warn

def message : Event → String
  | .built .. => "Built URL mapping"
  | .registered .. => "Registered dynamic regex"
  | .assembled .. => "Assembled dynamic regex"
  | .selected .. => "Selected pattern"
  | .missed .. => "No URL pattern matched"
  | .unconverted .. => "Failed to convert URL parameter"

def fields : Event → List (String × String)
  | .built owner patterns dynamic =>
    [("owner", owner), ("patterns", toString patterns), ("dynamic", if dynamic then "true" else "false")]
  | .registered owner parameter => [("owner", owner), ("parameter", parameter)]
  | .assembled owner regex => [("owner", owner), ("regex", regex)]
  | .selected owner path winner => [("owner", owner), ("path", path), ("winner", optional quoted winner)]
  | .missed owner reroute => [("owner", owner), ("reroute", optional quotedReroute reroute)]
  | .unconverted owner parameter value => [("owner", owner), ("parameter", parameter), ("value", value)]

end Event

/-- The match in which an event happens. -/
structure Span where
  owner : String
  path : String
  deriving DecidableEq, Repr

structure TraceEntry where
  event : Event
  span : Option Span
  deriving DecidableEq, Repr

end PathBinding
