/-!
Policies: what happens to a path that no pattern matches, and which of several matching patterns wins.
-/

set_option autoImplicit false
set_option relaxedAutoImplicit false

namespace PathBinding

/-- Where an unmatched path is sent. -/
inductive Reroute
  | error (kind : String)
  | view (kind : String)
  deriving DecidableEq, Repr

def Reroute.render : Reroute → String
  | .error kind => "error:" ++ kind
  | .view kind => "view:" ++ kind

inductive NoMatchPolicy
  | ignore
  | rerouteToError (kind : String)
  | rerouteToView (kind : String)
  deriving DecidableEq, Repr

def NoMatchPolicy.reroute? : NoMatchPolicy → Option Reroute
  | .ignore => none
  | .rerouteToError kind => some (.error kind)
  | .rerouteToView kind => some (.view kind)

inductive SelectionPolicy
  | declarationOrder
  | mostCaptured
  deriving DecidableEq, Repr

end PathBinding
