import PathBinding.Kind
import PathBinding.Policy

/-!
What a view declares: its parameters, its patterns with their query parts, and its policy for unmatched paths.
-/

set_option autoImplicit false
set_option relaxedAutoImplicit false

namespace PathBinding

structure Descriptor where
  name : String
  kind : Kind
  regex : Option String := none
  dynamic : Bool := false
  deriving DecidableEq, Repr

/-- The pattern for any path, the empty one included. -/
def matchAny : String := ".*?"

structure PatternDeclaration where
  pattern : String
  query : List String := []
  deriving DecidableEq, Repr

structure Declaration where
  owner : String
  parameters : List Descriptor := []
  patterns : List PatternDeclaration := []
  noMatch : Option NoMatchPolicy := none
  deriving DecidableEq, Repr

/-- The first descriptor of a name. -/
def Declaration.find? (declaration : Declaration) (name : String) : Option Descriptor :=
  declaration.parameters.find? (·.name == name)

end PathBinding
