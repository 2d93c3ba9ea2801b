import PathBinding.Derivation.Token

/-!
Types in source text. Of a type only the last part of its path matters: an optional type is one whose last part is `Option`
with a type as its first argument, wherever that `Option` is declared. All else of a type is its text, in which arguments
have an order of their own.
-/

set_option autoImplicit false
set_option relaxedAutoImplicit false

namespace PathBinding.Derivation

/-- What stands in angle brackets: a lifetime, a type, or a constant or what binds or bounds an associated item. -/
inductive ArgumentSort
  | lifetime
  | type
  | other
  deriving DecidableEq, Repr

structure Argument where
  sort : ArgumentSort
  tokens : List Token
  /-- Whether a comma follows the argument. -/
  comma : Bool
  deriving DecidableEq, Repr

namespace Argument

private def write (arguments : List Argument) : List Token :=
  arguments.flatMap fun argument ↦ argument.tokens ++ if argument.comma then [.mark ","] else []

/-- The text of arguments. Lifetimes come first, each argument keeps its comma, and where the last lifetime has none one
is put between it and what follows. -/
def arrange (arguments : List Argument) : List Token :=
  let lifetimes := arguments.filter (·.sort = .lifetime)
  let others := arguments.filter (·.sort ≠ .lifetime)
  let between := if lifetimes.getLast?.any (!·.comma) && !others.isEmpty then [.mark ","] else []
  write lifetimes ++ between ++ write others

end Argument

/-- A part of a path, with its arguments in angle brackets. -/
structure PathPart where
  name : String
  arguments? : Option (List Argument) := none
  deriving DecidableEq, Repr

/-- The text of a type, with the last part of its path if it is one. -/
structure TypeText where
  tokens : List Token
  last? : Option PathPart := none
  deriving DecidableEq, Repr

namespace TypeText

/-- Text in front of a path. -/
def after (tokens : List Token) (path : TypeText) : TypeText :=
  { path with tokens := tokens ++ path.tokens }

end TypeText

end PathBinding.Derivation
