import PathBinding.Derivation.TypeText.Reader

/-!
Generic parameters and the conditions on them. Where a type is implemented its parameters keep their attributes and bounds
and lose their defaults; where it is used only their names are left. Lifetimes come first in both.
-/

set_option autoImplicit false
set_option relaxedAutoImplicit false

namespace PathBinding.Derivation

structure GenericParameter where
  isLifetime : Bool
  name : Token
  /-- The name with the attributes in front of it and its bounds. -/
  bounded : List Token
  /-- Whether a comma follows the parameter. -/
  comma : Bool
  deriving DecidableEq, Repr

namespace GenericParameter

/-- Bounds behind a name. A colon that introduces none of them is left out. -/
private def readBoundsOf (bound : Nat) : List Token → Option (List Token × List Token)
  | .mark ":" :: rest => do
    let (bounds, rest) ← TypeText.readBounds bound rest
    return (if bounds.isEmpty then [] else .mark ":" :: bounds, rest)
  | tokens => some ([], tokens)

/-- The tokens behind the default of a constant: a literal, a name or an expression in curly brackets. -/
private def skipConstant (bound : Nat) (tokens : List Token) : Option (List Token) :=
  match TypeText.readConstant bound tokens, tokens with
  | some (_, rest), _ => some rest
  | none, .word _ :: rest => some rest
  | none, _ => none

/-- A parameter without its comma. -/
private def read (bound : Nat) (tokens : List Token) : Option (GenericParameter × List Token) := do
  let (attributes, tokens) := TypeText.readAttributes bound tokens
  match tokens with
  | .lifetime name :: rest => do
    let (bounds, rest) ← readBoundsOf bound rest
    return (⟨true, .lifetime name, attributes ++ .lifetime name :: bounds, false⟩, rest)
  | .word "const" :: .word name :: .mark ":" :: rest => do
    let (type, rest) ← TypeText.readSingle bound rest
    let rest ← match rest with
      | .mark "=" :: rest => skipConstant bound rest
      | rest => some rest
    let bounded := attributes ++ .word "const" :: .word name :: .mark ":" :: type.tokens
    return (⟨false, .word name, bounded, false⟩, rest)
  | .word name :: rest => do
    let (bounds, rest) ← readBoundsOf bound rest
    let rest ← match rest with
      | .mark "=" :: rest => (TypeText.read bound rest).map Prod.snd
      | rest => some rest
    return (⟨false, .word name, attributes ++ .word name :: bounds, false⟩, rest)
  | _ => none

private def readAll : Nat → List Token → List GenericParameter
  | 0, _ => []
  | bound + 1, tokens =>
    match read bound tokens with
    | some (parameter, .mark "," :: rest) => { parameter with comma := true } :: readAll bound rest
    | some (parameter, _) => [parameter]
    | none => []

/-- The parameters in a list with commas between them. -/
def ofTokens (tokens : List Token) : List GenericParameter :=
  readAll (TypeText.depthOf tokens) tokens

/-- A list of parameters in angle brackets, or nothing if there are none. -/
def spellList (text : GenericParameter → List Token) (parameters : List GenericParameter) : String :=
  if parameters.isEmpty then ""
  else
    let arguments := parameters.map fun p ↦ ⟨if p.isLifetime then .lifetime else .other, text p, p.comma⟩
    Token.spell (.mark "<" :: Argument.arrange arguments ++ [.mark ">"])

end GenericParameter

private def readCondition (bound : Nat) (tokens : List Token) : Option (List Token × List Token) := do
  let (type, rest) ← TypeText.read bound tokens
  match rest with
  | .mark ":" :: rest => do
    let (bounds, rest) ← TypeText.readBounds bound rest
    return (type.tokens ++ .mark ":" :: bounds, rest)
  | _ => none

/-- The text of conditions on types and lifetimes, each with its bounds. What is no condition stays as it is. -/
private def arrangeConditions : Nat → List Token → List Token
  | 0, tokens => tokens
  | bound + 1, tokens =>
    match readCondition bound tokens with
    | some (text, .mark "," :: rest) => text ++ .mark "," :: arrangeConditions bound rest
    | some (text, rest) => text ++ rest
    | none => tokens

/-- The clause of conditions, unless there are none. -/
def conditionClause? (tokens : List Token) : Option String :=
  if tokens.isEmpty then none
  else some (Token.spell (.word "where" :: arrangeConditions (TypeText.depthOf tokens) tokens))

end PathBinding.Derivation
