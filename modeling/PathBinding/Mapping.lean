import PathBinding.Fragment
import PathBinding.Regex.Size
import PathBinding.Settings

/-!
The mapping of a view: its compiled patterns joined to one anchored expression. The expression is compiled once if it
has no gaps; with gaps it is assembled at each match.
-/

set_option autoImplicit false
set_option relaxedAutoImplicit false

namespace PathBinding

/-- The expression of a mapping. -/
inductive Source
  | static (text : String) (regex : Regex)
  | dynamic (pieces : Pieces)
  deriving DecidableEq, Repr

structure Mapping where
  owner : String
  parameters : List Descriptor
  patterns : List Definition
  noMatch : NoMatchPolicy
  selection : SelectionPolicy
  regexSizeLimit : Nat
  source : Source
  deriving DecidableEq, Repr

namespace Mapping

/-- Descriptors are of known kinds and have names of their own. -/
def checkDescriptors (owner : String) (seen : List String) : List Descriptor → Except Error Unit
  | [] => .ok ()
  | descriptor :: rest => do
    if descriptor.name ∈ seen then throw (.duplicateParameter descriptor.name owner)
    let _ ← descriptor.kind.requireDefaultRegex descriptor.name owner
    checkDescriptors owner (descriptor.name :: seen) rest

/-- Compiles patterns that are numbered from `index`. -/
def compileFrom (declaration : Declaration) (index : Nat) :
    List PatternDeclaration → Except Error (List (Definition × Pieces))
  | [] => .ok []
  | pattern :: rest => do
    let compiled ← Fragment.compile declaration pattern index
    let others ← compileFrom declaration (index + 1) rest
    return compiled :: others

/-- Joins fragments as alternatives of one anchored expression. -/
def join (fragments : List Pieces) : Pieces :=
  let opened : Pieces := Pieces.addText [] "^(?:"
  let joined := match fragments with
    | [] => opened
    | first :: rest => rest.foldl (fun pieces fragment ↦ (pieces.addText "|").extend fragment) (opened.extend first)
  joined.addText ")$"

def compileRegex (owner : String) (limit : Nat) (text : String) : Except Error Regex :=
  match Regex.compile? limit text with
  | some regex => .ok regex
  | none => .error (.invalidRegex owner)

/-- Builds the mapping of a declaration. -/
def build (declaration : Declaration) (settings : Settings) : Except Error Mapping := do
  checkDescriptors declaration.owner [] declaration.parameters
  let compiled ← compileFrom declaration 0 declaration.patterns
  let pieces := join (compiled.map (·.2))
  let source ← match pieces.static? with
    | some text => do
      let regex ← compileRegex declaration.owner settings.regexSizeLimit text
      pure (Source.static text regex)
    | none => pure (Source.dynamic pieces)
  return {
    owner := declaration.owner
    parameters := declaration.parameters
    patterns := compiled.map (·.1)
    noMatch := declaration.noMatch.getD settings.defaultNoMatch
    selection := settings.selectionPolicy
    regexSizeLimit := settings.regexSizeLimit
    source }

def isDynamic (mapping : Mapping) : Bool :=
  match mapping.source with
  | .static .. => false
  | .dynamic _ => true

def find? (mapping : Mapping) (name : String) : Option Descriptor :=
  mapping.parameters.find? (·.name == name)

end Mapping

end PathBinding
