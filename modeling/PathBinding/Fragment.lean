import PathBinding.Declaration
import PathBinding.Pieces
import PathBinding.Regex.Escape
import PathBinding.Segment.Parser

/-!
One declared pattern as a fragment of the mapping's regular expression. Pattern number `i` becomes the group `p{i}`, each
parameter the group `p{i}_{name}` inside it; behind the path come a question mark and pairs that each end in `&`, of
which the declared ones are tried before the pair that matches anything.
-/

set_option autoImplicit false
set_option relaxedAutoImplicit false

namespace PathBinding

/-- A pattern as it takes part in selection. -/
structure Definition where
  raw : String
  index : Nat
  parameters : List String
  queryParameters : List String
  inlineRegexes : List (String × String)
  deriving DecidableEq, Repr

namespace Definition

/-- The name of the group around pattern number `index`. -/
def fragmentName (index : Nat) : String :=
  "p" ++ toString index

def fragment (definition : Definition) : String :=
  fragmentName definition.index

def groupNameIn (fragment parameter : String) : String :=
  fragment ++ "_" ++ parameter

/-- The name of the group that captures a parameter. -/
def groupName (definition : Definition) (parameter : String) : String :=
  groupNameIn definition.fragment parameter

def render (definition : Definition) : String :=
  s!"{definition.raw} ({definition.fragment})"

end Definition

namespace Fragment

/-- What has been compiled so far: the parameters in order of appearance, their own expressions, and the pieces. -/
structure Draft where
  parameters : List String := []
  inlineRegexes : List (String × String) := []
  pieces : Pieces := []

def Draft.text (draft : Draft) (text : String) : Draft :=
  { draft with pieces := draft.pieces.addText text }

/-- The surroundings of a pattern: its declaration, its declared text and its number. -/
structure Context where
  declaration : Declaration
  raw : String
  index : Nat

/-- The expression of an occurrence without one of its own, unless it is resolved at each match. -/
def effectiveRegex (descriptor : Descriptor) (inQuery : Bool) (default : String) : String :=
  match descriptor.regex with
  | some regex => regex
  | none => if inQuery ∧ descriptor.kind = .string then Kind.queryStringRegex else default

/-- Adds the group of a parameter, which a pattern may contain once. -/
def placeholder (context : Context) (name : String) (inline? : Option String) (inQuery : Bool) (draft : Draft) :
    Except Error Draft := do
  let owner := context.declaration.owner
  let some descriptor := context.declaration.find? name | throw (.unknownParameter name context.raw owner)
  let default ← descriptor.kind.requireDefaultRegex name owner
  if name ∈ draft.parameters then throw (.duplicateParameter name owner)
  let opened := { draft with parameters := draft.parameters ++ [name] }.text
    (s!"(?P<{Definition.groupNameIn (Definition.fragmentName context.index) name}>")
  let filled := match inline? with
    | some regex => { opened with inlineRegexes := opened.inlineRegexes ++ [(name, regex)] }.text regex
    | none =>
      if descriptor.dynamic then { opened with pieces := opened.pieces.addSlot name }
      else opened.text (effectiveRegex descriptor inQuery default)
  return filled.text ")"

mutual

/-- Adds a segment of the path. Literal text goes in as it stands. -/
def segment (context : Context) (draft : Draft) : Segment → Except Error Draft
  | .literal text => .ok (draft.text text)
  | .placeholder name regex => placeholder context name regex false draft
  | .positional index => .error (.invalidPattern context.raw (.positional index))
  | .optional inner => do
    let inside ← segments context (draft.text "(?:") inner
    return inside.text ")?"

def segments (context : Context) (draft : Draft) : List Segment → Except Error Draft
  | [] => .ok draft
  | head :: rest => do
    let next ← segment context draft head
    segments context next rest

end

/-- The text before the first `=` and the text behind it. -/
def splitPair? (query : String) : Option (String × String) :=
  match query.toList.span (· != '=') with
  | (key, _ :: value) => some (.ofList key, .ofList value)
  | (_, []) => none

def isQueryKey (key : String) : Bool :=
  !key.isEmpty && key.toList.all fun c ↦ !(c == '&' || c == '?' || c == '[' || c == ']')

/-- Compiles `key=:name` into one alternative for a pair. The key stands for itself. -/
def queryBranch (context : Context) (draft : Draft) (query : String) : Except Error (Draft × Pieces) := do
  let malformed (fault : QueryFault) : Error := .invalidPattern query (.query context.raw fault)
  let some (key, value) := splitPair? query | throw (malformed .missingSeparator)
  unless isQueryKey key do throw (malformed .invalidKey)
  let [.placeholder name regex] ← Segment.parse value | throw (malformed .notPlaceholder)
  let branch := ({ draft with pieces := [] }.text (Regex.escape key)).text "="
  let branch ← placeholder context name regex true branch
  return ({ branch with pieces := draft.pieces }, branch.pieces)

def queryBranches (context : Context) (draft : Draft) : List String → Except Error (Draft × List Pieces)
  | [] => .ok (draft, [])
  | query :: rest => do
    let (next, branch) ← queryBranch context draft query
    let (last, branches) ← queryBranches context next rest
    return (last, branch :: branches)

/-- A path pattern begins with a slash, which may stand in a leading optional group. -/
def rooted (pattern : String) : String :=
  match pattern.toList with
  | '/' :: _ | '[' :: '/' :: _ => pattern
  | _ => "/" ++ pattern

/-- Compiles the pattern declared as number `index`. -/
def compile (declaration : Declaration) (pattern : PatternDeclaration) (index : Nat) :
    Except Error (Definition × Pieces) := do
  let context : Context := ⟨declaration, pattern.pattern, index⟩
  let path ← Segment.parse (rooted pattern.pattern)
  let draft : Draft := {}
  let draft ← segments context (draft.text s!"(?P<{Definition.fragmentName index}>") path
  let pathParameters := draft.parameters
  let (draft, branches) ← queryBranches context draft pattern.query
  let pairs := branches.foldl (fun pieces branch ↦ (pieces.extend branch).addText "|") (draft.pieces.addText "\\?(?:(?:")
  let definition : Definition :=
    { raw := pattern.pattern, index, parameters := draft.parameters,
      queryParameters := draft.parameters.drop pathParameters.length, inlineRegexes := draft.inlineRegexes }
  return (definition, pairs.addText "[^&]*)&)*)")

end Fragment

end PathBinding
