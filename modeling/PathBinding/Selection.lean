import PathBinding.Mapping
import PathBinding.Regex.Matching

/-!
Which pattern a path selects. A path is brought to one leading slash, a question mark and a final ampersand; the groups
that took part in the match of the joined expression tell the winner and the text of its parameters.
-/

set_option autoImplicit false
set_option relaxedAutoImplicit false

namespace PathBinding

/-- The form of a path that patterns are matched against. -/
def normalizePath (path : String) : String :=
  let rooted := '/' :: path.toList.dropWhile (· == '/')
  let queried := if rooted.contains '?' then rooted else rooted ++ ['?']
  .ofList (if queried.getLast? = some '&' then queried else queried ++ ['&'])

/-- The winning pattern, if any, with the text captured for its parameters. -/
structure Selection where
  winner : Option Definition
  captured : List (String × String)
  deriving DecidableEq, Repr

namespace Selection

def none : Selection := ⟨.none, []⟩

def isMatch (selection : Selection) : Bool :=
  selection.winner.isSome

def captured? (selection : Selection) (name : String) : Option String :=
  selection.captured.lookup name

/-- The parameters of a mapping that receive no text. -/
def cleared (selection : Selection) (mapping : Mapping) : List String :=
  (mapping.parameters.map (·.name)).filter fun name ↦ (selection.captured? name).isNone

end Selection

namespace Mapping

/-- The parameters of a pattern that a match captured, in the pattern's order. -/
def capturedBy (t : Regex.Thread) (definition : Definition) : List (String × String) :=
  definition.parameters.filterMap fun name ↦
    (t.captured? (definition.groupName name)).map fun text ↦ (name, .ofList text)

/-- The first of the patterns with the most captured parameters. -/
def mostCaptured : List (Definition × List (String × String)) → Option (Definition × List (String × String))
  | [] => none
  | first :: rest => some (rest.foldl (fun best next ↦ if best.2.length < next.2.length then next else best) first)

/-- The choice among the patterns that took part in a match. -/
def choose (mapping : Mapping) (t : Regex.Thread) : Selection :=
  let candidates := (mapping.patterns.filter fun p ↦ (t.captured? p.fragment).isSome).map fun p ↦ (p, capturedBy t p)
  let best := match mapping.selection with
    | .declarationOrder => candidates.head?
    | .mostCaptured => mostCaptured candidates
  match best with
  | some (definition, captured) => ⟨some definition, captured⟩
  | none => .none

/-- The selection that a match of the expression makes, or nothing if the expression does not match. -/
def select? (mapping : Mapping) (regex : Regex) (path : String) : Option Selection :=
  (regex.search (normalizePath path).toList).map mapping.choose

def select (mapping : Mapping) (regex : Regex) (path : String) : Selection :=
  (mapping.select? regex path).getD .none

end Mapping

end PathBinding
