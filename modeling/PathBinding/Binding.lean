import PathBinding.Event
import PathBinding.Selection
import PathBinding.View

/-!
Binding a path to a view. The expression of the mapping is completed by the producers of dynamic parameters, a pattern is
selected, its captured text is converted as a whole and only then written to the view, parameter by parameter.
-/

set_option autoImplicit false
set_option relaxedAutoImplicit false

namespace PathBinding

/-- Yields the expression of a dynamic parameter for a view, or leaves it to the declaration. A producer is taken as a
function of what the view shows, so it yields the same whenever it is asked for the same view. -/
abbrev Producer := View → Option String

namespace Producer

/-- Always the same expression. -/
def constant (regex : String) : Producer :=
  fun _ ↦ some regex

/-- The text of the current value of a parameter. -/
def current (name : String) : Producer :=
  fun view ↦ (view.get name).map Value.render

/-- Never an expression. -/
def silent : Producer :=
  fun _ ↦ none

end Producer

/-- Producers by the names of their parameters. -/
abbrev Producers := List (String × Producer)

/-- The observable result of a match. -/
inductive Outcome
  | matched (pattern : String)
  | notMatched (reroute : Option Reroute)
  deriving DecidableEq, Repr

namespace Outcome

def isMatched : Outcome → Bool
  | .matched _ => true
  | .notMatched _ => false

def pattern? : Outcome → Option String
  | .matched pattern => some pattern
  | .notMatched _ => none

def reroute? : Outcome → Option Reroute
  | .matched _ => none
  | .notMatched reroute => reroute

end Outcome

/-- A view, or what else holds values, after an operation, the events on the way, and the result. -/
structure Progress (α : Type) (σ : Type := View) where
  view : σ
  events : List Event
  result : Except Error α

/-- The expression of a dynamic parameter whose producer yields none. -/
def Descriptor.fallbackRegex (descriptor : Descriptor) (owner : String) : Except Error String :=
  match descriptor.regex with
  | some regex => .ok regex
  | none => descriptor.kind.requireDefaultRegex descriptor.name owner

/-- The expression of a mapping for one match: the one that has been compiled, or text put together for a view. -/
inductive Assembly
  | ready (regex : Regex)
  | text (text : String)

/-- The text that has been put together, if any. -/
def Assembly.text? : Assembly → Option String
  | .ready _ => none
  | .text source => some source

instance : Coe Assembly (Option String) := ⟨Assembly.text?⟩

namespace Mapping

/-- The expression of a slot for a view. -/
def resolve (mapping : Mapping) (producers : Producers) (view : View) (name : String) : Except Error String :=
  match mapping.find? name, producers.lookup name with
  | some descriptor, some producer =>
    match producer view with
    | some regex => .ok regex
    | none => descriptor.fallbackRegex mapping.owner
  | _, _ => .error (.noDynamicRegex name mapping.owner)

/-- The expression of a mapping as it is completed for a view. -/
def assemble? (mapping : Mapping) (producers : Producers) (view : View) : Except Error Assembly :=
  match mapping.source with
  | .static _ regex => .ok (.ready regex)
  | .dynamic pieces => (pieces.assemble (mapping.resolve producers view)).map .text

/-- The expression to match with. Text that has been put together is compiled first. -/
def regexOf (mapping : Mapping) : Assembly → Except Error Regex
  | .ready regex => .ok regex
  | .text text => compileRegex mapping.owner mapping.regexSizeLimit text

/-- Converts captured text up to the first that cannot be converted, which is returned with its error. -/
def convert (mapping : Mapping) : List (String × String) → Except (String × String × Error) (List (String × Value))
  | [] => .ok []
  | (name, raw) :: rest =>
    match mapping.find? name with
    | none => mapping.convert rest
    | some descriptor =>
      match descriptor.kind.parse name raw with
      | .error e => .error (name, raw, e)
      | .ok value => (mapping.convert rest).map ((name, value) :: ·)

/-- Removes the item at a place, where the last item moves to. -/
def swapRemove {α : Type} (items : List α) (i : Nat) : List α :=
  match items.getLast? with
  | some last => (items.set i last).dropLast
  | none => []

/-- What is written to parameters in turn: each takes its value out of the others, or is cleared if there is none. -/
def writes : List Descriptor → List (String × Value) → List (String × Option Value)
  | [], _ => []
  | descriptor :: rest, values =>
    match values.findIdx? (·.1 == descriptor.name) with
    | some i => (descriptor.name, values[i]?.map (·.2)) :: writes rest (swapRemove values i)
    | none => (descriptor.name, none) :: writes rest values

/-- Writes a selection through accessors. After a miss all parameters are cleared. -/
def applyWith {σ : Type} (access : Access σ) (mapping : Mapping) (selection : Selection) (target : σ) :
    Progress Outcome σ :=
  match selection.winner with
  | none =>
    match access.setEach target (mapping.parameters.map fun d ↦ (d.name, none)) with
    | (target, some e) => ⟨target, [], .error e⟩
    | (target, none) =>
      let reroute := mapping.noMatch.reroute?
      ⟨access.record target none, [.missed mapping.owner reroute], .ok (.notMatched reroute)⟩
  | some winner =>
    match mapping.convert selection.captured with
    | .error (name, raw, e) => ⟨target, [.unconverted mapping.owner name raw], .error e⟩
    | .ok values =>
      match access.setEach target (writes mapping.parameters values) with
      | (target, some e) => ⟨target, [], .error e⟩
      | (target, none) => ⟨access.record target (some winner.raw), [], .ok (.matched winner.raw)⟩

/-- Writes a selection to a view. -/
def apply (mapping : Mapping) (selection : Selection) (view : View) : Progress Outcome :=
  applyWith View.access mapping selection view

/-- The event of a selection. -/
def selectionEvents (mapping : Mapping) (path : String) (selection? : Option Selection) : List Event :=
  match selection? with
  | some selection => [.selected mapping.owner (normalizePath path) (selection.winner.map (·.raw))]
  | none => []

def assemblyEvents (mapping : Mapping) : Assembly → List Event
  | .ready _ => []
  | .text text => [.assembled mapping.owner text]

/-- Matches a path and writes what is captured through accessors. -/
def bindWith {σ : Type} (access : Access σ) (mapping : Mapping) (producers : Producers) (target : σ) (path : String) :
    Progress Outcome σ :=
  match mapping.assemble? producers (access.shown target) with
  | .error e => ⟨target, [], .error e⟩
  | .ok assembled =>
    match mapping.regexOf assembled with
    | .error e => ⟨target, mapping.assemblyEvents assembled, .error e⟩
    | .ok regex =>
      let selection? := mapping.select? regex path
      let applied := mapping.applyWith access (selection?.getD .none) target
      ⟨applied.view, mapping.assemblyEvents assembled ++ mapping.selectionEvents path selection? ++ applied.events,
        applied.result⟩

/-- Matches a path and updates the view. -/
def bind (mapping : Mapping) (producers : Producers) (view : View) (path : String) : Progress Outcome :=
  bindWith View.access mapping producers view path

end Mapping

end PathBinding
