import PathBinding.Declaration
import PathBinding.Derivation.TypeText.Reader

/-!
Options from the items of annotations. Each item at fault counts once: a bare literal, an unknown key, a key that is
repeated although it may stand once, and a value of the wrong form.
-/

set_option autoImplicit false
set_option relaxedAutoImplicit false

namespace PathBinding.Derivation

inductive Literal
  | string (text : String)
  | boolean (truth : Bool)
  | number
  | array (items : List Literal)
  deriving Repr, Inhabited

/-- Items of an annotation: a key alone, with a value or with items of its own, or a literal without a key. -/
inductive Item
  | bare (literal : Literal)
  | word (key : String)
  | value (key : String) (value : Literal)
  | list (key : String) (items : List Item)
  deriving Repr, Inhabited

namespace Item

def key? : Item → Option String
  | .bare _ => none
  | .word key | .value key _ | .list key _ => some key

def text? : Item → Option String
  | .value _ (.string text) => some text
  | _ => none

/-- A truth value, which a key alone affirms; the words for it may be quoted. -/
def truth? : Item → Option Bool
  | .word _ => some true
  | .value _ (.boolean truth) => some truth
  | .value _ (.string "true") => some true
  | .value _ (.string "false") => some false
  | _ => none

/-- The text of a path. -/
def path? (item : Item) : Option String := do
  let tokens ← Token.ofText? (← item.text?)
  let path ← TypeText.ofPathTokens? tokens
  return path.spell

private def literalText? : Literal → Option String
  | .string text => some text
  | _ => none

private def bareText? : Item → Option String
  | .bare literal => literalText? literal
  | _ => none

/-- Texts: one of them, an array of them, or a list of literals. -/
def texts? : Item → Option (List String)
  | .value _ (.string text) => some [text]
  | .value _ (.array items) => items.mapM literalText?
  | .list _ items => items.mapM bareText?
  | _ => none

end Item

/-- An option that may be missing or at fault, and the number of faults. -/
structure Reading (α : Type) where
  value? : Option α
  faults : Nat
  deriving Repr

/-- Reads the first item of a key; each further one is a fault. -/
def readOnce {α : Type} (read? : Item → Option α) (key : String) (items : List Item) : Reading α :=
  match items.filter (·.key? == some key) with
  | [] => ⟨none, 0⟩
  | first :: repeats => ⟨read? first, (if (read? first).isSome then 0 else 1) + repeats.length⟩

/-- The number of items without one of the known keys. -/
def strangers (known : List String) (items : List Item) : Nat :=
  (items.filter fun item ↦ !item.key?.any known.contains).length

/-- A pattern alone, or its path with its query parts. -/
def readPattern : Item → Reading PatternDeclaration
  | .value _ (.string pattern) => ⟨some ⟨pattern, []⟩, 0⟩
  | .list _ items =>
    let path := readOnce Item.text? "path" items
    let query := readOnce Item.texts? "query" items
    let missing := if items.any (·.key? == some "path") then 0 else 1
    let faults := path.faults + query.faults + strangers ["path", "query"] items + missing
    if faults = 0 then ⟨path.value?.map fun path ↦ ⟨path, query.value?.getD []⟩, 0⟩ else ⟨none, faults⟩
  | _ => ⟨none, 1⟩

/-- What the annotations of a structure say. -/
structure MappingOptions where
  owner? : Option String
  patterns : List PatternDeclaration
  rerouteError? : Option String
  rerouteView? : Option String
  ignores : Bool
  cratePath? : Option String
  deriving DecidableEq, Repr

def MappingOptions.read (items : List Item) : MappingOptions × Nat :=
  let owner := readOnce Item.text? "name" items
  let patterns := (items.filter (·.key? == some "pattern")).map readPattern
  let rerouteError := readOnce Item.text? "reroute_error" items
  let rerouteView := readOnce Item.text? "reroute_view" items
  let ignores := readOnce Item.truth? "ignore_if_not_matched" items
  let cratePath := readOnce Item.path? "crate" items
  let known := ["name", "pattern", "reroute_error", "reroute_view", "ignore_if_not_matched", "crate"]
  ({ owner? := owner.value?
     patterns := patterns.filterMap (·.value?)
     rerouteError? := rerouteError.value?
     rerouteView? := rerouteView.value?
     ignores := ignores.value?.getD false
     cratePath? := cratePath.value? },
    owner.faults + (patterns.map (·.faults)).foldl Nat.add 0 + rerouteError.faults + rerouteView.faults + ignores.faults +
      cratePath.faults + strangers known items)

/-- What the annotation of a parameter says. -/
structure ParameterOptions where
  name? : Option String
  regex? : Option String
  dynamic : Bool
  deriving DecidableEq, Repr

def ParameterOptions.read (items : List Item) : ParameterOptions × Nat :=
  let name := readOnce Item.text? "name" items
  let regex := readOnce Item.text? "regex" items
  let dynamic := readOnce Item.truth? "dynamic" items
  ({ name? := name.value?, regex? := regex.value?, dynamic := dynamic.value?.getD false },
    name.faults + regex.faults + dynamic.faults + strangers ["name", "regex", "dynamic"] items)

end PathBinding.Derivation
