import PathBinding.Toml

/-!
Tables from statements. A table is opened at most once by a header; dotted keys may extend only tables that dotted keys
made, while headers may open tables within any table.
-/

set_option autoImplicit false
set_option relaxedAutoImplicit false

namespace PathBinding.Toml

/-- How a table came to be: by a header or on its own, on the way to another header, or on the way of a dotted key. -/
inductive Origin
  | opened
  | implied
  | dotted
  deriving DecidableEq, Repr

inductive Node
  | leaf (value : Toml)
  | table (origin : Origin) (members : List (String × Node))
  | tables (items : List (List (String × Node)))

/-- A key with its value; the last part of a dotted key names the value and those before it tables. -/
structure Entry where
  path : List String
  key : String
  value : Toml

/-- What a header opens. -/
inductive Header
  | table (path : List String) (key : String)
  | tables (path : List String) (key : String)

inductive Statement
  | header (header : Header)
  | entry (entry : Entry)

namespace Node

def replace (members : List (String × Node)) (key : String) (node : Node) : List (String × Node) :=
  if members.any (·.1 == key) then members.map fun m ↦ if m.1 == key then (key, node) else m
  else members ++ [(key, node)]

/-- Changes the table at the end of a path, making the tables on the way. Only headers pass through opened tables; of
tables in a row the last is meant. -/
def changeAt (byHeader : Bool) (change : Origin → List (String × Node) → Option (List (String × Node))) :
    List String → Origin → List (String × Node) → Option (List (String × Node))
  | [], origin, members => change origin members
  | key :: path, _, members =>
    match members.lookup key with
    | none =>
      let origin := if byHeader then .implied else .dotted
      (changeAt byHeader change path origin []).map fun inner ↦ members ++ [(key, .table origin inner)]
    | some (.leaf _) => none
    | some (.tables items) =>
      (changeAt byHeader change path .opened (items.getLastD [])).map fun inner ↦
        replace members key (.tables (items.dropLast ++ [inner]))
    | some (.table origin inner) =>
      if !byHeader && origin == .opened then none
      else (changeAt byHeader change path origin inner).map fun inner ↦ replace members key (.table origin inner)

/-- Adds an entry to a table, where it must be new. -/
def addEntry (members : List (String × Node)) (entry : Entry) : Option (List (String × Node)) :=
  changeAt false (fun origin inner ↦
    if (origin == .dotted) == entry.path.isEmpty || (inner.lookup entry.key).isSome then none
    else some (inner ++ [(entry.key, .leaf entry.value)])) entry.path .opened members

def addEntries (members : List (String × Node)) (entries : List Entry) : Option (List (String × Node)) :=
  entries.foldlM addEntry members

/-- Opens a table with entries. It comes last among its siblings, even if another header has implied it before. -/
def addSection (root : List (String × Node)) (header : Header) (entries : List Entry) :
    Option (List (String × Node)) :=
  match header with
  | .table path key =>
    changeAt true (fun _ members ↦ do
      let present ← match members.lookup key with
        | none => some []
        | some (.table .implied inner) => some inner
        | some _ => none
      let inner ← addEntries present entries
      return members.filter (·.1 != key) ++ [(key, .table .opened inner)]) path .opened root
  | .tables path key =>
    changeAt true (fun _ members ↦ do
      let items ← match members.lookup key with
        | none => some []
        | some (.tables items) => some items
        | some _ => none
      let inner ← addEntries [] entries
      return replace members key (.tables (items ++ [inner]))) path .opened root

mutual

def toToml : Node → Toml
  | .leaf value => value
  | .table _ members => .table (membersToToml members)
  | .tables items => .array (tablesToToml items)

def membersToToml : List (String × Node) → List (String × Toml)
  | [] => []
  | (name, node) :: rest => (name, toToml node) :: membersToToml rest

def tablesToToml : List (List (String × Node)) → List Toml
  | [] => []
  | members :: rest => .table (membersToToml members) :: tablesToToml rest

end

end Node

/-- The table that entries alone make up. -/
def ofEntries? (entries : List Entry) : Option Toml :=
  (Node.addEntries [] entries).map fun members ↦ .table (Node.membersToToml members)

/-- Splits statements into the entries before the first header and the headers with their entries. -/
def sections : List Statement → List Entry × List (Header × List Entry)
  | [] => ([], [])
  | .entry entry :: rest =>
    let (entries, opened) := sections rest
    (entry :: entries, opened)
  | .header header :: rest =>
    let (entries, opened) := sections rest
    ([], (header, entries) :: opened)

/-- The document that statements make up. -/
def ofStatements? (statements : List Statement) : Option Toml := do
  let (entries, opened) := sections statements
  let root ← Node.addEntries [] entries
  let root ← opened.foldlM (fun root (header, entries) ↦ Node.addSection root header entries) root
  return .table (Node.membersToToml root)

end PathBinding.Toml
