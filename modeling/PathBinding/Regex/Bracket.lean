import PathBinding.Regex.Lexical

/-!
Bracketed character classes, with ranges, nested classes, named ASCII classes and the set operations `&&`, `--` and
`~~`, which all bind alike and to the left.
-/

set_option autoImplicit false
set_option relaxedAutoImplicit false

namespace PathBinding.Regex.Bracket

/-- A set with the depth of the brackets, unions and operations it is written with. -/
structure Item where
  chars : CharSet
  height : Nat

inductive Operation
  | intersection
  | difference
  | symmetricDifference

/-- A class whose closing bracket has not been read: the items of the union being read, in reverse, and what stands to
the left of the last operation. -/
structure Open where
  negated : Bool
  items : List Item
  left : Option (Item × Operation)

def Open.push (o : Open) (item : Item) : Open :=
  { o with items := item :: o.items }

def unionOf (items : List Item) : Item :=
  match items.reverse with
  | [] => ⟨.empty, 0⟩
  | [item] => item
  | first :: rest =>
    rest.foldl (fun u item ↦ ⟨.union u.chars item.chars, max u.height (item.height + 1)⟩)
      ⟨first.chars, first.height + 1⟩

def combine (flags : Flags) (left : Item) (operation : Operation) (right : Item) : Item :=
  let a := foldIf flags left.chars
  let b := foldIf flags right.chars
  let chars := match operation with
    | .intersection => .inter a b
    | .difference => CharSet.diff a b
    | .symmetricDifference => CharSet.symmDiff a b
  ⟨chars, max left.height right.height + 1⟩

/-- The set in front of an operation or a closing bracket. -/
def Open.current (flags : Flags) (o : Open) : Item :=
  match o.left with
  | none => unionOf o.items
  | some (left, operation) => combine flags left operation (unionOf o.items)

def Open.operate (flags : Flags) (o : Open) (operation : Operation) : Open :=
  { o with items := [], left := some (o.current flags, operation) }

def Open.close (flags : Flags) (o : Open) : Option Item :=
  let item := o.current flags
  (negateIf flags o.negated (foldIf flags item.chars)).map fun chars ↦ ⟨chars, item.height + 1⟩

def asciiClass? : String → Option CharSet
  | "alnum" => some (.ofRanges [('0', '9'), ('A', 'Z'), ('a', 'z')])
  | "alpha" => some (.ofRanges [('A', 'Z'), ('a', 'z')])
  | "ascii" => some (.range '\x00' '\x7f')
  | "blank" => some (.ofRanges [('\t', '\t'), (' ', ' ')])
  | "cntrl" => some (.ofRanges [('\x00', '\x1f'), ('\x7f', '\x7f')])
  | "digit" => some asciiDigits
  | "graph" => some (.range '!' '~')
  | "lower" => some (.range 'a' 'z')
  | "print" => some (.range ' ' '~')
  | "punct" => some (.ofRanges [('!', '/'), (':', '@'), ('[', '\x60'), ('\x7b', '~')])
  | "space" => some asciiSpaces
  | "upper" => some (.range 'A' 'Z')
  | "word" => some asciiWords
  | "xdigit" => some (.ofRanges [('0', '9'), ('A', 'F'), ('a', 'f')])
  | _ => none

/-- The named class whose name begins here. -/
def namedClass (negated : Bool) (text : List Char) : Option (CharSet × Bool × List Char) :=
  match text.span (· != ':') with
  | (name, ':' :: ']' :: rest) => (asciiClass? (.ofList name)).map (·, negated, rest)
  | _ => none

/-- A named ASCII class such as `:alpha:]`, behind its opening bracket. -/
def readAsciiClass (text : List Char) : Option (CharSet × Bool × List Char) :=
  match text with
  | ':' :: '^' :: rest => namedClass true rest
  | ':' :: rest => namedClass false rest
  | _ => none

def dashes (verbose : Bool) : Nat → List Char → List Item × List Char
  | bound + 1, '-' :: rest =>
    let (items, rest) := dashes verbose bound (skipBlanks verbose rest)
    (⟨.single '-', 0⟩ :: items, rest)
  | _, text => ([], text)

/-- The beginning of a class behind its bracket: a caret negates it, hyphens stand for themselves, and so does a closing
bracket in the first place. Something must follow. -/
def readOpen (flags : Flags) (text : List Char) : Option (Open × List Char) :=
  let text := skipBlanks flags.verbose text
  let (negated, text) := match text with
    | '^' :: rest => (true, skipBlanks flags.verbose rest)
    | _ => (false, text)
  let (items, text) := dashes flags.verbose text.length text
  let (items, text) : List Item × List Char := match items, text with
    | [], ']' :: rest => ([⟨.single ']', 0⟩], skipBlanks flags.verbose rest)
    | items, text => (items, text)
  if text.isEmpty then none else some (⟨negated, items.reverse, none⟩, text)

def readPrimitive (flags : Flags) : List Char → Option (Primitive × List Char)
  | [] => none
  | '\\' :: rest => readEscape flags rest
  | c :: rest => some (.literal c false, rest)

/-- A literal in a set of bytes must be ASCII. -/
def literalChar? (flags : Flags) : Primitive → Option Char
  | .literal c _ => if flags.unicode ∨ c.toNat < 128 then some c else none
  | _ => none

def primitiveSet? (flags : Flags) : Primitive → Option CharSet
  | .set chars => some chars
  | p => (literalChar? flags p).map .single

/-- The character behind the next one. In verbose expressions blanks before it do not count, and one comment sign is
passed over together with the blanks behind it. -/
def peek (verbose : Bool) : List Char → Option Char
  | [] => none
  | _ :: rest =>
    if !verbose then rest.head?
    else
      let beyond := match rest.dropWhile isBlank with
        | '#' :: comment => comment.dropWhile isBlank
        | beyond => beyond
      if beyond.isEmpty then rest.head? else beyond.head?

/-- One item of a union: a single primitive or a range of literals. A hyphen before a closing bracket or another hyphen
makes no range. -/
def readItem (flags : Flags) (text : List Char) : Option (Item × List Char) := do
  let (first, rest) ← readPrimitive flags text
  let rest := skipBlanks flags.verbose rest
  guard (!rest.isEmpty)
  let after := peek flags.verbose rest
  if rest.head? ≠ some '-' ∨ after = some ']' ∨ after = some '-' then
    let chars ← primitiveSet? flags first
    return (⟨chars, 0⟩, rest)
  else
    let (last, rest) ← readPrimitive flags (skipBlanks flags.verbose (rest.drop 1))
    let low ← literalChar? flags first
    let high ← literalChar? flags last
    guard (low ≤ high)
    return (⟨.range low high, 0⟩, rest)

/-- Reads on to the bracket that closes the outermost open class. The first argument bounds the number of steps. -/
def readRest (flags : Flags) : Nat → List Open → Open → List Char → Option (Item × List Char)
  | 0, _, _, _ => none
  | bound + 1, outer, o, text =>
    match skipBlanks flags.verbose text with
    | [] => none
    | '[' :: rest =>
      match readAsciiClass rest with
      | some (chars, negated, rest) => do
        let chars ← negateIf flags negated (foldIf flags chars)
        readRest flags bound outer (o.push ⟨chars, 0⟩) rest
      | none => do
        let (inner, rest) ← readOpen flags rest
        readRest flags bound (o :: outer) inner rest
    | ']' :: rest => do
      let item ← o.close flags
      match outer with
      | [] => return (item, rest)
      | parent :: outer => readRest flags bound outer (parent.push item) rest
    | '&' :: '&' :: rest => readRest flags bound outer (o.operate flags .intersection) rest
    | '-' :: '-' :: rest => readRest flags bound outer (o.operate flags .difference) rest
    | '~' :: '~' :: rest => readRest flags bound outer (o.operate flags .symmetricDifference) rest
    | text => do
      let (item, rest) ← readItem flags text
      readRest flags bound outer (o.push item) rest

/-- The class behind an opening bracket. -/
def read (flags : Flags) (text : List Char) : Option (Item × List Char) := do
  let (o, rest) ← readOpen flags text
  readRest flags rest.length [] o rest

end PathBinding.Regex.Bracket
