import PathBinding.Regex.Flags

/-!
The parts of regular expression text below a token: blanks and comments, which only verbose expressions skip, counts and
escape sequences.
-/

set_option autoImplicit false
set_option relaxedAutoImplicit false

namespace PathBinding.Regex

def isBlank (c : Char) : Bool :=
  Character.whiteSpace.contains c.toNat

def dropBlanks : Bool → List Char → List Char
  | _, [] => []
  | true, c :: rest => if c = '\n' then dropBlanks false rest else dropBlanks true rest
  | false, c :: rest =>
    if isBlank c then dropBlanks false rest else if c = '#' then dropBlanks true rest else c :: rest

/-- In verbose expressions, the text behind blanks and comments. -/
def skipBlanks (verbose : Bool) (text : List Char) : List Char :=
  if verbose then dropBlanks false text else text

/-- Takes characters of one sort, skipping blanks behind each. The first argument bounds their number. -/
def spanWith (verbose : Bool) (p : Char → Bool) : Nat → List Char → List Char × List Char
  | bound + 1, c :: rest =>
    if p c then
      let (taken, rest) := spanWith verbose p bound (skipBlanks verbose rest)
      (c :: taken, rest)
    else ([], c :: rest)
  | _, text => ([], text)

def spanSkipping (verbose : Bool) (p : Char → Bool) (text : List Char) : List Char × List Char :=
  spanWith verbose p text.length text

/-- A decimal count of at most 32 bits, which blanks may surround in any expression. -/
def readCount (verbose : Bool) (text : List Char) : Option (Nat × List Char) :=
  let (digits, rest) := spanSkipping verbose Char.isDigit (text.dropWhile isBlank)
  let count := digits.foldl (fun n c ↦ n * 10 + (c.toNat - '0'.toNat)) 0
  if digits.isEmpty ∨ count ≥ Nat.pow 2 32 then none else some (count, rest.dropWhile isBlank)

def isHexDigit (c : Char) : Bool :=
  c.isDigit || ('a' ≤ c && c ≤ 'f') || ('A' ≤ c && c ≤ 'F')

def hexNumber (digits : List Char) : Nat :=
  digits.foldl (fun n c ↦ n * 16 + (if c.isDigit then c.toNat - '0'.toNat else c.toLower.toNat - 'a'.toNat + 10)) 0

/-- The character with a code, if there is one. -/
def charOfCode? (code : Nat) : Option Char :=
  if code < 0xD800 ∨ (0xDFFF < code ∧ code < 0x110000) then some (Char.ofNat code) else none

def takeHex (verbose : Bool) : Nat → List Char → Option (List Char × List Char)
  | 0, text => some ([], text)
  | _ + 1, [] => none
  | count + 1, c :: rest =>
    if isHexDigit c then (takeHex verbose count (skipBlanks verbose rest)).map fun (ds, rest) ↦ (c :: ds, rest) else none

/-- A character by its code: a fixed number of digits, or any number of them in braces. -/
def readCode (verbose : Bool) (width : Nat) (text : List Char) : Option (Char × List Char) :=
  match skipBlanks verbose text with
  | [] => none
  | '\x7b' :: rest =>
    match spanSkipping verbose isHexDigit (skipBlanks verbose rest) with
    | (digits, '\x7d' :: rest) =>
      if digits.isEmpty then none
      else (charOfCode? (hexNumber digits)).map fun c ↦ (c, skipBlanks verbose rest)
    | _ => none
  | text => do
    let (digits, rest) ← takeHex verbose width text
    let c ← charOfCode? (hexNumber digits)
    return (c, rest)

/-- What an escape or a plain character stands for. A literal given by two hexadecimal digits counts as a byte. -/
inductive Primitive
  | literal (c : Char) (byte : Bool)
  | set (chars : CharSet)
  | look (condition : Look)

/-- The complement, which is refused where sets are sets of bytes. -/
def negateIf (flags : Flags) (negated : Bool) (chars : CharSet) : Option CharSet :=
  if !negated then some chars else if flags.unicode then some (.compl chars) else none

def foldIf (flags : Flags) (chars : CharSet) : CharSet :=
  if !flags.ignoreCase then chars else if flags.unicode then .fold chars else .foldAscii chars

/-- A set of characters or, without Unicode, of bytes. -/
def markIf (flags : Flags) (chars : CharSet) : CharSet :=
  if flags.unicode then chars else .bytes chars

def asciiDigits : CharSet := .range '0' '9'

def asciiSpaces : CharSet := .union (.range '\t' '\r') (.single ' ')

def asciiWords : CharSet :=
  .ofRanges [('0', '9'), ('A', 'Z'), ('a', 'z'), ('_', '_')]

def shorthand? (flags : Flags) : Char → Option (CharSet × Bool)
  | 'd' => some (if flags.unicode then .table Character.decimalNumber else asciiDigits, false)
  | 'D' => some (if flags.unicode then .table Character.decimalNumber else asciiDigits, true)
  | 's' => some (if flags.unicode then .table Character.whiteSpace else asciiSpaces, false)
  | 'S' => some (if flags.unicode then .table Character.whiteSpace else asciiSpaces, true)
  | 'w' => some (if flags.unicode then .table Character.wordCharacter else asciiWords, false)
  | 'W' => some (if flags.unicode then .table Character.wordCharacter else asciiWords, true)
  | _ => none

def splitAt? (mark : List Char) : List Char → Option (List Char × List Char)
  | [] => none
  | c :: rest =>
    if mark.isPrefixOf (c :: rest) then some ([], (c :: rest).drop mark.length)
    else (splitAt? mark rest).map fun (a, b) ↦ (c :: a, b)

/-- The class between the braces of a property escape, and whether an inequality negates it. -/
def propertyClass? (body : List Char) : Option (Character.RangeTable × Bool) :=
  let pair (parts : List Char × List Char) := Character.classOfValue? (.ofList parts.1) (.ofList parts.2)
  match splitAt? ['!', '='] body with
  | some parts => (pair parts).map (·, true)
  | none =>
    match (splitAt? [':'] body).orElse fun _ ↦ splitAt? ['='] body with
    | some parts => (pair parts).map (·, false)
    | none => (Character.classOfName? (.ofList body)).map (·, false)

/-- What names a property: one character, or the text between braces. -/
def propertyBody (verbose : Bool) (text : List Char) : Option (List Char × List Char) :=
  match skipBlanks verbose text with
  | [] => none
  | '\x7b' :: rest =>
    match spanSkipping verbose (· != '\x7d') (skipBlanks verbose rest) with
    | (body, '\x7d' :: rest) => some (body, rest)
    | _ => none
  | c :: rest => if c = '\\' then none else some ([c], skipBlanks verbose rest)

def readProperty (flags : Flags) (negated : Bool) (text : List Char) : Option (Primitive × List Char) := do
  let (body, rest) ← propertyBody flags.verbose text
  let (cls, inequality) ← propertyClass? body
  guard flags.unicode
  let chars ← negateIf flags (negated != inequality) (foldIf flags (.table cls))
  return (.set chars, rest)

def wordEdge? : String → Option WordEdge
  | "start" => some .start
  | "end" => some .stop
  | "start-half" => some .startHalf
  | "end-half" => some .stopHalf
  | _ => none

/-- A word boundary, which a name in braces may narrow. Other braces behind it belong to a repetition. -/
def readWordEdge (flags : Flags) (text : List Char) : Option (Primitive × List Char) :=
  let isNameChar (c : Char) : Bool := c.isAlpha || c == '-'
  let plain : Primitive × List Char := (.look (.word .boundary flags.unicode), text)
  match text with
  | '\x7b' :: rest =>
    match skipBlanks flags.verbose rest with
    | [] => none
    | c :: rest =>
      if !isNameChar c then some plain
      else
        match spanSkipping flags.verbose isNameChar (c :: rest) with
        | (name, '\x7d' :: rest) =>
          (wordEdge? (.ofList name)).map fun edge ↦ (.look (.word edge flags.unicode), rest)
        | _ => none
  | _ => some plain

/-- Characters without a meaning of their own that a backslash may precede: the ASCII characters that are neither
letters nor digits, except the angle brackets. -/
def isEscapable (c : Char) : Bool :=
  c.toNat < 128 && !c.isAlphanum && c != '<' && c != '>'

def literalEscape? : Char → Option Char
  | 'a' => some '\x07'
  | 'f' => some '\x0c'
  | 't' => some '\t'
  | 'n' => some '\n'
  | 'r' => some '\r'
  | 'v' => some '\x0b'
  | c => if isEscapable c then some c else none

/-- What the text behind a backslash stands for. -/
def readEscape (flags : Flags) : List Char → Option (Primitive × List Char)
  | [] => none
  | 'x' :: rest => (readCode flags.verbose 2 rest).map fun (c, tail) ↦
      (.literal c ((skipBlanks flags.verbose rest).head? != some '\x7b'), tail)
  | 'u' :: rest => (readCode flags.verbose 4 rest).map fun (c, rest) ↦ (.literal c false, rest)
  | 'U' :: rest => (readCode flags.verbose 8 rest).map fun (c, rest) ↦ (.literal c false, rest)
  | 'p' :: rest => readProperty flags false rest
  | 'P' :: rest => readProperty flags true rest
  | 'A' :: rest => some (.look .textStart, rest)
  | 'z' :: rest => some (.look .textEnd, rest)
  | 'b' :: rest => readWordEdge flags rest
  | 'B' :: rest => some (.look (.word .inside flags.unicode), rest)
  | '<' :: rest => some (.look (.word .start flags.unicode), rest)
  | '>' :: rest => some (.look (.word .stop flags.unicode), rest)
  | c :: rest =>
    match shorthand? flags c with
    | some (chars, negated) => (negateIf flags negated chars).map fun chars ↦ (.set chars, rest)
    | none => (literalEscape? c).map fun c ↦ (.literal c false, rest)

end PathBinding.Regex
