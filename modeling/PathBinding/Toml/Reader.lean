import PathBinding.Toml.Number
import PathBinding.Toml.Table
import PathBinding.Toml.Text

/-!
Reading TOML documents: statements on lines of their own, which tables are then built from. Keys have fewer than eighty
parts, and values are nested fewer than eighty deep.
-/

set_option autoImplicit false
set_option relaxedAutoImplicit false

namespace PathBinding.Toml

/-- The most parts of a key, and the most levels of a value. -/
def nestingLimit : Nat := 79

private def skipSpace (text : List Char) : List Char :=
  text.dropWhile Text.isSpace

/-- The text behind blanks, a comment and the end of a line. -/
private def readLineEnd (text : List Char) : Option (List Char) :=
  let text := match skipSpace text with
    | '#' :: rest => rest.dropWhile Text.isPlain
    | text => text
  if text.isEmpty then some [] else Text.readNewline text

/-- The text behind blanks, comments and ends of lines. -/
private def skipTrivia : Bool → List Char → List Char
  | _, [] => []
  | _, '\r' :: '\n' :: rest => skipTrivia false rest
  | inComment, c :: rest =>
    if c = '\n' then skipTrivia false rest
    else if inComment then if Text.isPlain c then skipTrivia true rest else c :: rest
    else if Text.isSpace c then skipTrivia false rest
    else if c = '#' then skipTrivia true rest
    else c :: rest

private def isBare (c : Char) : Bool :=
  c.isAlphanum || c == '-' || c == '_'

private def readKeyPart (text : List Char) : Option (String × List Char) :=
  match text with
  | '"' :: _ | '\x27' :: _ => Text.readLine? text
  | _ =>
    match text.span isBare with
    | ([], _) => none
    | (name, rest) => some (.ofList name, rest)

/-- A dotted key, as its parts before the last and its last part. -/
private def readKey : Nat → List Char → Option ((List String × String) × List Char)
  | 0, _ => none
  | bound + 1, text => do
    let (part, rest) ← readKeyPart (skipSpace text)
    match skipSpace rest with
    | '.' :: rest => (readKey bound rest).map fun ((path, key), rest) ↦ ((part :: path, key), rest)
    | rest => some (([], part), rest)

private def readScalar (text : List Char) : Option (Toml × List Char) :=
  match text with
  | '"' :: _ | '\x27' :: _ => (Text.read? text).map fun (content, rest) ↦ (.string content, rest)
  | 't' :: 'r' :: 'u' :: 'e' :: rest => some (.boolean true, rest)
  | 'f' :: 'a' :: 'l' :: 's' :: 'e' :: rest => some (.boolean false, rest)
  | _ =>
    match Moment.read? text with
    | some (point, rest) => some (.moment point, rest)
    | none => Number.read? text

mutual

/-- Reads a value with so many levels at most. The second number bounds the nested calls. -/
private def readValue : Nat → Nat → List Char → Option (Toml × List Char)
  | _, 0, _ => none
  | levels + 1, bound + 1, '[' :: rest =>
    (readItems levels bound rest).map fun (items, rest) ↦ (.array items, rest)
  | levels + 1, bound + 1, '\x7b' :: rest =>
    match skipSpace rest with
    | '\x7d' :: rest => some (.table [], rest)
    | rest => do
      let (entries, rest) ← readEntries levels bound rest
      return (← ofEntries? entries, rest)
  | _, _ + 1, text => readScalar text
termination_by structural _ bound => bound

/-- Reads the items of an array up to its closing bracket, before which a comma may stand. -/
private def readItems : Nat → Nat → List Char → Option (List Toml × List Char)
  | _, 0, _ => none
  | levels, bound + 1, text =>
    match skipTrivia false text with
    | ']' :: rest => some ([], rest)
    | text => do
      let (item, rest) ← readValue levels bound text
      match skipTrivia false rest with
      | ',' :: rest => (readItems levels bound rest).map fun (items, rest) ↦ (item :: items, rest)
      | ']' :: rest => some ([item], rest)
      | _ => none
termination_by structural _ bound => bound

/-- Reads the entries of a table up to its closing brace. -/
private def readEntries : Nat → Nat → List Char → Option (List Entry × List Char)
  | _, 0, _ => none
  | levels, bound + 1, text => do
    let (entry, rest) ← readEntry levels bound text
    match skipSpace rest with
    | ',' :: rest => (readEntries levels bound rest).map fun (entries, rest) ↦ (entry :: entries, rest)
    | '\x7d' :: rest => some ([entry], rest)
    | _ => none
termination_by structural _ bound => bound

private def readEntry : Nat → Nat → List Char → Option (Entry × List Char)
  | _, 0, _ => none
  | levels, bound + 1, text => do
    let ((path, key), rest) ← readKey nestingLimit text
    match rest with
    | '=' :: rest => (readValue levels bound (skipSpace rest)).map fun (value, rest) ↦ (⟨path, key, value⟩, rest)
    | _ => none
termination_by structural _ bound => bound

end

/-- Reads the statement that a line begins with. -/
private def readStatement (bound : Nat) : List Char → Option (Statement × List Char)
  | '[' :: '[' :: rest => do
    let ((path, key), rest) ← readKey nestingLimit rest
    match rest with
    | ']' :: ']' :: rest => some (.header (.tables path key), rest)
    | _ => none
  | '[' :: rest => do
    let ((path, key), rest) ← readKey nestingLimit rest
    match rest with
    | ']' :: rest => some (.header (.table path key), rest)
    | _ => none
  | text => (readEntry nestingLimit bound text).map fun (entry, rest) ↦ (.entry entry, rest)

/-- Reads lines, of which those with no more than a comment state nothing. The first number bounds how many there are,
the second the calls for each. -/
private def readStatements : Nat → Nat → List Char → Option (List Statement)
  | 0, _, _ => none
  | lines + 1, bound, text =>
    match skipSpace text with
    | [] => some []
    | text =>
      match readLineEnd text with
      | some rest => readStatements lines bound rest
      | none => do
        let (statement, rest) ← readStatement bound text
        let rest ← readLineEnd rest
        return statement :: (← readStatements lines bound rest)

/-- The document that a text holds, in front of which a byte order mark may stand. -/
def read? (text : String) : Option Toml :=
  let text := match text.toList with
    | '\uFEFF' :: rest => rest
    | text => text
  ((readStatements (text.length + 1) (3 * text.length + 3) text).bind ofStatements?).bind resolve?

end PathBinding.Toml
