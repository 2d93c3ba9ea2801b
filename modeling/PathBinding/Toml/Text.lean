/-!
Strings of TOML text. Basic strings have escapes and literal strings have none; both come on one line or, in triple
quotes, on several. Line ends read as a single newline, and the one behind an opening triple quote does not count.
-/

set_option autoImplicit false
set_option relaxedAutoImplicit false

namespace PathBinding.Toml.Text

def isSpace (c : Char) : Bool :=
  c == ' ' || c == '\t'

/-- Characters other than controls, of which only the tab may stand in a line. -/
def isPlain (c : Char) : Bool :=
  c == '\t' || (' ' ≤ c && c != '\x7f')

/-- The text behind a line end. -/
def readNewline : List Char → Option (List Char)
  | '\n' :: rest => some rest
  | '\r' :: '\n' :: rest => some rest
  | _ => none

private def hexDigit? (c : Char) : Option Nat :=
  if c.isDigit then some (c.toNat - '0'.toNat)
  else if 'a' ≤ c ∧ c ≤ 'f' then some (c.toNat - 'a'.toNat + 10)
  else if 'A' ≤ c ∧ c ≤ 'F' then some (c.toNat - 'A'.toNat + 10)
  else none

/-- The character whose code has so many digits; no character has the code of a surrogate. -/
private def readCodePoint (width : Nat) (text : List Char) : Option (Char × List Char) := do
  let digits ← (text.take width).mapM hexDigit?
  let code := digits.foldl (fun n d ↦ n * 16 + d) 0
  if digits.length = width ∧ (code < 0xD800 ∨ (0xDFFF < code ∧ code < 0x110000)) then
    return (Char.ofNat code, text.drop width)
  else none

/-- The character that an escape stands for, behind its backslash. -/
private def readEscape : List Char → Option (Char × List Char)
  | 'b' :: rest => some ('\x08', rest)
  | 't' :: rest => some ('\t', rest)
  | 'n' :: rest => some ('\n', rest)
  | 'f' :: rest => some ('\x0c', rest)
  | 'r' :: rest => some ('\r', rest)
  | '"' :: rest => some ('"', rest)
  | '\\' :: rest => some ('\\', rest)
  | 'u' :: rest => readCodePoint 4 rest
  | 'U' :: rest => readCodePoint 8 rest
  | _ => none

private def skipSpaceAndNewlines : List Char → List Char
  | '\r' :: '\n' :: rest => skipSpaceAndNewlines rest
  | '\n' :: rest => skipSpaceAndNewlines rest
  | c :: rest => if isSpace c then skipSpaceAndNewlines rest else c :: rest
  | [] => []

/-- A basic string behind its opening quote. -/
private def readBasic : Nat → List Char → Option (List Char × List Char)
  | 0, _ => none
  | _ + 1, [] => none
  | _ + 1, '"' :: rest => some ([], rest)
  | bound + 1, '\\' :: rest => do
    let (c, rest) ← readEscape rest
    (readBasic bound rest).map fun (text, rest) ↦ (c :: text, rest)
  | bound + 1, c :: rest =>
    if isPlain c then (readBasic bound rest).map fun (text, rest) ↦ (c :: text, rest) else none

private def readLiteral : List Char → Option (List Char × List Char)
  | [] => none
  | c :: rest =>
    if c = '\x27' then some ([], rest)
    else if isPlain c then (readLiteral rest).map fun (text, rest) ↦ (c :: text, rest)
    else none

/-- A basic string of several lines. Up to two quotes before the closing ones belong to it; a backslash at the end of a
line joins it with the next text. -/
private def readBasicLines : Nat → List Char → Option (List Char × List Char)
  | 0, _ => none
  | _ + 1, [] => none
  | _ + 1, '"' :: '"' :: '"' :: '"' :: '"' :: rest => some (['"', '"'], rest)
  | _ + 1, '"' :: '"' :: '"' :: '"' :: rest => some (['"'], rest)
  | _ + 1, '"' :: '"' :: '"' :: rest => some ([], rest)
  | bound + 1, '\\' :: rest =>
    match readNewline (rest.dropWhile isSpace) with
    | some rest => readBasicLines bound (skipSpaceAndNewlines rest)
    | none => do
      let (c, rest) ← readEscape rest
      (readBasicLines bound rest).map fun (text, rest) ↦ (c :: text, rest)
  | bound + 1, c :: rest =>
    match readNewline (c :: rest) with
    | some rest => (readBasicLines bound rest).map fun (text, rest) ↦ ('\n' :: text, rest)
    | none => if isPlain c then (readBasicLines bound rest).map fun (text, rest) ↦ (c :: text, rest) else none

private def readLiteralLines : Nat → List Char → Option (List Char × List Char)
  | 0, _ => none
  | _ + 1, [] => none
  | _ + 1, '\x27' :: '\x27' :: '\x27' :: '\x27' :: '\x27' :: rest => some (['\x27', '\x27'], rest)
  | _ + 1, '\x27' :: '\x27' :: '\x27' :: '\x27' :: rest => some (['\x27'], rest)
  | _ + 1, '\x27' :: '\x27' :: '\x27' :: rest => some ([], rest)
  | bound + 1, c :: rest =>
    match readNewline (c :: rest) with
    | some rest => (readLiteralLines bound rest).map fun (text, rest) ↦ ('\n' :: text, rest)
    | none => if isPlain c then (readLiteralLines bound rest).map fun (text, rest) ↦ (c :: text, rest) else none

private def afterNewline (text : List Char) : List Char :=
  (readNewline text).getD text

private def read (text : List Char) : Option (List Char × List Char) :=
  match text with
  | '"' :: '"' :: '"' :: rest => readBasicLines text.length (afterNewline rest)
  | '\x27' :: '\x27' :: '\x27' :: rest => readLiteralLines text.length (afterNewline rest)
  | '"' :: rest => readBasic text.length rest
  | '\x27' :: rest => readLiteral rest
  | _ => none

/-- Reads a string of any sort. -/
def read? (text : List Char) : Option (String × List Char) :=
  (read text).map fun (content, rest) ↦ (.ofList content, rest)

/-- Reads a string of one line. -/
def readLine? (text : List Char) : Option (String × List Char) :=
  match text with
  | '"' :: rest => (readBasic text.length rest).map fun (content, rest) ↦ (.ofList content, rest)
  | '\x27' :: rest => (readLiteral rest).map fun (content, rest) ↦ (.ofList content, rest)
  | _ => none

end PathBinding.Toml.Text
