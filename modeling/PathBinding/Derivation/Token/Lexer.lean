import PathBinding.Character.Name
import PathBinding.Derivation.Token
import PathBinding.Quoted

/-!
Reading tokens. Blanks and comments part tokens and are not kept, so the text of tokens is free of them; a comment that
documents what follows it stands for an attribute.
-/

set_option autoImplicit false
set_option relaxedAutoImplicit false

namespace PathBinding.Derivation.Token

/-- Text that spells tokens, without any blanks. -/
def spell (tokens : List Token) : String :=
  .ofList ((String.join (tokens.map text)).toList.filter fun c ↦ !Character.whiteSpace.contains c.toNat)

/-- Whether a word may begin with a character. The tables are needed beyond ASCII only. -/
private def startsWord (c : Char) : Bool :=
  if c.toNat < 128 then c.isAlpha || c == '_' else Character.identifierStart.contains c.toNat

private def continuesWord (c : Char) : Bool :=
  if c.toNat < 128 then c.isAlphanum || c == '_' else Character.identifierContinue.contains c.toNat

/-- Blanks, with the two marks that set the direction of writing. -/
private def isBlank (c : Char) : Bool :=
  Character.whiteSpace.contains c.toNat || c == '\u200E' || c == '\u200F'

/-- The marks that are a token of their own. -/
private def marks : List Char :=
  "<>()[]\x7b\x7d:;,.=+-*/&|!?#$%^@~".toList

/-! ### Comments -/

/-- The text behind a comment of so many levels, of which the outermost is closed last. -/
private def skipComment : Nat → List Char → Option (List Char)
  | 0, text => some text
  | _ + 1, [] => none
  | level + 1, '*' :: '/' :: rest => skipComment level rest
  | level + 1, '/' :: '*' :: rest => skipComment (level + 2) rest
  | level + 1, _ :: rest => skipComment (level + 1) rest

/-- The attribute that holds a documenting comment. An inner one belongs to what encloses it. -/
private def documentation (inner : Bool) (content : List Char) : List Token :=
  .mark "#" :: ((if inner then [.mark "!"] else []) ++
    [.mark "[", .word "doc", .mark "=", .literal (quoted (.ofList content)), .mark "]"])

private def readLine (text : List Char) : List Char × List Char :=
  let (line, rest) := text.span (· != '\n')
  (if line.getLast? = some '\r' then line.dropLast else line, rest)

private def readLineDocumentation (inner : Bool) (text : List Char) : List Token × List Char :=
  let (line, rest) := readLine text
  (documentation inner line, rest)

private def readBlockDocumentation (inner : Bool) (text : List Char) : Option (List Token × List Char) :=
  (skipComment 1 text).map fun rest ↦
    (documentation inner (text.take (text.length - rest.length - 2)), rest)

/-- Reads a comment that the text begins with into the tokens that stand for it. -/
private def readComment : List Char → Option (List Token × List Char)
  | '/' :: '/' :: '/' :: '/' :: rest => some ([], (readLine rest).2)
  | '/' :: '/' :: '/' :: rest => some (readLineDocumentation false rest)
  | '/' :: '/' :: '!' :: rest => some (readLineDocumentation true rest)
  | '/' :: '/' :: rest => some ([], (readLine rest).2)
  | '/' :: '*' :: '*' :: '/' :: rest => some ([], rest)
  | '/' :: '*' :: '*' :: '*' :: rest => (skipComment 1 ('*' :: '*' :: rest)).map ([], ·)
  | '/' :: '*' :: '*' :: rest => readBlockDocumentation false rest
  | '/' :: '*' :: '!' :: rest => readBlockDocumentation true rest
  | '/' :: '*' :: rest => (skipComment 1 rest).map ([], ·)
  | _ => none

private def isComment : List Char → Bool
  | '/' :: '/' :: _ | '/' :: '*' :: _ => true
  | _ => false

/-! ### Literals -/

/-- The rest of a quoted literal up to its closing quote. -/
private def readQuoted (quote : Char) : List Char → Option (List Char × List Char)
  | '\\' :: c :: rest => (readQuoted quote rest).map fun (content, rest) ↦ ('\\' :: c :: content, rest)
  | c :: rest =>
    if c = quote then some ([c], rest) else (readQuoted quote rest).map fun (content, rest) ↦ (c :: content, rest)
  | [] => none

/-- The rest of a raw literal, which ends at a quote with as many number signs as stand in front of it. -/
private def readRawRest (signs : List Char) : List Char → Option (List Char × List Char)
  | [] => none
  | c :: rest =>
    if c = '"' ∧ signs.isPrefixOf rest then some (c :: signs, rest.drop signs.length)
    else (readRawRest signs rest).map fun (content, rest) ↦ (c :: content, rest)

/-- A raw literal behind its letters. -/
private def readRaw (text : List Char) : Option (List Char × List Char) :=
  let (signs, rest) := text.span (· == '#')
  match rest with
  | '"' :: rest => (readRawRest signs rest).map fun (content, rest) ↦ (signs ++ '"' :: content, rest)
  | _ => none

private def prepend (letters : List Char) :
    Option (List Char × List Char) → Option (List Char × List Char) :=
  Option.map fun (content, rest) ↦ (letters ++ content, rest)

/-- The text of a literal of characters or bytes, but for characters without a letter in front. -/
private def readTextLiteral : List Char → Option (List Char × List Char)
  | '"' :: rest => prepend ['"'] (readQuoted '"' rest)
  | 'b' :: '"' :: rest => prepend ['b', '"'] (readQuoted '"' rest)
  | 'c' :: '"' :: rest => prepend ['c', '"'] (readQuoted '"' rest)
  | 'b' :: '\x27' :: rest => prepend ['b', '\x27'] (readQuoted '\x27' rest)
  | 'b' :: 'r' :: rest => prepend ['b', 'r'] (readRaw rest)
  | 'c' :: 'r' :: rest => prepend ['c', 'r'] (readRaw rest)
  | 'r' :: rest => prepend ['r'] (readRaw rest)
  | _ => none

/-- A literal with the word that may follow it at once. -/
private def withSuffix (content rest : List Char) : Token × List Char :=
  let (suffix, rest) := if rest.head?.any startsWord then rest.span continuesWord else ([], rest)
  (.literal (.ofList (content ++ suffix)), rest)

/-- What follows an apostrophe: a character, which another apostrophe closes, or a lifetime. -/
private def readApostrophe (text : List Char) : Option (Token × List Char) :=
  let character := (readQuoted '\x27' text).map fun (content, rest) ↦ withSuffix ('\x27' :: content) rest
  match text with
  | '\\' :: _ => character
  | 'r' :: '#' :: c :: rest =>
    if startsWord c then
      let (name, rest) := (c :: rest).span continuesWord
      some (.lifetime (.ofList ('\x27' :: 'r' :: '#' :: name)), rest)
    else none
  | c :: rest =>
    if rest.head? = some '\x27' then character
    else if startsWord c then
      let (name, rest) := rest.span continuesWord
      some (.lifetime (.ofList ('\x27' :: c :: name)), rest)
    else none
  | [] => none

private def isExponentEnd (digits : List Char) : Bool :=
  (digits.getLast? = some 'e' || digits.getLast? = some 'E') && !(['0', 'x'].isPrefixOf digits)

/-- A sign of an exponent with the digits behind it. -/
private def readExponent (digits rest : List Char) : List Char × List Char :=
  match rest with
  | sign :: c :: more =>
    if isExponentEnd digits && (sign == '+' || sign == '-') && c.isDigit then
      let (exponent, rest) := (c :: more).span continuesWord
      (digits ++ sign :: exponent, rest)
    else (digits, rest)
  | _ => (digits, rest)

private def readNumber (text : List Char) : List Char × List Char :=
  let (whole, rest) := text.span continuesWord
  match rest with
  | '.' :: rest =>
    if rest.head?.any fun c ↦ c == '.' || startsWord c then readExponent whole ('.' :: rest)
    else
      let (decimals, rest) := rest.span continuesWord
      readExponent (whole ++ '.' :: decimals) rest
  | rest => readExponent whole rest

/-! ### Tokens -/

/-- The words that cannot be written as raw words. -/
private def neverRaw : List String :=
  ["_", "super", "self", "Self", "crate"]

private def readWord (text : List Char) : Option (Token × List Char) :=
  match text with
  | 'r' :: '#' :: rest =>
    let (name, rest) := rest.span continuesWord
    if name.head?.any startsWord && !neverRaw.contains (.ofList name) then
      some (.word (.ofList ('r' :: '#' :: name)), rest)
    else none
  | c :: _ =>
    if startsWord c then
      let (name, rest) := text.span continuesWord
      some (.word (.ofList name), rest)
    else none
  | [] => none

/-- Reads the token that a text begins with, if it begins with no blank and no comment. -/
private def readToken (text : List Char) : Option (Token × List Char) :=
  match readTextLiteral text with
  | some (content, rest) => some (withSuffix content rest)
  | none =>
    match text with
    | ':' :: ':' :: rest => some (.mark "::", rest)
    | '-' :: '>' :: rest => some (.mark "->", rest)
    | '\x27' :: rest => readApostrophe rest
    | c :: rest =>
      if c.isDigit then
        let (number, rest) := readNumber text
        some (.literal (.ofList number), rest)
      else if marks.contains c then some (.mark c.toString, rest)
      else readWord text
    | [] => none

private def readTokens : Nat → List Char → Option (List Token)
  | 0, _ => none
  | _ + 1, [] => some []
  | bound + 1, c :: rest =>
    if isBlank c then readTokens bound rest
    else if isComment (c :: rest) then do
      let (tokens, rest) ← readComment (c :: rest)
      return tokens ++ (← readTokens bound rest)
    else do
      let (token, rest) ← readToken (c :: rest)
      return token :: (← readTokens bound rest)

/-- The tokens of a text, if it has no others and its brackets match. A byte order mark in front of it does not count. -/
def ofText? (text : String) : Option (List Token) := do
  let text := match text.toList with
    | '\uFEFF' :: rest => rest
    | text => text
  let tokens ← readTokens (text.length + 1) text
  guard (isBalanced [] tokens)
  return tokens

end PathBinding.Derivation.Token
