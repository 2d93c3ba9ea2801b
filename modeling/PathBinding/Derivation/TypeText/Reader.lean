import PathBinding.Derivation.Token.Lexer
import PathBinding.Derivation.TypeText

/-!
Reading types and paths from tokens. What is read is the text of the type with the arguments of every path in it in order,
those in constant expressions among them. The first argument of each reader bounds how deep its calls are nested.
-/

set_option autoImplicit false
set_option relaxedAutoImplicit false

namespace PathBinding.Derivation

/-- The words that no part of a path has as its name. -/
def reservedWords : List String :=
  ["_", "abstract", "as", "async", "await", "become", "box", "break", "const", "continue", "do", "dyn", "else", "enum",
    "extern", "false", "final", "fn", "for", "if", "impl", "in", "let", "loop", "macro", "match", "mod", "move", "mut",
    "override", "priv", "pub", "ref", "return", "static", "struct", "trait", "true", "type", "typeof", "unsafe",
    "unsized", "use", "virtual", "where", "while", "yield"]

/-- The words that are parts of paths without any arguments. -/
def bareParts : List String :=
  ["crate", "self", "super", "try"]

namespace TypeText

private def quantifier : List Token → Option (List Token × List Token)
  | .mark "<" :: rest =>
    match rest.span (· != .mark ">") with
    | (inner, .mark ">" :: rest) => some (.mark "<" :: inner ++ [.mark ">"], rest)
    | _ => none
  | _ => none

/-- Attributes with what their brackets enclose. The first argument bounds their number. -/
def readAttributes : Nat → List Token → List Token × List Token
  | bound + 1, .mark "#" :: .mark "[" :: rest =>
    let (inner, rest) := Token.splitGroup 0 rest
    let (others, rest) := readAttributes bound rest
    (.mark "#" :: .mark "[" :: inner ++ others, rest)
  | _, tokens => ([], tokens)

/-- The name of a parameter of a function type. -/
private def readLabel : List Token → List Token × List Token
  | .word name :: .mark ":" :: rest => ([.word name, .mark ":"], rest)
  | tokens => ([], tokens)

/-- Whether a list of bounds may end in front of a token. -/
private def endsBounds : List Token → Bool
  | [] | .mark "," :: _ | .mark "=" :: _ | .mark ">" :: _ | .mark ":" :: _ => true
  | _ => false

/-- Whether an expression goes on with an operand behind a token. -/
private def expectsOperand : Token → Bool
  | .word name => reservedWords.contains name && name != "true" && name != "false"
  | .lifetime _ | .literal _ => false
  | .mark text => text ∉ [")", "]", "\x7d", "?"]

mutual

/-- A type, to which bounds may be added. -/
def read : Nat → List Token → Option (TypeText × List Token)
  | 0, _ => none
  | bound + 1, tokens => do
    let (type, rest) ← readSingle bound tokens
    match rest with
    | .mark "+" :: rest =>
      let (bounds, rest) ← readBounds bound rest
      return (⟨type.tokens ++ .mark "+" :: bounds, none⟩, rest)
    | rest => return (type, rest)

/-- A type without bounds added to it. -/
def readSingle : Nat → List Token → Option (TypeText × List Token)
  | 0, _ => none
  | bound + 1, tokens =>
    match tokens with
    | .mark "&" :: .lifetime name :: .word "mut" :: rest =>
      readBehind bound [.mark "&", .lifetime name, .word "mut"] rest
    | .mark "&" :: .lifetime name :: rest => readBehind bound [.mark "&", .lifetime name] rest
    | .mark "&" :: .word "mut" :: rest => readBehind bound [.mark "&", .word "mut"] rest
    | .mark "&" :: rest => readBehind bound [.mark "&"] rest
    | .mark "*" :: .word "const" :: rest => readBehind bound [.mark "*", .word "const"] rest
    | .mark "*" :: .word "mut" :: rest => readBehind bound [.mark "*", .word "mut"] rest
    | .mark "!" :: rest => some (⟨[.mark "!"], none⟩, rest)
    | .word "_" :: rest => some (⟨[.word "_"], none⟩, rest)
    | .mark "[" :: rest => do
      let (inner, rest) := Token.enclosed rest
      let (item, size) ← read bound inner
      match size with
      | [] => return (⟨.mark "[" :: item.tokens ++ [.mark "]"], none⟩, rest)
      | .mark ";" :: size =>
        return (⟨.mark "[" :: item.tokens ++ .mark ";" :: arrangeWithin bound true size ++ [.mark "]"], none⟩, rest)
      | _ => none
    | .mark "(" :: rest => do
      let (inner, rest) := Token.enclosed rest
      return (⟨.mark "(" :: (← readList bound inner) ++ [.mark ")"], none⟩, rest)
    | .word "for" :: rest => do
      let (lifetimes, rest) ← quantifier rest
      readBehind bound (.word "for" :: lifetimes) rest
    | .word "unsafe" :: rest => readBehind bound [.word "unsafe"] rest
    | .word "extern" :: .literal abi :: rest => readBehind bound [.word "extern", .literal abi] rest
    | .word "extern" :: rest => readBehind bound [.word "extern"] rest
    | .word "fn" :: .mark "(" :: rest => do
      let (arguments, rest) ← readFunction bound rest
      return (⟨.word "fn" :: arguments, none⟩, rest)
    | .word "dyn" :: rest => do
      let (bounds, rest) ← readBounds bound rest
      return (⟨.word "dyn" :: bounds, none⟩, rest)
    | .word "impl" :: rest => do
      let (bounds, rest) ← readBounds bound rest
      return (⟨.word "impl" :: bounds, none⟩, rest)
    | .lifetime _ :: _ | .mark "?" :: _ => do
      let (bounds, rest) ← readBounds bound tokens
      return (⟨bounds, none⟩, rest)
    | tokens => do
      let (path, rest) ← readPath true bound tokens
      match rest with
      | .mark "!" :: opening :: rest =>
        if opening.opens then
          let (inner, rest) := Token.splitGroup 0 rest
          return (⟨path.tokens ++ .mark "!" :: opening :: inner, none⟩, rest)
        else none
      | rest => return (path, rest)

/-- A type behind some of its text. -/
def readBehind : Nat → List Token → List Token → Option (TypeText × List Token)
  | 0, _, _ => none
  | bound + 1, front, tokens =>
    (readSingle bound tokens).map fun (type, rest) ↦ (⟨front ++ type.tokens, none⟩, rest)

/-- A path, which a type in angle brackets may qualify. Where it may be that of a function its last part may have types in
round brackets. -/
def readPath : Bool → Nat → List Token → Option (TypeText × List Token)
  | _, 0, _ => none
  | functions, bound + 1, tokens =>
    match tokens with
    | .mark "<" :: rest => do
      let (type, rest) ← read bound rest
      let (role, rest) ← match rest with
        | .word "as" :: rest => (readPath true bound rest).map fun (path, rest) ↦ (.word "as" :: path.tokens, rest)
        | rest => some ([], rest)
      match rest with
      | .mark ">" :: .mark "::" :: rest => do
        let (path, rest) ← readParts functions bound rest
        return (path.after (.mark "<" :: type.tokens ++ role ++ [.mark ">", .mark "::"]), rest)
      | _ => none
    | .mark "::" :: rest => (readParts functions bound rest).map fun (path, rest) ↦ (path.after [.mark "::"], rest)
    | tokens => readParts functions bound tokens

/-- The parts of a path. -/
def readParts : Bool → Nat → List Token → Option (TypeText × List Token)
  | functions, bound + 1, .word name :: rest => do
    if reservedWords.contains name then none
    let (part, written, rest) ← if bareParts.contains name then some (⟨name, none⟩, [], rest)
      else readPart functions bound name rest
    match rest with
    | .mark "::" :: .word next :: rest => do
      let (path, rest) ← readParts functions bound (.word next :: rest)
      return (path.after (.word name :: written ++ [.mark "::"]), rest)
    | rest => return (⟨.word name :: written, some part⟩, rest)
  | _, _, _ => none

/-- A part of a path behind its name, with the text of its arguments. -/
def readPart : Bool → Nat → String → List Token → Option (PathPart × List Token × List Token)
  | _, 0, _, _ => none
  | functions, bound + 1, name, tokens =>
    match tokens with
    | .mark "<" :: rest => do
      let (arguments, rest) ← readArguments bound rest
      return (⟨name, some arguments⟩, .mark "<" :: Argument.arrange arguments ++ [.mark ">"], rest)
    | .mark "::" :: .mark "<" :: rest => do
      let (arguments, rest) ← readArguments bound rest
      return (⟨name, some arguments⟩, .mark "::" :: .mark "<" :: Argument.arrange arguments ++ [.mark ">"], rest)
    | .mark "(" :: rest =>
      if functions then (readFunction bound rest).map fun (written, rest) ↦ (⟨name, none⟩, written, rest)
      else some (⟨name, none⟩, [], tokens)
    | .mark "::" :: .mark "(" :: rest =>
      if functions then (readFunction bound rest).map fun (written, rest) ↦ (⟨name, none⟩, .mark "::" :: written, rest)
      else some (⟨name, none⟩, [], tokens)
    | tokens => some (⟨name, none⟩, [], tokens)

/-- The text of the parameters of a function behind their opening bracket, and of its result. -/
def readFunction : Nat → List Token → Option (List Token × List Token)
  | 0, _ => none
  | bound + 1, tokens => do
    let (inner, rest) := Token.enclosed tokens
    let parameters := .mark "(" :: (← readList bound inner) ++ [.mark ")"]
    match rest with
    | .mark "->" :: rest => do
      let (result, rest) ← readSingle bound rest
      return (parameters ++ .mark "->" :: result.tokens, rest)
    | rest => return (parameters, rest)

/-- The text of types with commas between them, which may have labels and attributes. -/
def readList : Nat → List Token → Option (List Token)
  | 0, _ => none
  | _ + 1, [] => some []
  | bound + 1, tokens => do
    let (attributes, rest) := readAttributes bound tokens
    let (label, rest) := readLabel rest
    let (type, rest) ← match rest with
      | .mark "." :: .mark "." :: .mark "." :: rest => some ([.mark ".", .mark ".", .mark "."], rest)
      | rest => (read bound rest).map fun (type, rest) ↦ (type.tokens, rest)
    match rest with
    | [] => return attributes ++ label ++ type
    | .mark "," :: rest => return attributes ++ label ++ type ++ .mark "," :: (← readList bound rest)
    | _ => none

/-- Arguments up to the bracket that closes them. -/
def readArguments : Nat → List Token → Option (List Argument × List Token)
  | 0, _ => none
  | bound + 1, tokens =>
    match tokens with
    | .mark ">" :: rest => some ([], rest)
    | tokens => do
      let (sort, text, rest) ← readArgument bound tokens
      match rest with
      | .mark ">" :: rest => return ([⟨sort, text, false⟩], rest)
      | .mark "," :: rest =>
        let (arguments, rest) ← readArguments bound rest
        return (⟨sort, text, true⟩ :: arguments, rest)
      | _ => none

/-- An argument: a lifetime, a constant, what is assigned to an associated item or bounds it, or a type. -/
def readArgument : Nat → List Token → Option (ArgumentSort × List Token × List Token)
  | 0, _ => none
  | bound + 1, tokens =>
    match readConstant bound tokens with
    | some (text, rest) => some (.other, text, rest)
    | none =>
      match tokens with
      | .lifetime name :: .mark "+" :: rest => do
        let (type, rest) ← read bound (.lifetime name :: .mark "+" :: rest)
        return (.type, type.tokens, rest)
      | .lifetime name :: rest => some (.lifetime, [.lifetime name], rest)
      | tokens => do
        let (type, rest) ← read bound tokens
        match type.tokens, rest with
        | .word _ :: _, .mark "=" :: rest =>
          match readConstant bound rest with
          | some (text, rest) => return (.other, type.tokens ++ .mark "=" :: text, rest)
          | none =>
            let (value, rest) ← read bound rest
            return (.other, type.tokens ++ .mark "=" :: value.tokens, rest)
        | .word _ :: _, .mark ":" :: rest =>
          let (bounds, rest) ← readBounds bound rest
          return (.other, type.tokens ++ .mark ":" :: bounds, rest)
        | text, rest => return (.type, text, rest)

/-- A constant that is a literal or stands in curly brackets. -/
def readConstant : Nat → List Token → Option (List Token × List Token)
  | bound + 1, tokens =>
    match tokens with
    | .literal text :: rest => some ([.literal text], rest)
    | .mark "-" :: .literal text :: rest => some ([.mark "-", .literal text], rest)
    | .word "true" :: rest => some ([.word "true"], rest)
    | .word "false" :: rest => some ([.word "false"], rest)
    | .mark "\x7b" :: rest =>
      let (inner, rest) := Token.enclosed rest
      some (.mark "\x7b" :: arrangeWithin bound true inner ++ [.mark "\x7d"], rest)
    | _ => none
  | _, _ => none

/-- The text of bounds with plus signs between them, of which there may be none. -/
def readBounds : Nat → List Token → Option (List Token × List Token)
  | 0, _ => none
  | bound + 1, tokens =>
    if endsBounds tokens then some ([], tokens)
    else do
      let (first, rest) ← readBound bound tokens
      match rest with
      | .mark "+" :: rest => do
        let (others, rest) ← readBounds bound rest
        return (first ++ .mark "+" :: others, rest)
      | rest => return (first, rest)

/-- The text of a bound. -/
def readBound : Nat → List Token → Option (List Token × List Token)
  | 0, _ => none
  | bound + 1, tokens =>
    match tokens with
    | .lifetime name :: rest => some ([.lifetime name], rest)
    | .mark "(" :: rest => do
      let (inner, rest) := Token.enclosed rest
      let (text, others) ← readBound bound inner
      if others.isEmpty then return (.mark "(" :: text ++ [.mark ")"], rest) else none
    | .mark "?" :: rest => (readBound bound rest).map fun (text, rest) ↦ (.mark "?" :: text, rest)
    | .mark "~" :: .word "const" :: rest =>
      (readBound bound rest).map fun (text, rest) ↦ (.mark "~" :: .word "const" :: text, rest)
    | .word "for" :: rest => do
      let (lifetimes, rest) ← quantifier rest
      let (text, rest) ← readBound bound rest
      return (.word "for" :: lifetimes ++ text, rest)
    | .word "use" :: rest => (quantifier rest).map fun (captured, rest) ↦ (.word "use" :: captured, rest)
    | tokens => (readPath true bound tokens).map fun (path, rest) ↦ (path.tokens, rest)

/-- An expression with the arguments of the paths in it in order. What a macro is applied to stays as it is. The flag tells
whether an operand is expected, where an angle bracket is no comparison. -/
def arrangeWithin : Nat → Bool → List Token → List Token
  | 0, _, tokens => tokens
  | _ + 1, _, [] => []
  | bound + 1, operand, token :: rest =>
    match token, rest with
    | .mark "::", .mark "<" :: inner =>
      match readArguments bound inner with
      | some (arguments, rest) =>
        .mark "::" :: .mark "<" :: Argument.arrange arguments ++ .mark ">" :: arrangeWithin bound false rest
      | none => token :: arrangeWithin bound true rest
    | .word "as", rest =>
      match readSingle bound rest with
      | some (type, rest) => token :: type.tokens ++ arrangeWithin bound false rest
      | none => token :: arrangeWithin bound true rest
    | .word name, .mark "!" :: opening :: inner =>
      if opening.opens && !reservedWords.contains name then
        let (inner, rest) := Token.splitGroup 0 inner
        token :: .mark "!" :: opening :: inner ++ arrangeWithin bound false rest
      else token :: arrangeWithin bound (expectsOperand token) rest
    | .mark "<", rest =>
      match if operand then readPath false bound (token :: rest) else none with
      | some (path, rest) => path.tokens ++ arrangeWithin bound false rest
      | none => token :: arrangeWithin bound true rest
    | token, rest => token :: arrangeWithin bound (expectsOperand token) rest

end

/-- How deep the calls for tokens may be nested. -/
def depthOf (tokens : List Token) : Nat :=
  8 * tokens.length + 8

/-- The type that all of the tokens make up. -/
def ofTokens? (tokens : List Token) : Option TypeText :=
  match read (depthOf tokens) tokens with
  | some (type, []) => some type
  | _ => none

/-- The path that all of the tokens make up. -/
def ofPathTokens? (tokens : List Token) : Option TypeText :=
  if tokens.head? = some (.mark "<") then none
  else match readPath false (depthOf tokens) tokens with
    | some (path, []) => some path
    | _ => none

def ofText? (text : String) : Option TypeText :=
  (Token.ofText? text).bind ofTokens?

def spell (type : TypeText) : String :=
  Token.spell type.tokens

/-- The type in an optional type. -/
def optionArgument? (type : TypeText) : Option TypeText := do
  let part ← type.last?
  let first ← (← part.arguments?).head?
  if part.name = "Option" ∧ first.sort = .type then ofTokens? first.tokens else none

/-- Whether a type is optional and the last part of the type in it has a name. -/
def isOptionOf (name : String) (type : TypeText) : Bool :=
  (type.optionArgument?.bind (·.last?)).any (·.name == name)

end TypeText

end PathBinding.Derivation
