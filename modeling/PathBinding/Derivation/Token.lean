/-!
Tokens of source text, as far as types, paths and generic parameters need them. A mark is a single character, but for the
two marks of paths and results, and round, square and curly brackets come in pairs.
-/

set_option autoImplicit false
set_option relaxedAutoImplicit false

namespace PathBinding.Derivation

inductive Token
  | word (text : String)
  | lifetime (text : String)
  | literal (text : String)
  | mark (text : String)
  deriving DecidableEq, Repr

namespace Token

def text : Token → String
  | .word text | .lifetime text | .literal text | .mark text => text

/-- The mark that closes what a bracket opens. -/
def closing? : Token → Option Token
  | .mark "(" => some (.mark ")")
  | .mark "[" => some (.mark "]")
  | .mark "\x7b" => some (.mark "\x7d")
  | _ => none

def opens (token : Token) : Bool :=
  token.closing?.isSome

def closes : Token → Bool
  | .mark ")" | .mark "]" | .mark "\x7d" => true
  | _ => false

/-- Whether each bracket is closed by its partner. The first list holds the marks that close the open brackets. -/
def isBalanced : List Token → List Token → Bool
  | opened, [] => opened.isEmpty
  | opened, token :: rest =>
    match token.closing? with
    | some closing => isBalanced (closing :: opened) rest
    | none =>
      if token.closes then
        match opened with
        | closing :: opened => closing == token && isBalanced opened rest
        | [] => false
      else isBalanced opened rest

/-- Splits tokens behind the bracket that closes those in front of them, of which so many are open within the outermost.
What is left of the split ends with that bracket. -/
def splitGroup : Nat → List Token → List Token × List Token
  | _, [] => ([], [])
  | depth, token :: rest =>
    if token.closes && depth == 0 then ([token], rest)
    else
      let (inner, rest) := splitGroup (if token.opens then depth + 1 else if token.closes then depth - 1 else depth) rest
      (token :: inner, rest)

/-- What an opened bracket encloses, and what follows the group. -/
def enclosed (tokens : List Token) : List Token × List Token :=
  let (inner, rest) := splitGroup 0 tokens
  (inner.dropLast, rest)

end Token

end PathBinding.Derivation
