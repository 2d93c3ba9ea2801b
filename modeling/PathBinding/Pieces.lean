/-!
A regular expression with gaps: text interleaved with slots for the expressions of dynamic parameters. Adjacent text is
kept in one piece, so two equal concatenations are equal as lists.
-/

set_option autoImplicit false
set_option relaxedAutoImplicit false

namespace PathBinding

inductive Piece
  | text (text : String)
  | slot (name : String)
  deriving DecidableEq, Repr

abbrev Pieces := List Piece

namespace Pieces

/-- Appends text, joining it to a last piece of text. -/
def addText : Pieces → String → Pieces
  | [], text => if text.isEmpty then [] else [.text text]
  | [.text last], text => [.text (last ++ text)]
  | [.slot name], text => if text.isEmpty then [.slot name] else [.slot name, .text text]
  | piece :: next :: rest, text => piece :: addText (next :: rest) text

def addSlot (pieces : Pieces) (name : String) : Pieces :=
  pieces ++ [.slot name]

def add (pieces : Pieces) : Piece → Pieces
  | .text text => pieces.addText text
  | .slot name => pieces.addSlot name

/-- Appends all pieces of another list. -/
def extend (pieces other : Pieces) : Pieces :=
  other.foldl add pieces

def hasSlot (pieces : Pieces) : Bool :=
  pieces.any fun
    | .slot _ => true
    | .text _ => false

/-- The expression, with each slot resolved from left to right. The resolver is taken as a function of the name, so slots
of one name are filled with one text. -/
def assemble {ε : Type} (resolve : String → Except ε String) : Pieces → Except ε String
  | [] => .ok ""
  | .text text :: rest => do
    let tail ← assemble resolve rest
    return text ++ tail
  | .slot name :: rest => do
    let head ← resolve name
    let tail ← assemble resolve rest
    return head ++ tail

/-- The expression, if it has no gaps. -/
def static? : Pieces → Option String
  | [] => some ""
  | .text text :: rest => (static? rest).map (text ++ ·)
  | .slot _ :: _ => none

end Pieces

end PathBinding
