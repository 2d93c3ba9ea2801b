import PathBinding.Kind
import PathBinding.Uuid

/-!
Typed values: how text becomes a value of a kind, how a value becomes text again, and slots that hold values of one kind.
-/

set_option autoImplicit false
set_option relaxedAutoImplicit false

namespace PathBinding

inductive Value
  | string (text : String)
  | integer (number : Int32)
  | long (number : Int64)
  | boolean (truth : Bool)
  | uuid (id : Uuid)
  deriving DecidableEq, Repr

namespace Value

def kind : Value → Kind
  | .string _ => .string
  | .integer _ => .integer
  | .long _ => .long
  | .boolean _ => .boolean
  | .uuid _ => .uuid

/-- The canonical text. -/
def render : Value → String
  | .string text => text
  | .integer number => toString number.toInt
  | .long number => toString number.toInt
  | .boolean true => "true"
  | .boolean false => "false"
  | .uuid id => id.hyphenated

end Value

private def numeralValue {α : Type} (f : α → Value) (r : Except NumeralFault α) : Except CoercionFault Value :=
  match r with
  | .ok n => .ok (f n)
  | .error fault => .error (.numeral fault)

/-- The value of a kind that a text denotes. -/
def Kind.read (kind : Kind) (raw : String) : Except CoercionFault Value :=
  match kind with
  | .string => .ok (.string raw)
  | .integer => numeralValue .integer (Numeral.readInt32 raw.toList)
  | .long => numeralValue .long (Numeral.readInt64 raw.toList)
  | .boolean =>
    if raw = "true" then .ok (.boolean true)
    else if raw = "false" then .ok (.boolean false)
    else .error .notBoolean
  | .uuid =>
    match Uuid.read? raw.toList with
    | some id => .ok (.uuid id)
    | none => .error .notUuid
  | .other name => .error (.unsupported name)

/-- Converts text given to a parameter. -/
def Kind.parse (kind : Kind) (parameter raw : String) : Except Error Value :=
  match kind.read raw with
  | .ok value => .ok value
  | .error fault => .error (.coercion parameter raw fault)

/-- What a slot for values of `kind` holds after it is given a value, or cleared when none is given. -/
def Kind.assign (kind : Kind) (parameter : String) : Option Value → Except Error (Option Value)
  | none => .ok none
  | some value =>
    if value.kind = kind then .ok (some value)
    else .error (.coercion parameter value.render (.mismatch kind.typeName value.kind.typeName))

end PathBinding
