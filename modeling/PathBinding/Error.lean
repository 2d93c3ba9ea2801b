import PathBinding.Numeral

/-!
Everything that can go wrong, as causes. Each cause has one wording, and each error belongs to one category. The errors of
the build category are those of a declaration, though an expression that is completed for one match can be invalid too.
-/

set_option autoImplicit false
set_option relaxedAutoImplicit false

namespace PathBinding

/-- What is wrong with a query declaration, which reads `key=:parameter`. -/
inductive QueryFault
  | missingSeparator
  | invalidKey
  | notPlaceholder
  deriving DecidableEq, Repr

def QueryFault.message : QueryFault → String
  | .missingSeparator => "expected 'key=:parameter'"
  | .invalidKey => "invalid key"
  | .notPlaceholder => "the value must be a single placeholder"

/-- What is wrong with a pattern; offsets count bytes of its text. -/
inductive PatternFault
  | danglingEscape
  | unmatchedClose (offset : Nat)
  | unclosedOpen
  | unreadableIndex (digits : String)
  | indexOutside (index : Nat)
  | unterminatedRegex (name : String) (offset : Nat)
  | emptyRegex (name : String)
  | positional (index : Nat)
  | query (pattern : String) (fault : QueryFault)
  deriving DecidableEq, Repr

/-- Positional placeholders are numbered from one to this. -/
def maxPositional : Nat := 99

def PatternFault.message : PatternFault → String
  | .danglingEscape => "dangling escape at end of pattern"
  | .unmatchedClose offset => s!"unmatched ']' at offset {offset}"
  | .unclosedOpen => "unclosed '['"
  | .unreadableIndex digits => s!"invalid positional index ':{digits}'"
  | .indexOutside index => s!"positional index :{index} outside 1..={maxPositional}"
  | .unterminatedRegex name offset => s!"unterminated inline regex for ':{name}' at offset {offset}"
  | .emptyRegex name => s!"empty inline regex for ':{name}'"
  | .positional index => s!"positional placeholder :{index} is only allowed in format templates"
  | .query pattern fault => s!"malformed query declaration in '{pattern}': {fault.message}"

/-- Why a value cannot be given to a parameter. -/
inductive CoercionFault
  | numeral (fault : NumeralFault)
  | notBoolean
  | notUuid
  | unsupported (typeName : String)
  | mismatch (expected found : String)
  deriving DecidableEq, Repr

def CoercionFault.message : CoercionFault → String
  | .numeral fault => fault.message
  | .notBoolean => "expected 'true' or 'false'"
  | .notUuid => "failed to parse a UUID"
  | .unsupported typeName => s!"unsupported parameter type '{typeName}'"
  | .mismatch expected found => s!"expected {expected}, got {found}"

/-- Why a template cannot be rendered. -/
inductive FormatFault
  | unreadable (template : String) (fault : PatternFault)
  | inlineRegex (name : String)
  | unknownPlaceholder (name : String)
  | outOfRange (index given : Nat)
  | missing (names : List String)
  deriving DecidableEq, Repr

private def invalidPatternMessage (pattern : String) (fault : PatternFault) : String :=
  s!"Invalid pattern '{pattern}': {fault.message}"

def FormatFault.message : FormatFault → String
  | .unreadable template fault => invalidPatternMessage template fault
  | .inlineRegex name => s!"inline regex for ':{name}' is not allowed in a format template"
  | .unknownPlaceholder name => s!"unknown placeholder ':{name}'"
  | .outOfRange index given => s!"positional placeholder :{index} out of range ({given} given)"
  | .missing names => "missing required parameter " ++ ", ".intercalate (names.map fun name ↦ s!"'{name}'")

/-- The formats of a settings document. -/
inductive DocumentFormat
  | json
  | toml
  deriving DecidableEq, Repr

def DocumentFormat.name : DocumentFormat → String
  | .json => "JSON"
  | .toml => "TOML"

inductive ConfigurationFault
  | notDynamic (parameter owner : String)
  | unknownDynamic (parameter owner : String)
  | unknownParameter (parameter owner : String)
  | rejected (parameter : String)
  | unreadableFile (format : DocumentFormat)
  | unparsable (format : DocumentFormat)
  | undecodable (format : DocumentFormat)
  deriving DecidableEq, Repr

/-- The wording; the explanations of the document readers are elided. -/
def ConfigurationFault.message : ConfigurationFault → String
  | .notDynamic parameter owner => s!"Parameter '{parameter}' of {owner} is not dynamic"
  | .unknownDynamic parameter owner => s!"Unknown dynamic parameter '{parameter}' of {owner}"
  | .unknownParameter parameter owner => s!"Unknown parameter '{parameter}' of {owner}"
  | .rejected parameter => s!"setter rejected '{parameter}'"
  | .unreadableFile format => s!"Failed to read {format.name} file ..."
  | .unparsable format => s!"Failed to parse {format.name}: ..."
  | .undecodable format => s!"Failed to deserialize settings from {format.name}: ..."

inductive Error
  | unknownParameter (parameter pattern owner : String)
  | duplicateParameter (parameter owner : String)
  | unsupportedType (typeName parameter owner : String)
  | invalidPattern (pattern : String) (fault : PatternFault)
  | invalidRegex (owner : String)
  | noDynamicRegex (parameter owner : String)
  | coercion (parameter value : String) (fault : CoercionFault)
  | format (template rendered : String) (fault : FormatFault)
  | configuration (fault : ConfigurationFault)
  deriving DecidableEq, Repr

inductive ErrorCategory
  | build
  | match
  | coercion
  | format
  | configuration
  deriving DecidableEq, Repr

namespace Error

def category : Error → ErrorCategory
  | .unknownParameter .. | .duplicateParameter .. | .unsupportedType .. | .invalidPattern .. | .invalidRegex .. => .build
  | .noDynamicRegex .. => .match
  | .coercion .. => .coercion
  | .format .. => .format
  | .configuration .. => .configuration

def isBuildError (e : Error) : Bool :=
  e.category == .build

/-- The wording; the explanation of a rejected regular expression is elided. -/
def message : Error → String
  | .unknownParameter parameter pattern owner => s!"Unknown parameter '{parameter}' in pattern '{pattern}' of {owner}"
  | .duplicateParameter parameter owner => s!"Duplicate parameter '{parameter}' in {owner}"
  | .unsupportedType typeName parameter owner =>
    s!"Unsupported parameter type '{typeName}' for parameter '{parameter}' of {owner}"
  | .invalidPattern pattern fault => invalidPatternMessage pattern fault
  | .invalidRegex owner => s!"Invalid regular expression for {owner}: ..."
  | .noDynamicRegex parameter owner => s!"No dynamic regex specified for parameter '{parameter}' of {owner}"
  | .coercion parameter value fault => s!"Cannot set parameter '{parameter}' to value \"{value}\": {fault.message}"
  | .format template rendered fault => s!"Cannot format '{template}' (got '{rendered}'): {fault.message}"
  | .configuration fault => s!"Configuration error: {fault.message}"

end Error

end PathBinding
