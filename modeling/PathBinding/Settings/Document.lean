import PathBinding.Json.Codec
import PathBinding.Json.Reader
import PathBinding.Json.Writer
import PathBinding.Error
import PathBinding.Settings
import PathBinding.Toml.Reader

/-!
Settings from documents. The members of a document that is an object replace the defaults one by one and as a whole; any
other document must itself be a full record.
-/

set_option autoImplicit false
set_option relaxedAutoImplicit false

namespace PathBinding.Settings

def toJson (settings : Settings) : Json :=
  .obj [("debug", .bool settings.debug), ("log_level", .str settings.logLevel),
    ("regex_size_limit", .int settings.regexSizeLimit), ("default_no_match", settings.defaultNoMatch.toJson),
    ("selection_policy", settings.selectionPolicy.toJson), ("missing_marker", .str settings.missingMarker)]

def ofJson? (json : Json) : Option Settings := do
  let [debug, logLevel, regexSizeLimit, defaultNoMatch, selectionPolicy, missingMarker] ←
    json.fields? ["debug", "log_level", "regex_size_limit", "default_no_match", "selection_policy", "missing_marker"]
    | none
  let debug ← Json.required? Json.bool? debug
  let logLevel ← Json.required? Json.string? logLevel
  let regexSizeLimit ← Json.required? Json.word? regexSizeLimit
  let defaultNoMatch ← Json.required? NoMatchPolicy.ofJson? defaultNoMatch
  let selectionPolicy ← Json.required? SelectionPolicy.ofJson? selectionPolicy
  let missingMarker ← Json.required? Json.string? missingMarker
  return { debug, logLevel, regexSizeLimit, defaultNoMatch, selectionPolicy, missingMarker }

/-- The defaults with the members of an object laid over them. -/
def overDefaults (document : Json) : Json :=
  match (toJson {}), document with
  | .obj base, .obj members => .obj (Json.lastWins (base ++ members))
  | _, document => document

/-- The settings that a document of values describes. -/
def ofDocument (format : DocumentFormat) (document : Json) : Except Error Settings :=
  match ofJson? (overDefaults document) with
  | some settings => .ok settings
  | none => .error (.configuration (.undecodable format))

def readJson (text : String) : Except Error Settings :=
  match Json.readValue? text with
  | some document => ofDocument .json document
  | none => .error (.configuration (.unparsable .json))

def readToml (text : String) : Except Error Settings :=
  match Toml.read? text with
  | some document => ofDocument .toml document.toJson
  | none => .error (.configuration (.unparsable .toml))

def read : DocumentFormat → String → Except Error Settings
  | .json, text => readJson text
  | .toml, text => readToml text

/-- Settings from a file, of which there is no text if it cannot be read. -/
def ofFile (format : DocumentFormat) : Option String → Except Error Settings
  | some text => read format text
  | none => .error (.configuration (.unreadableFile format))

end PathBinding.Settings
