import PathBinding.Policy

/-!
The settings that all mappings of a registry share, and the cell that holds the settings of a process.
-/

set_option autoImplicit false
set_option relaxedAutoImplicit false

namespace PathBinding

structure Settings where
  debug : Bool := true
  logLevel : String := "info"
  regexSizeLimit : Nat := 10485760
  defaultNoMatch : NoMatchPolicy := .rerouteToError "NotFound"
  selectionPolicy : SelectionPolicy := .declarationOrder
  missingMarker : String := "<missing:\x7b\x7d>"
  deriving DecidableEq, Repr

namespace Settings

private def fillMarks (name : List Char) : List Char → List Char
  | '\x7b' :: '\x7d' :: rest => name ++ fillMarks name rest
  | c :: rest => c :: fillMarks name rest
  | [] => []

/-- The marker of a missing value: each pair of braces stands for the name. -/
def missingMarkerFor (settings : Settings) (name : String) : String :=
  .ofList (fillMarks name.toList settings.missingMarker.toList)

end Settings

/-- A cell for settings that can be filled once and is filled with the defaults when it is read first. -/
structure SettingsCell where
  content : Option Settings := none
  deriving DecidableEq, Repr

namespace SettingsCell

def isConfigured (cell : SettingsCell) : Bool :=
  cell.content.isSome

/-- Fills an empty cell; a full cell refuses. -/
def configure? (cell : SettingsCell) (settings : Settings) : Option SettingsCell :=
  if cell.isConfigured then none else some ⟨some settings⟩

def get (cell : SettingsCell) : SettingsCell × Settings :=
  let settings := cell.content.getD {}
  (⟨some settings⟩, settings)

end SettingsCell

end PathBinding
