import PathBinding.Numeral
import PathBinding.Settings

/-!
Settings from environment variables. Each variable concerns one field; a number or a policy that cannot be read leaves
its field alone.
-/

set_option autoImplicit false
set_option relaxedAutoImplicit false

namespace PathBinding

/-- Environment variables with their texts. -/
abbrev Environment := List (String × String)

namespace Environment

/-- Whether a text, in any case, says yes. -/
def isYes (text : String) : Bool :=
  ["true", "1", "yes"].contains text.toLower

def policy? (text : String) : Option SelectionPolicy :=
  match text.toLower with
  | "declaration_order" => some .declarationOrder
  | "most_captured" => some .mostCaptured
  | _ => none

def limit? (text : String) : Option Nat :=
  (Numeral.readWord text.toList).toOption

/-- The settings with the variables laid over them. -/
def override (environment : Environment) (settings : Settings) : Settings :=
  { settings with
    debug := ((environment.lookup "URLMAP_DEBUG").map isYes).getD settings.debug
    logLevel := (environment.lookup "URLMAP_LOG_LEVEL").getD settings.logLevel
    regexSizeLimit := ((environment.lookup "URLMAP_REGEX_SIZE_LIMIT").bind limit?).getD settings.regexSizeLimit
    selectionPolicy := ((environment.lookup "URLMAP_SELECTION_POLICY").bind policy?).getD settings.selectionPolicy
    missingMarker := (environment.lookup "URLMAP_MISSING_MARKER").getD settings.missingMarker }

end Environment

end PathBinding
