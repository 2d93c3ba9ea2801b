import PathBinding.Character.Edition
import PathBinding.Character.Segmentation

/-!
Character classes by name. A class is asked for by a property, a general category or a script, or by a property with a
value, where case, blanks, hyphens, underscores and a leading `is` do not matter.
-/

set_option autoImplicit false
set_option relaxedAutoImplicit false

namespace PathBinding.Character

/-- Names without the differences of spelling that do not matter. -/
def looseName (name : String) : String :=
  let letters := (name.toList.filter fun c ↦ c.toNat < 128 && c != ' ' && c != '_' && c != '-').map Char.toLower
  match name.toList with
  | first :: second :: _ =>
    if first.toLower = 'i' ∧ second.toLower = 's' then
      if letters = ['i', 's', 'c'] then "isc" else .ofList (letters.drop 2)
    else .ofList letters
  | _ => .ofList letters

/-- The general categories that a name stands for: one category, or a group of them. Surrogates are no characters. -/
def categoryCodes? (name : String) : Option (List String) :=
  match name with
  | "lc" | "casedletter" => some ["lu", "ll", "lt"]
  | "l" | "letter" => some ["lu", "ll", "lt", "lm", "lo"]
  | "m" | "mark" | "combiningmark" => some ["mn", "mc", "me"]
  | "n" | "number" => some ["nd", "nl", "no"]
  | "p" | "punctuation" | "punct" => some ["pc", "pd", "ps", "pe", "pi", "pf", "po"]
  | "s" | "symbol" => some ["sm", "sc", "sk", "so"]
  | "z" | "separator" => some ["zs", "zl", "zp"]
  | "c" | "other" => some ["cc", "cf", "co", "cn"]
  | "lu" | "uppercaseletter" => some ["lu"]
  | "ll" | "lowercaseletter" => some ["ll"]
  | "lt" | "titlecaseletter" => some ["lt"]
  | "lm" | "modifierletter" => some ["lm"]
  | "lo" | "otherletter" => some ["lo"]
  | "mn" | "nonspacingmark" => some ["mn"]
  | "mc" | "spacingmark" => some ["mc"]
  | "me" | "enclosingmark" => some ["me"]
  | "nd" | "decimalnumber" | "digit" => some ["nd"]
  | "nl" | "letternumber" => some ["nl"]
  | "no" | "othernumber" => some ["no"]
  | "pc" | "connectorpunctuation" => some ["pc"]
  | "pd" | "dashpunctuation" => some ["pd"]
  | "ps" | "openpunctuation" => some ["ps"]
  | "pe" | "closepunctuation" => some ["pe"]
  | "pi" | "initialpunctuation" => some ["pi"]
  | "pf" | "finalpunctuation" => some ["pf"]
  | "po" | "otherpunctuation" => some ["po"]
  | "sm" | "mathsymbol" => some ["sm"]
  | "sc" | "currencysymbol" => some ["sc"]
  | "sk" | "modifiersymbol" => some ["sk"]
  | "so" | "othersymbol" => some ["so"]
  | "zs" | "spaceseparator" => some ["zs"]
  | "zl" | "lineseparator" => some ["zl"]
  | "zp" | "paragraphseparator" => some ["zp"]
  | "cc" | "control" | "cntrl" => some ["cc"]
  | "cf" | "format" => some ["cf"]
  | "co" | "privateuse" => some ["co"]
  | "cn" | "unassigned" => some ["cn"]
  | _ => none

/-- The code points of a category, where unassigned ones have the code `cn`. -/
private def ofCode (code : String) : RangeTable :=
  if code = "cn" then assigned.compl else (categories.lookup code).getD []

def category? (name : String) : Option RangeTable :=
  match name with
  | "any" => some RangeTable.everything
  | "assigned" => some assigned
  | "ascii" => some [(0, 0x7F)]
  | _ => (categoryCodes? name).map fun codes ↦ .unions (codes.map ofCode)

/-- The class of a single name: a property before a general category before a script. The short names of the properties
that have values are left to the categories. -/
def classOfName? (name : String) : Option RangeTable :=
  let name := looseName name
  (property? name).orElse fun _ ↦ (category? name).orElse fun _ ↦ script? name

/-- The class of a property with a value. -/
def classOfValue? (name value : String) : Option RangeTable :=
  let value := looseName value
  match looseName name with
  | "gc" | "generalcategory" => category? value
  | "sc" | "script" => script? value
  | "scx" | "scriptextensions" => scriptExtension? value
  | "age" => assignedBy? value
  | "gcb" | "graphemeclusterbreak" => breakClass? clusterBreaks value
  | "wb" | "wordbreak" => breakClass? wordBreaks value
  | "sb" | "sentencebreak" => breakClass? sentenceBreaks value
  | _ => none

end PathBinding.Character
