/-!
The characters with a meaning in regular expressions, and text in which a backslash takes that meaning away.
-/

set_option autoImplicit false
set_option relaxedAutoImplicit false

namespace PathBinding.Regex

def metaCharacters : List Char :=
  ['\\', '.', '+', '*', '?', '(', ')', '|', '[', ']', '\x7b', '\x7d', '^', '$', '#', '&', '-', '~']

def isMeta (c : Char) : Bool :=
  metaCharacters.contains c

/-- An expression that matches the text and nothing else. -/
def escape (text : String) : String :=
  .ofList (text.toList.flatMap fun c ↦ if isMeta c then ['\\', c] else [c])

end PathBinding.Regex
