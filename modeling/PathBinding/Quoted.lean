import PathBinding.Character.Printable

/-!
Text in double quotes. Quotes and backslashes are escaped, and so is what would not show.
-/

set_option autoImplicit false
set_option relaxedAutoImplicit false

namespace PathBinding

private def quotedChar (c : Char) : List Char :=
  if c = '"' ∨ c = '\\' then ['\\', c]
  else if c = '\n' then ['\\', 'n']
  else if c = '\r' then ['\\', 'r']
  else if c = '\t' then ['\\', 't']
  else if c = '\x00' then ['\\', '0']
  else if Character.isPrintable c && !Character.extendsCluster c then [c]
  else '\\' :: 'u' :: '\x7b' :: (Nat.toDigits 16 c.toNat ++ ['\x7d'])

def quoted (text : String) : String :=
  .ofList ('"' :: text.toList.flatMap quotedChar ++ ['"'])

end PathBinding
