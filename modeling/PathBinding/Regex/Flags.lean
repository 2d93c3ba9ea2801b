import PathBinding.Regex.Basic

/-!
The flags that a regular expression can switch inside itself. A switch holds to the end of the group it stands in.
-/

set_option autoImplicit false
set_option relaxedAutoImplicit false

namespace PathBinding.Regex

inductive Flag
  | ignoreCase
  | multiLine
  | dotAll
  | swapGreed
  | unicode
  | crlf
  | verbose
  deriving DecidableEq, Repr

def Flag.ofChar? : Char → Option Flag
  | 'i' => some .ignoreCase
  | 'm' => some .multiLine
  | 's' => some .dotAll
  | 'U' => some .swapGreed
  | 'u' => some .unicode
  | 'R' => some .crlf
  | 'x' => some .verbose
  | _ => none

structure Flags where
  ignoreCase : Bool := false
  multiLine : Bool := false
  dotAll : Bool := false
  swapGreed : Bool := false
  unicode : Bool := true
  crlf : Bool := false
  verbose : Bool := false
  deriving DecidableEq, Repr

/-- Flags to be switched on or off. -/
abbrev FlagChanges := List (Flag × Bool)

namespace Flags

def switch (flags : Flags) (change : Flag × Bool) : Flags :=
  match change.1 with
  | .ignoreCase => { flags with ignoreCase := change.2 }
  | .multiLine => { flags with multiLine := change.2 }
  | .dotAll => { flags with dotAll := change.2 }
  | .swapGreed => { flags with swapGreed := change.2 }
  | .unicode => { flags with unicode := change.2 }
  | .crlf => { flags with crlf := change.2 }
  | .verbose => { flags with verbose := change.2 }

def apply (flags : Flags) (changes : FlagChanges) : Flags :=
  changes.foldl switch flags

end Flags

/-- Reads flags up to a closing parenthesis or a colon. No flag may occur twice and one hyphen, which must not be the
last character, switches the flags behind it off. The answer tells whether a colon ends the flags. -/
def FlagChanges.read (used : List Flag) (negated dangling : Bool) :
    List Char → Option (FlagChanges × Bool × List Char)
  | [] => none
  | c :: rest =>
    if c = ')' ∨ c = ':' then if dangling then none else some ([], c == ':', rest)
    else if c = '-' then if negated then none else FlagChanges.read used true true rest
    else
      match Flag.ofChar? c with
      | none => none
      | some flag =>
        if flag ∈ used then none
        else (FlagChanges.read (flag :: used) negated false rest).map fun (changes, colon, rest) ↦
          ((flag, !negated) :: changes, colon, rest)

end PathBinding.Regex
