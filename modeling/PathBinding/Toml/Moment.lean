import PathBinding.Decimal

/-!
Dates, times of day and both together. Text keeps at most nine digits of a second, which are cut and not rounded; what is
written has none that end in zero.
-/

set_option autoImplicit false
set_option relaxedAutoImplicit false

namespace PathBinding.Toml

structure Date where
  year : Nat
  month : Nat
  day : Nat
  deriving DecidableEq, Repr

structure TimeOfDay where
  hour : Nat
  minute : Nat
  second : Nat
  nanosecond : Nat
  deriving DecidableEq, Repr

/-- The distance of local time from universal time. -/
inductive Offset
  | universal
  | east (minutes : Int)
  deriving DecidableEq, Repr

inductive Moment
  | date (day : Date)
  | time (clock : TimeOfDay)
  | dateTime (day : Date) (clock : TimeOfDay) (offset? : Option Offset)
  deriving DecidableEq, Repr

namespace Date

def isLeap (year : Nat) : Bool :=
  year % 4 == 0 && (year % 100 != 0 || year % 400 == 0)

def monthLength (year month : Nat) : Nat :=
  if month = 2 then if isLeap year then 29 else 28
  else if month ∈ [4, 6, 9, 11] then 30
  else 31

end Date

private def padded (width number : Nat) : String :=
  let digits := Nat.toDigits 10 number
  .ofList (List.replicate (width - digits.length) '0' ++ digits)

def Date.render (date : Date) : String :=
  padded 4 date.year ++ "-" ++ padded 2 date.month ++ "-" ++ padded 2 date.day

def TimeOfDay.render (time : TimeOfDay) : String :=
  let whole := padded 2 time.hour ++ ":" ++ padded 2 time.minute ++ ":" ++ padded 2 time.second
  if time.nanosecond = 0 then whole
  else
    let digits := ((padded 9 time.nanosecond).toList.reverse.dropWhile (· == '0')).reverse
    whole ++ "." ++ .ofList digits

def Offset.render : Offset → String
  | .universal => "Z"
  | .east minutes =>
    (if minutes < 0 then "-" else "+") ++ padded 2 (minutes.natAbs / 60) ++ ":" ++ padded 2 (minutes.natAbs % 60)

def Moment.render : Moment → String
  | .date day => day.render
  | .time clock => clock.render
  | .dateTime day clock offset? => day.render ++ "T" ++ clock.render ++ (offset?.map Offset.render).getD ""

/-- A number of so many digits that lies between two bounds. -/
private def readField (width low high : Nat) (text : List Char) : Option (Nat × List Char) :=
  let digits := text.take width
  let number := Decimal.ofDigits digits
  if digits.length = width ∧ digits.all Char.isDigit ∧ low ≤ number ∧ number ≤ high then
    some (number, text.drop width)
  else none

private def readMark (mark : Char) : List Char → Option (List Char)
  | c :: rest => if c = mark then some rest else none
  | [] => none

def Date.read? (text : List Char) : Option (Date × List Char) := do
  let (year, rest) ← readField 4 0 9999 text
  let (month, rest) ← readField 2 1 12 (← readMark '-' rest)
  let (day, rest) ← readField 2 1 (monthLength year month) (← readMark '-' rest)
  return (⟨year, month, day⟩, rest)

/-- The digits of a second behind its point, as nanoseconds. -/
private def readNanoseconds : List Char → Nat × List Char
  | '.' :: rest =>
    match rest.span Char.isDigit with
    | ([], _) => (0, '.' :: rest)
    | (digits, rest) =>
      let kept := digits.take 9
      (Decimal.ofDigits kept * Nat.pow 10 (9 - kept.length), rest)
  | text => (0, text)

/-- Reads a time whose hour goes up to a given one. -/
private def readClock (lastHour : Nat) (text : List Char) : Option (TimeOfDay × List Char) := do
  let (hour, rest) ← readField 2 0 lastHour text
  let (minute, rest) ← readField 2 0 59 (← readMark ':' rest)
  let (second, rest) ← readField 2 0 60 (← readMark ':' rest)
  let (nanosecond, rest) := readNanoseconds rest
  return (⟨hour, minute, second, nanosecond⟩, rest)

def TimeOfDay.read? (text : List Char) : Option (TimeOfDay × List Char) :=
  readClock 23 text

/-- Reads an offset whose hours and minutes go up to given numbers. -/
private def readOffset (lastHour lastMinute : Nat) (text : List Char) : Option (Offset × List Char) := do
  let (east, rest) ← match text with
    | 'Z' :: rest | 'z' :: rest => return (.universal, rest)
    | '+' :: rest => some (true, rest)
    | '-' :: rest => some (false, rest)
    | _ => none
  let (hour, rest) ← readField 2 0 lastHour rest
  let (minute, rest) ← readField 2 0 lastMinute (← readMark ':' rest)
  let minutes : Int := hour * 60 + minute
  return (.east (if east then minutes else -minutes), rest)

def Offset.read? (text : List Char) : Option (Offset × List Char) :=
  readOffset 23 59 text

/-- The text behind the letter or the one blank that parts a time from a date. -/
private def readSeparator : List Char → Option (List Char)
  | 'T' :: rest | 't' :: rest | ' ' :: rest => some rest
  | _ => none

def Moment.read? (text : List Char) : Option (Moment × List Char) :=
  match Date.read? text with
  | none => (TimeOfDay.read? text).map fun (clock, rest) ↦ (.time clock, rest)
  | some (day, rest) =>
    match (readSeparator rest).bind TimeOfDay.read? with
    | none => some (.date day, rest)
    | some (clock, rest) =>
      match Offset.read? rest with
      | none => some (.dateTime day clock none, rest)
      | some (offset, rest) => some (.dateTime day clock (some offset), rest)

/-- An offset of a quoted moment, which may be a day and may count more than sixty minutes. -/
private def quotedOffset? (text : List Char) : Option Offset :=
  match readOffset 99 99 text with
  | some (.east minutes, []) => if minutes.natAbs ≤ 24 * 60 then some (.east minutes) else none
  | some (.universal, []) => some .universal
  | _ => none

/-- The moment that a whole text denotes. Within quotes the hour may be the twenty-fourth. -/
def Moment.ofQuoted? (text : String) : Option Moment :=
  match Date.read? text.toList with
  | none =>
    match readClock 24 text.toList with
    | some (clock, []) => some (.time clock)
    | _ => none
  | some (day, []) => some (.date day)
  | some (day, rest) => do
    let (clock, rest) ← readClock 24 (← readSeparator rest)
    match rest with
    | [] => return .dateTime day clock none
    | rest => return .dateTime day clock (some (← quotedOffset? rest))

end PathBinding.Toml
