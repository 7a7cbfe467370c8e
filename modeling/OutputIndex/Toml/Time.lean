import OutputIndex.Digits

/-!
# Dates and times

A date is a day of the calendar, and a time is one of the day, given to the second or to a fraction
of it.  Both together are a moment, which can say how far it is from universal time.  Every field
has its number of digits, and its range.

A date or time is written in one form only: with seconds, with a fraction only if there is one, and
with capital letters.
-/

namespace OutputIndex.Toml

/-- A day of the calendar. -/
structure Date where
  year : Nat
  month : Nat
  day : Nat
deriving DecidableEq

/-- A time of the day. -/
structure Time where
  hour : Nat
  minute : Nat
  second : Nat
  /-- The digits of the fraction of the second. -/
  fraction : List Char
deriving DecidableEq

/-- How far a moment is from universal time. -/
inductive Offset where
  /-- Not at all. -/
  | none
  /-- Some minutes before it or behind it. -/
  | minutes (negative : Bool) (count : Nat)
deriving DecidableEq

/-- A date, a time, or both. -/
inductive Moment where
  | date (date : Date)
  | time (time : Time)
  | both (date : Date) (time : Time) (offset : Option Offset)
deriving DecidableEq

/-! ## Reading -/

/-- Reads a number of `count` digits from `low` to `high`. -/
def readField (count low high : Nat) (input : List Char) : Option (Nat × List Char) :=
  let digits := input.take count
  let value := Digits.value digits
  if digits.length = count ∧ digits.all Char.isDigit ∧ low ≤ value ∧ value ≤ high then
    some (value, input.drop count)
  else none

/-- Reads a character. -/
def readMark (mark : Char) : List Char → Option (List Char)
  | c :: rest => if c = mark then some rest else none
  | [] => none

namespace Date

/-- Whether a year has a day more. -/
def isLeap (year : Nat) : Bool := year % 4 == 0 && (year % 100 != 0 || year % 400 == 0)

/-- The number of days of a month. -/
def daysIn (year month : Nat) : Nat :=
  if month = 2 then if isLeap year then 29 else 28
  else if [4, 6, 9, 11].contains month then 30
  else 31

/-- Reads a date. -/
def read (input : List Char) : Option (Date × List Char) := do
  let (year, rest) ← readField 4 0 9999 input
  let (month, rest) ← readField 2 1 12 (← readMark '-' rest)
  let (day, rest) ← readField 2 1 (daysIn year month) (← readMark '-' rest)
  return (⟨year, month, day⟩, rest)

end Date

/-- Reads the fraction of a second, which keeps nine digits. -/
def readFraction : List Char → Option (List Char × List Char)
  | '.' :: rest =>
    let digits := rest.takeWhile Char.isDigit
    if digits.isEmpty then none else some (digits.take 9, rest.dropWhile Char.isDigit)
  | rest => some ([], rest)

/-- Reads a time; its seconds can be left out. -/
def Time.read (input : List Char) : Option (Time × List Char) := do
  let (hour, rest) ← readField 2 0 23 input
  let (minute, rest) ← readField 2 0 59 (← readMark ':' rest)
  match rest with
  | ':' :: rest =>
    -- the sixtieth is a leap second
    let (second, rest) ← readField 2 0 60 rest
    let (fraction, rest) ← readFraction rest
    return (⟨hour, minute, second, fraction⟩, rest)
  | rest => return (⟨hour, minute, 0, []⟩, rest)

/-- Reads the offset at the end of a text, if there is one. -/
def Offset.read? : List Char → Option (Option Offset)
  | [] => some Option.none
  | ['Z'] => some (some .none)
  | ['z'] => some (some .none)
  | sign :: rest => do
    let negative ← if sign = '-' then some true else if sign = '+' then some false else Option.none
    let (hours, rest) ← readField 2 0 23 rest
    let (count, rest) ← readField 2 0 59 (← readMark ':' rest)
    if rest.isEmpty then some (some (.minutes negative (60 * hours + count))) else Option.none

namespace Moment

/-- The moment that a text is. -/
def ofChars? (input : List Char) : Option Moment :=
  match Date.read input with
  | some (day, []) => some (.date day)
  | some (day, mark :: rest) => do
    -- behind a date stands a time or nothing
    if mark ≠ 'T' ∧ mark ≠ 't' ∧ mark ≠ ' ' then none
    else
      let (hour, rest) ← Time.read rest
      return .both day hour (← Offset.read? rest)
  | none => do
    let (hour, rest) ← Time.read input
    if rest.isEmpty then some (.time hour) else none

/-- Whether a text can only be a moment: it begins with digits and a dash or colon. -/
def isBegun (input : List Char) : Bool :=
  match input.dropWhile Char.isDigit with
  | c :: _ => input.head?.any Char.isDigit && (c == '-' || c == ':')
  | [] => false

end Moment

/-! ## Writing -/

/-- The text of a number with at least `count` digits. -/
def padded (count value : Nat) : String :=
  let digits := Nat.toDigits 10 value
  String.ofList (List.replicate (count - digits.length) '0' ++ digits)

/-- The text of a date. -/
def Date.text (date : Date) : String :=
  padded 4 date.year ++ "-" ++ padded 2 date.month ++ "-" ++ padded 2 date.day

/-- The text of a time. -/
def Time.text (time : Time) : String :=
  let fraction := (time.fraction.reverse.dropWhile (· == '0')).reverse
  padded 2 time.hour ++ ":" ++ padded 2 time.minute ++ ":" ++ padded 2 time.second
    ++ (if fraction.isEmpty then "" else "." ++ String.ofList fraction)

/-- The text of an offset. -/
def Offset.text : Offset → String
  | .none => "Z"
  | .minutes negative count =>
    (if negative ∧ count ≠ 0 then "-" else "+") ++ padded 2 (count / 60) ++ ":"
      ++ padded 2 (count % 60)

/-- The text of a moment. -/
def Moment.text : Moment → String
  | .date day => day.text
  | .time hour => hour.text
  | .both day hour offset => day.text ++ "T" ++ hour.text ++ offset.elim "" Offset.text

end OutputIndex.Toml
