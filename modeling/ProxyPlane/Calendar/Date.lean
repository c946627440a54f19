import ProxyPlane.Text.Decimal

/-!
# Dates and instants

The Gregorian calendar from the year 0 on, and instants as whole seconds since the beginning of 1970.

## Main definitions

* `Date`, `Date.toDay`, `Date.ofDay` — dates and the number of days since the beginning of the year 0.
* `Instant.ofText?`, `Instant.render` — instants as text in universal time.
* `weekday` — the day of the week, from Sunday as one.
-/

set_option autoImplicit false
namespace ProxyPlane

/-- A date. -/
structure Date where
  year : Nat
  month : Nat
  day : Nat
  deriving DecidableEq, Repr

namespace Date

/-- Whether a year has a 29th of February. -/
def isLeap (year : Nat) : Bool := year % 4 == 0 && (year % 100 != 0 || year % 400 == 0)

/-- The number of days of a month. -/
def daysIn (year month : Nat) : Nat :=
  if month = 2 then (if isLeap year then 29 else 28)
  else if month = 4 ∨ month = 6 ∨ month = 9 ∨ month = 11 then 30
  else 31

/-- The number of days before a year. -/
def daysBeforeYear (year : Nat) : Nat :=
  365 * year + (year + 3) / 4 + (year + 399) / 400 - (year + 99) / 100

/-- The number of days of a year before a month. -/
def daysBeforeMonth (year month : Nat) : Nat :=
  ((List.range (month - 1)).map fun m => daysIn year (m + 1)).foldl (· + ·) 0

/-- The number of days before a date. -/
def toDay (d : Date) : Nat := daysBeforeYear d.year + daysBeforeMonth d.year d.month + (d.day - 1)

/-- The year of a day. -/
def yearOf (day : Nat) : Nat :=
  let y := day * 400 / 146097
  if daysBeforeYear (y + 1) ≤ day then y + 1 else if day < daysBeforeYear y then y - 1 else y

/-- The date of a day. -/
def ofDay (day : Nat) : Date :=
  let year := yearOf day
  let rest := day - daysBeforeYear year
  let month := ((List.range 11).takeWhile fun m => daysBeforeMonth year (m + 2) ≤ rest).length + 1
  ⟨year, month, rest - daysBeforeMonth year month + 1⟩

/-- The day of 1 January 1970. -/
def epochDay : Nat := 719528

end Date

/-- The day of the week of a day: one for Sunday up to seven for Saturday. -/
def weekday (day : Nat) : Nat := (day + 6) % 7 + 1

/-- Seconds since the beginning of 1970. -/
abbrev Instant := Int

namespace Instant

/-- The seconds of a day. -/
def daySeconds : Int := 86400

/-- The number of days before an instant, from the year 0 on. -/
def dayOf (t : Instant) : Int := t / daySeconds + Date.epochDay

/-- The seconds since the beginning of the day. -/
def secondOfDay (t : Instant) : Nat := (t % daySeconds).toNat

/-- The instant at a second of a day. -/
def ofDay (day second : Nat) : Instant := ((day : Int) - Date.epochDay) * daySeconds + second

/-- Two digits. -/
def twoDigits (n : Nat) : String := (if n < 10 then "0" else "") ++ toString n

/-- Four digits. -/
def fourDigits (n : Nat) : String :=
  String.ofList (List.replicate (4 - (toString n).length) '0') ++ toString n

/-- An instant in universal time, to the second. -/
def render (t : Instant) : String :=
  let d := Date.ofDay t.dayOf.toNat
  let s := t.secondOfDay
  fourDigits d.year ++ "-" ++ twoDigits d.month ++ "-" ++ twoDigits d.day ++ "T" ++ twoDigits (s / 3600)
    ++ ":" ++ twoDigits (s / 60 % 60) ++ ":" ++ twoDigits (s % 60) ++ "Z"

/-- The number of the next `n` digits, and what follows. -/
def takeNumber? (n : Nat) (s : List Char) : Option (Nat × List Char) :=
  if (s.take n).length = n then (Text.natOfDigits? (s.take n)).map fun v => (v, s.drop n) else none

/-- What follows one character out of some. -/
def takeChar? (options : List Char) : List Char → Option (List Char)
  | [] => none
  | c :: rest => if options.contains c then some rest else none

/-- The distance of a zone from universal time, in seconds. -/
def zone? : List Char → Option Int
  | ['Z'] | ['z'] => some 0
  | sign :: rest => do
    let (hours, rest) ← takeNumber? 2 rest
    let rest ← takeChar? [':'] rest
    let (minutes, rest) ← takeNumber? 2 rest
    let size : Int := hours * 3600 + minutes * 60
    if !rest.isEmpty || minutes > 59 then none
    else if sign = '+' then return size
    else if sign = '-' then return -size
    else none
  | [] => none

/-- The instant that a date with time and zone stands for, without its fraction of a second. -/
def ofText? (s : List Char) : Option Instant := do
  let (year, s) ← takeNumber? 4 s
  let s ← takeChar? ['-'] s
  let (month, s) ← takeNumber? 2 s
  let s ← takeChar? ['-'] s
  let (day, s) ← takeNumber? 2 s
  let s ← takeChar? ['T', 't', ' '] s
  let (hour, s) ← takeNumber? 2 s
  let s ← takeChar? [':'] s
  let (minute, s) ← takeNumber? 2 s
  let s ← takeChar? [':'] s
  let (second, s) ← takeNumber? 2 s
  let s := match s with
    | '.' :: rest => rest.dropWhile Char.isDigit
    | s => s
  let offset ← zone? s
  if 1 ≤ month ∧ month ≤ 12 ∧ 1 ≤ day ∧ day ≤ Date.daysIn year month ∧ hour ≤ 23 ∧ minute ≤ 59
      ∧ second ≤ 60 then
    return ofDay (Date.toDay ⟨year, month, day⟩) (hour * 3600 + minute * 60 + min second 59) - offset
  else none

end Instant
end ProxyPlane
