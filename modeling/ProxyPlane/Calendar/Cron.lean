import ProxyPlane.Calendar.Date
import ProxyPlane.Text.Blank

/-!
# Calendar expressions

An expression has a field each for seconds, minutes, hours, days of the month, months, days of the
week and, if one likes, years.  A field is a list of items with commas: a number, a range, `*`, or
one of these with a step, `*/15`; months and days of the week also have names.  `?` stands for `*`
in the two fields for days.  Five words are an expression without seconds.  An instant matches when
all its parts do, the day of the month as well as the day of the week.

Blanks around numbers and names belong to them, so that the fields need no blanks between them where
one cannot go on.

## Main definitions

* `Cron.Field`, `Cron.Item` — a kind of field, and what one holds.
* `Cron`, `Cron.parse?` — expressions, as the numbers that match in each field.
* `Cron.next?` — the first matching instant after another.
-/

set_option autoImplicit false
namespace ProxyPlane

/-- The numbers that match in each field, in increasing order. -/
structure Cron where
  seconds : List Nat
  minutes : List Nat
  hours : List Nat
  days : List Nat
  months : List Nat
  weekdays : List Nat
  years : List Nat
  deriving DecidableEq, Repr

namespace Cron

/-! ## Items -/

/-- What a step can be applied to. -/
inductive Base
  | all
  | point (n : Nat)
  | range (first last : Nat)
  | namedRange (first last : String)
  deriving DecidableEq, Repr

/-- One item of a field. -/
inductive Item
  | base (base : Base)
  | step (base : Base) (step : Nat)
  | named (name : String)
  deriving DecidableEq, Repr

/-- A text without the ASCII blanks at its beginning. -/
def skipBlanks (s : List Char) : List Char :=
  s.dropWhile fun c => c == ' ' || c == '\t' || c == '\r' || c == '\n'

/-- A run of characters of one class between blanks. -/
def readRun? (inClass : Char → Bool) (s : List Char) : Option (List Char × List Char) :=
  let s := skipBlanks s
  let run := s.takeWhile inClass
  if run.isEmpty then none else some (run, skipBlanks (s.dropWhile inClass))

/-- A number of at most 32 bits, and the blanks around it. -/
def readNumber? (s : List Char) : Option (Nat × List Char) := do
  let (run, rest) ← readRun? Char.isDigit s
  let n ← Text.readNat? 0xFFFFFFFF run
  return (n, rest)

/-- A name, and the blanks around it. -/
def readName? (s : List Char) : Option (String × List Char) :=
  (readRun? Char.isAlpha s).map fun (run, rest) => (String.ofList run, rest)

/-- What follows a character. -/
def readMark? (mark : Char) : List Char → Option (List Char)
  | [] => none
  | c :: rest => if c = mark then some rest else none

/-- `*`, a range, a number or a range of names; `?` too where it is allowed. -/
def readBase? (questionMark : Bool) (s : List Char) : Option (Base × List Char) :=
  (do
    let rest ← if questionMark then readMark? '?' s else none
    return (.all, rest))
  <|> (do
    let rest ← readMark? '*' s
    return (.all, rest))
  <|> (do
    let (first, rest) ← readNumber? s
    let rest ← readMark? '-' rest
    let (last, rest) ← readNumber? rest
    return (.range first last, rest))
  <|> (do
    let (n, rest) ← readNumber? s
    return (.point n, rest))
  <|> (do
    let (first, rest) ← readName? s
    let rest ← readMark? '-' rest
    let (last, rest) ← readName? rest
    return (.namedRange first last, rest))

/-- One item: with a step, without one, or a name. -/
def readItem? (questionMark : Bool) (s : List Char) : Option (Item × List Char) :=
  (do
    let (base, rest) ← readBase? questionMark s
    let rest ← readMark? '/' rest
    let (step, rest) ← readNumber? rest
    return (.step base step, rest))
  <|> (do
    let (base, rest) ← readBase? questionMark s
    return (.base base, rest))
  <|> (do
    let (name, rest) ← readName? s
    return (.named name, rest))

/-- The items after the first one, as far as a comma and an item follow. -/
def readMore (questionMark : Bool) : Nat → List Char → List Item × List Char
  | 0, s => ([], s)
  | fuel + 1, s =>
    match (readMark? ',' s).bind (readItem? questionMark) with
    | none => ([], s)
    | some (item, rest) =>
      let (items, rest) := readMore questionMark fuel rest
      (item :: items, rest)

/-- The items of a field, and the blanks around them. -/
def readItems? (questionMark : Bool) (s : List Char) : Option (List Item × List Char) := do
  let (item, rest) ← readItem? questionMark (skipBlanks s)
  let (items, rest) := readMore questionMark rest.length rest
  return (item :: items, skipBlanks rest)

/-! ## Fields -/

/-- A kind of field: its range and the names of its numbers. -/
structure Field where
  low : Nat
  high : Nat
  names : List (String × Nat)

/-- The names of months. -/
def monthNames : List (String × Nat) :=
  [("jan", 1), ("january", 1), ("feb", 2), ("february", 2), ("mar", 3), ("march", 3), ("apr", 4),
    ("april", 4), ("may", 5), ("jun", 6), ("june", 6), ("jul", 7), ("july", 7), ("aug", 8),
    ("august", 8), ("sep", 9), ("september", 9), ("oct", 10), ("october", 10), ("nov", 11),
    ("november", 11), ("dec", 12), ("december", 12)]

/-- The names of the days of the week. -/
def weekdayNames : List (String × Nat) :=
  [("sun", 1), ("sunday", 1), ("mon", 2), ("monday", 2), ("tue", 3), ("tues", 3), ("tuesday", 3),
    ("wed", 4), ("wednesday", 4), ("thu", 5), ("thurs", 5), ("thursday", 5), ("fri", 6),
    ("friday", 6), ("sat", 7), ("saturday", 7)]

namespace Field

def second : Field := ⟨0, 59, []⟩
def minute : Field := ⟨0, 59, []⟩
def hour : Field := ⟨0, 23, []⟩
def day : Field := ⟨1, 31, []⟩
def month : Field := ⟨1, 12, monthNames⟩
def weekday : Field := ⟨1, 7, weekdayNames⟩
def year : Field := ⟨1970, 2100, []⟩

/-- All numbers of a range. -/
def numbers (low high : Nat) : List Nat := (List.range (high + 1 - low)).map (low + ·)

/-- All numbers of a field. -/
def all (f : Field) : List Nat := numbers f.low f.high

/-- The number with a name, in either case. -/
def ofName? (f : Field) (name : String) : Option Nat :=
  f.names.lookup (String.ofList (name.toList.map Char.toLower))

/-- A number that the field has. -/
def check? (f : Field) (n : Nat) : Option Nat := if f.low ≤ n ∧ n ≤ f.high then some n else none

/-- The numbers of a range within the field. -/
def range? (f : Field) (first last : Nat) : Option (List Nat) := do
  let first ← f.check? first
  let last ← f.check? last
  if first ≤ last then some (numbers first last) else none

/-- The numbers that a base stands for. -/
def ofBase? (f : Field) : Base → Option (List Nat)
  | .all => some f.all
  | .point n => (f.check? n).map fun n => [n]
  | .range first last => f.range? first last
  | .namedRange first last => do f.range? (← f.ofName? first) (← f.ofName? last)

/-- Every `step`-th of some numbers, the first one included. -/
def everyNth (step : Nat) (numbers : List Nat) : List Nat :=
  (numbers.zipIdx.filter fun (_, i) => i % step == 0).map (·.1)

/-- The numbers that an item stands for.  A number with a step begins a range up to the end of the
field. -/
def ofItem? (f : Field) : Item → Option (List Nat)
  | .base base => f.ofBase? base
  | .named name => (f.ofName? name).map fun n => [n]
  | .step base step =>
    if step = 0 then none
    else
      let numbers := match base with
        | .point n => f.range? n f.high
        | base => f.ofBase? base
      numbers.map (everyNth step)

/-- The numbers that a field holds, in increasing order and each once. -/
def ofItems? (f : Field) (items : List Item) : Option (List Nat) := do
  let lists ← items.mapM f.ofItem?
  return f.all.filter fun n => lists.any fun l => l.contains n

/-- A field at the beginning of a text. -/
def read? (f : Field) (questionMark : Bool) (s : List Char) : Option (List Nat × List Char) := do
  let (items, rest) ← readItems? questionMark s
  let numbers ← f.ofItems? items
  return (numbers, rest)

end Field

/-! ## Expressions -/

/-- The expressions that have a word for themselves. -/
def shorthands : List (String × Cron) :=
  [("@yearly", ⟨[0], [0], [0], [1], [1], Field.weekday.all, Field.year.all⟩),
    ("@monthly", ⟨[0], [0], [0], [1], Field.month.all, Field.weekday.all, Field.year.all⟩),
    ("@weekly", ⟨[0], [0], [0], Field.day.all, Field.month.all, [1], Field.year.all⟩),
    ("@daily", ⟨[0], [0], [0], Field.day.all, Field.month.all, Field.weekday.all, Field.year.all⟩),
    ("@hourly",
      ⟨[0], [0], Field.hour.all, Field.day.all, Field.month.all, Field.weekday.all, Field.year.all⟩)]

/-- An expression written as one of those words. -/
def readShorthand? (s : List Char) : Option (Cron × List Char) :=
  let s := skipBlanks s
  shorthands.findSome? fun (word, cron) =>
    if word.toList.isPrefixOf s then some (cron, skipBlanks (s.drop word.toList.length)) else none

/-- An expression written field by field. -/
def readFields? (s : List Char) : Option (Cron × List Char) := do
  let (seconds, s) ← Field.second.read? false s
  let (minutes, s) ← Field.minute.read? false s
  let (hours, s) ← Field.hour.read? false s
  let (days, s) ← Field.day.read? true s
  let (months, s) ← Field.month.read? false s
  let (weekdays, s) ← Field.weekday.read? true s
  let (years, s) := (Field.year.read? false s).getD (Field.year.all, s)
  return (⟨seconds, minutes, hours, days, months, weekdays, years⟩, s)

/-- The expression that a text with seconds stands for. -/
def parseFull? (s : List Char) : Option Cron :=
  let whole (r : Cron × List Char) : Option Cron := if r.2.isEmpty then some r.1 else none
  match readShorthand? s with
  | some r => whole r
  | none => (readFields? s).bind whole

/-- The expression that a text stands for; five words begin with the minutes. -/
def parse? (text : String) : Option Cron :=
  let s := text.toList
  parseFull? (if (Text.words s).length = 5 then '0' :: ' ' :: s else s)

/-! ## Instants -/

/-- Whether a day matches. -/
def matchesDay (c : Cron) (day : Nat) : Bool :=
  let d := Date.ofDay day
  c.years.contains d.year && c.months.contains d.month && c.days.contains d.day
    && c.weekdays.contains (weekday day)

/-- The first matching second of a day from `second` on. -/
def firstSecond? (c : Cron) (second : Nat) : Option Nat :=
  c.hours.findSome? fun h =>
    if h < second / 3600 then none
    else c.minutes.findSome? fun m =>
      if h * 60 + m < second / 60 then none
      else (c.seconds.find? fun s => second ≤ h * 3600 + m * 60 + s).map fun s =>
        h * 3600 + m * 60 + s

/-- The first matching instant among `fuel` days from `day` on. -/
def firstOnDays? (c : Cron) : Nat → Nat → Option Instant
  | 0, _ => none
  | fuel + 1, day =>
    if c.matchesDay day then
      match c.firstSecond? 0 with
      | some s => some (Instant.ofDay day s)
      | none => firstOnDays? c fuel (day + 1)
    else firstOnDays? c fuel (day + 1)

/-- The first day that no expression reaches. -/
def endDay : Nat := Date.daysBeforeYear (Field.year.high + 1)

/-- The first matching instant after another. -/
def next? (c : Cron) (after : Instant) : Option Instant :=
  let from_ : Instant := max (after + 1) 0
  let day := from_.dayOf.toNat
  let today := if c.matchesDay day then c.firstSecond? from_.secondOfDay else none
  match today with
  | some s => some (Instant.ofDay day s)
  | none => firstOnDays? c (endDay - (day + 1)) (day + 1)

/-- Up to `count` matching instants after another. -/
def upcoming (c : Cron) : Nat → Instant → List Instant
  | 0, _ => []
  | count + 1, after =>
    match c.next? after with
    | none => []
    | some t => t :: upcoming c count t

end Cron
end ProxyPlane
