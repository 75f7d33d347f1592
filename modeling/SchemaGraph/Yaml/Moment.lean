import SchemaGraph.Yaml.Fault
import SchemaGraph.Yaml.Token

namespace SchemaGraph.Yaml

/-!
# Dates

A date stands alone or with the time of day, which may have an offset from universal time.
The form of a text decides whether it is meant as a date; the calendar decides whether
there is such a date.

* `Moment.ofText?` — the date that a text is meant as
* `Moment.check`   — whether the calendar has the date
* `Moment.text`    — the date as diagnostics show it
-/

/-- The time of day. -/
structure Clock where
  hour : Nat
  minute : Nat
  second : Nat
  /-- Millionths of a second. -/
  fraction : Nat := 0
  /-- The offset from universal time, in seconds. -/
  offset : Option Int := none
deriving DecidableEq, Repr, Inhabited

/-- A date, alone or with the time of day. -/
structure Moment where
  year : Nat
  month : Nat
  day : Nat
  clock : Option Clock := none
deriving DecidableEq, Repr, Inhabited

namespace Moment

/-! ### From texts -/

/-- Decimal digits as a number. -/
def number (digits : List Char) : Nat :=
  digits.foldl (fun n c => n * 10 + (c.toNat - 48)) 0

/-- Takes between the given numbers of digits; returns the number they spell and the rest. -/
def takeNumber? (least most : Nat) (cs : List Char) : Option (Nat × List Char) :=
  let n := min most (cs.takeWhile Char.isDigit).length
  if least ≤ n then some (number (cs.take n), cs.drop n) else none

/-- Takes one character. -/
def takeChar? (c : Char) (cs : List Char) : Option (List Char) :=
  if cs.head? = some c then some cs.tail else none

/-- The millionths in the digits behind a point; further digits do not count. -/
def millionths (digits : List Char) : Nat :=
  let first := digits.take 6
  number (first ++ List.replicate (6 - first.length) '0')

/-- What is left behind the time of day: nothing, or an offset. -/
def offset? (cs : List Char) : Option (Option Int) :=
  let signed := cs.dropWhile isBlank
  if cs.isEmpty then some none
  else if signed = ['Z'] then some (some 0)
  else
    match signed with
    | sign :: rest =>
      if sign = '+' || sign = '-' then do
        let (hours, rest) ← takeNumber? 1 2 rest
        let minutes ←
          if rest.isEmpty then some 0
          else do
            let rest ← takeChar? ':' rest
            let (minutes, rest) ← takeNumber? 2 2 rest
            if rest.isEmpty then some minutes else none
        let seconds : Int := ((hours * 60 + minutes) * 60 : Nat)
        some (some (if sign = '-' then -seconds else seconds))
      else none
    | [] => none

/-- The time of day. -/
def clock? (cs : List Char) : Option Clock := do
  let (hour, rest) ← takeNumber? 1 2 cs
  let rest ← takeChar? ':' rest
  let (minute, rest) ← takeNumber? 2 2 rest
  let rest ← takeChar? ':' rest
  let (second, rest) ← takeNumber? 2 2 rest
  let (fraction, rest) := match rest with
    | '.' :: more => (millionths (more.takeWhile Char.isDigit), more.dropWhile Char.isDigit)
    | _ => (0, rest)
  let offset ← offset? rest
  some { hour, minute, second, fraction, offset }

/-- Year, month and day; the latter two have at least the given number of digits. -/
def date? (least : Nat) (cs : List Char) : Option (Moment × List Char) := do
  let (year, rest) ← takeNumber? 4 4 cs
  let rest ← takeChar? '-' rest
  let (month, rest) ← takeNumber? least 2 rest
  let rest ← takeChar? '-' rest
  let (day, rest) ← takeNumber? least 2 rest
  some ({ year, month, day }, rest)

/-- The text behind what separates a date from the time of day. -/
def behindDate? (cs : List Char) : Option (List Char) :=
  match cs with
  | 'T' :: rest => some rest
  | 't' :: rest => some rest
  | c :: rest => if isBlank c then some (rest.dropWhile isBlank) else none
  | [] => none

/-- The date that a text is meant as. -/
def ofText? (cs : List Char) : Option Moment :=
  match date? 2 cs with
  | some (moment, []) => some moment
  | _ => do
    let (moment, rest) ← date? 1 cs
    let clock ← clock? (← behindDate? rest)
    some { moment with clock }

/-! ### The calendar -/

/-- Whether a year has a leap day. -/
def isLeap (year : Nat) : Bool := year % 4 = 0 && (year % 100 ≠ 0 || year % 400 = 0)

/-- The number of days of a month. -/
def daysIn (year month : Nat) : Nat :=
  if month = 2 then (if isLeap year then 29 else 28)
  else if [4, 6, 9, 11].contains month then 30
  else 31

/-- What is wrong with the time of day. -/
def clockFault? (c : Clock) : Option OutOfRange :=
  if 23 < c.hour then some .hour
  else if 59 < c.minute then some .minute
  else if 59 < c.second then some .second
  else none

/-- What is wrong with an offset. -/
def offsetFault? (seconds : Int) : Option OutOfRange :=
  if seconds.natAbs < 86400 then none else some (.offset seconds)

/-- What is wrong with year, month and day. -/
def dateFault? (m : Moment) : Option OutOfRange :=
  if m.year = 0 then some (.year m.year)
  else if m.month = 0 || 12 < m.month then some .month
  else if m.day = 0 || daysIn m.year m.month < m.day then some .day
  else none

/-- The first fault of a date: the offset is looked at before the day, the day before the
    time of day. -/
def fault? (m : Moment) : Option OutOfRange :=
  ((m.clock.bind fun c => c.offset.bind offsetFault?).or m.dateFault?).or
    (m.clock.bind clockFault?)

/-- A date that the calendar has. -/
def check (m : Moment) : Except OutOfRange Moment :=
  match m.fault? with
  | some f => .error f
  | none => .ok m

/-! ### In diagnostics -/

/-- An offset from universal time. -/
def zoneText (seconds : Int) : String :=
  if seconds = 0 then "datetime.timezone.utc"
  else "datetime.timezone(" ++ spanText seconds ++ ")"

/-- The parts of the time of day; seconds and their fraction only as far as they count. -/
def clockParts (c : Clock) : List String :=
  let numbers :=
    if c.fraction ≠ 0 then [c.hour, c.minute, c.second, c.fraction]
    else if c.second ≠ 0 then [c.hour, c.minute, c.second]
    else [c.hour, c.minute]
  numbers.map toString ++ (c.offset.map fun s => "tzinfo=" ++ zoneText s).toList

/-- A date as diagnostics show it. -/
def text (m : Moment) : String :=
  let date := [m.year, m.month, m.day].map toString
  match m.clock with
  | none => "datetime.date(" ++ ", ".intercalate date ++ ")"
  | some c => "datetime.datetime(" ++ ", ".intercalate (date ++ clockParts c) ++ ")"

end Moment

end SchemaGraph.Yaml
