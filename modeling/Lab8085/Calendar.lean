/-
  Lab8085.Calendar

  Dates of the Gregorian calendar, and moments: a date with a time of day and
  perhaps an offset from universal time. Moments with an offset are equal when they
  are the same instant.
-/

namespace Lab8085

/-- A date. -/
structure Date where
  year : Nat
  month : Nat
  day : Nat
  deriving DecidableEq, Repr

/-- A date with a time of day; the offset from universal time is in minutes. -/
structure Moment where
  date : Date
  hour : Nat
  minute : Nat
  second : Nat
  micro : Nat
  offset : Option Int
  deriving DecidableEq, Repr

/-- What is wrong with a date or moment. -/
inductive CalendarFault where
  | year (given : Nat)
  | month
  | day
  | hour
  | minute
  | second
  | offset (minutes : Int)
  deriving DecidableEq, Repr

namespace Calendar

/-! ## Texts of numbers -/

/-- A number with at least `width` decimal digits. -/
def digits (width n : Nat) : String :=
  let s := toString n
  String.ofList (List.replicate (width - s.length) '0') ++ s

def commas (ns : List Nat) : String :=
  ", ".intercalate (ns.map toString)

/-! ## The calendar -/

def isLeap (year : Nat) : Bool :=
  year % 4 == 0 && (year % 100 != 0 || year % 400 == 0)

/-- How many days a month has. -/
def daysIn (year month : Nat) : Nat :=
  if month = 2 then (if isLeap year then 29 else 28)
  else if [4, 6, 9, 11].contains month then 30
  else 31

/-- Days before a year, counted from the beginning of the year 1. -/
def daysBefore (year : Nat) : Nat :=
  let y := year - 1
  365 * y + y / 4 - y / 100 + y / 400

/-- How a span of minutes is shown in messages: whole days, which may be negative, and seconds. -/
def span (minutes : Int) : String :=
  let days := minutes / 1440
  let seconds := minutes % 1440 * 60
  let parts := (if days = 0 then [] else ["days=" ++ toString days]) ++
    (if seconds = 0 then [] else ["seconds=" ++ toString seconds])
  "datetime.timedelta(" ++ (if parts.isEmpty then "0" else ", ".intercalate parts) ++ ")"

end Calendar

namespace CalendarFault

def message : CalendarFault → String
  | .year given => "year " ++ toString given ++ " is out of range"
  | .month => "month must be in 1..12"
  | .day => "day is out of range for month"
  | .hour => "hour must be in 0..23"
  | .minute => "minute must be in 0..59"
  | .second => "second must be in 0..59"
  | .offset minutes =>
    "offset must be a timedelta strictly between -timedelta(hours=24) and timedelta(hours=24), not " ++
      Calendar.span minutes ++ "."

end CalendarFault

namespace Date

open Calendar

/-- A date, if there is one with these numbers; years have at most four digits. -/
def check (d : Date) : Except CalendarFault Date :=
  if d.year = 0 ∨ 9999 < d.year then .error (.year d.year)
  else if d.month = 0 ∨ 12 < d.month then .error .month
  else if d.day = 0 ∨ daysIn d.year d.month < d.day then .error .day
  else .ok d

/-- Days since the beginning of the year 1. -/
def number (d : Date) : Nat :=
  let months := List.range (d.month - 1)
  months.foldl (fun n m => n + daysIn d.year (m + 1)) (daysBefore d.year) + d.day

/-- A date as it is shown in messages. -/
def shown (d : Date) : String :=
  "datetime.date(" ++ commas [d.year, d.month, d.day] ++ ")"

/-- A date as plain text. -/
def text (d : Date) : String :=
  digits 4 d.year ++ "-" ++ digits 2 d.month ++ "-" ++ digits 2 d.day

end Date

namespace Moment

open Calendar

/-- A moment, if there is one with these numbers. The offset is looked at first; it must be less
    than a day. -/
def check (m : Moment) : Except CalendarFault Moment := do
  match m.offset with
  | some n => if 1440 ≤ n.natAbs then throw (.offset n)
  | none => pure ()
  let _ ← m.date.check
  if 23 < m.hour then throw .hour
  if 59 < m.minute then throw .minute
  if 59 < m.second then throw .second
  return m

/-- Microseconds since the beginning of the year 1, by the moment's own clock. -/
def clock (m : Moment) : Int :=
  (((m.date.number * 24 + m.hour) * 60 + m.minute) * 60 + m.second) * 1000000 + m.micro

/-- Microseconds since the beginning of the year 1 in universal time, for a moment with an
    offset. -/
def instant? (m : Moment) : Option Int :=
  m.offset.map fun minutes => m.clock - minutes * 60000000

/-- Moments are compared as instants when both have an offset, and are different when only one
    has. -/
def same (a b : Moment) : Bool :=
  match a.instant?, b.instant? with
  | some x, some y => x == y
  | none, none => a.clock == b.clock
  | _, _ => false

/-- An offset as it is shown in messages. -/
def shownOffset (minutes : Int) : String :=
  if minutes = 0 then "datetime.timezone.utc" else "datetime.timezone(" ++ span minutes ++ ")"

/-- A moment as it is shown in messages, without seconds or microseconds that are zero at the
    end. -/
def shown (m : Moment) : String :=
  let time := if m.micro ≠ 0 then [m.second, m.micro] else if m.second ≠ 0 then [m.second] else []
  let zone := match m.offset with
    | none => ""
    | some n => ", tzinfo=" ++ shownOffset n
  "datetime.datetime(" ++
    commas ([m.date.year, m.date.month, m.date.day, m.hour, m.minute] ++ time) ++ zone ++ ")"

/-- A moment as plain text. -/
def text (m : Moment) : String :=
  let micro := if m.micro = 0 then "" else "." ++ digits 6 m.micro
  let zone := match m.offset with
    | none => ""
    | some n => (if n < 0 then "-" else "+") ++ digits 2 (n.natAbs / 60) ++ ":" ++
        digits 2 (n.natAbs % 60)
  m.date.text ++ " " ++ digits 2 m.hour ++ ":" ++ digits 2 m.minute ++ ":" ++ digits 2 m.second ++
    micro ++ zone

end Moment

end Lab8085
