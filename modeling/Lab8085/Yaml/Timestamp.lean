/-
  Lab8085.Yaml.Timestamp

  Dates and moments as they are written in documents: year, month and day with
  hyphens; then, after a `T` or blanks, a time of day, perhaps with a fraction of a
  second and a time zone. Month, day and hour may have a single digit.
-/
import Lab8085.Yaml.Fault

namespace Lab8085.Yaml

/-- A date as it is written, and the moment if there is a time of day. -/
structure Timestamp where
  date : Date
  moment : Option Moment

namespace Timestamp

/-! ## Digits -/

/-- A number of exactly `n` digits in front of a text, and what follows. `acc` stands for the
    digits before. -/
def exactly (acc : Nat) : Nat → List Char → Option (Nat × List Char)
  | 0, r => some (acc, r)
  | n + 1, c :: r => if c.isDigit then exactly (10 * acc + (c.toNat - 48)) n r else none
  | _ + 1, [] => none

/-- A number of two digits, or else of one, in front of a text. -/
def oneOrTwo (s : List Char) : Option (Nat × List Char) :=
  (exactly 0 2 s).or (exactly 0 1 s)

/-- What follows a mark that must come now. -/
def after (mark : Char) (s : List Char) : Option (List Char) :=
  match s with
  | c :: r => if c = mark then some r else none
  | [] => none

def isBlank (c : Char) : Bool :=
  c == ' ' || c == '\t'

/-! ## Parts -/

/-- The part of a second that decimal digits write, in microseconds; further digits are dropped. -/
def micro (ds : List Char) : Nat :=
  ((ds ++ List.replicate 6 '0').take 6).foldl (fun n c => 10 * n + (c.toNat - 48)) 0

/-- A fraction of a second, if there is one, in microseconds. -/
def fraction (s : List Char) : Nat × List Char :=
  match s with
  | '.' :: r => (micro (r.takeWhile Char.isDigit), r.dropWhile Char.isDigit)
  | r => (0, r)

/-- A time zone that ends the text, in minutes. -/
def zone? (s : List Char) : Option Int := do
  let offset (r : List Char) : Option Int := do
    let (hours, r) ← oneOrTwo r
    if r.isEmpty then return hours * 60
    let (minutes, r) ← exactly 0 2 (← after ':' r)
    if r.isEmpty then return hours * 60 + minutes else none
  match s.dropWhile isBlank with
  | ['Z'] => return 0
  | '+' :: r => offset r
  | '-' :: r => return -(← offset r)
  | _ => none

/-- A time of day that ends the text. -/
def time? (date : Date) (s : List Char) : Option Moment := do
  let (hour, r) ← oneOrTwo s
  let (minute, r) ← exactly 0 2 (← after ':' r)
  let (second, r) ← exactly 0 2 (← after ':' r)
  let (micro, r) := fraction r
  let offset ← if r.isEmpty then pure none else (zone? r).map some
  return ⟨date, hour, minute, second, micro, offset⟩

/-- A date, and perhaps a time of day. -/
def ofText? (s : List Char) : Option Timestamp := do
  let (year, r) ← exactly 0 4 s
  let (month, r) ← oneOrTwo (← after '-' r)
  let (day, r) ← oneOrTwo (← after '-' r)
  let date : Date := ⟨year, month, day⟩
  match r with
  | [] => return ⟨date, none⟩
  | c :: r =>
    if c = 'T' ∨ c = 't' then return ⟨date, some (← time? date r)⟩
    else if isBlank c then return ⟨date, some (← time? date (r.dropWhile isBlank))⟩
    else none

/-- Whether a text is a timestamp even without a tag: a date alone must have all its ten
    characters. -/
def isPlain (s : List Char) : Bool :=
  match ofText? s with
  | some t => t.moment.isSome || s.length == 10
  | none => false

end Timestamp

end Lab8085.Yaml
