/-
  Lab8085.Yaml.Content

  What the text of a scalar stands for under its tag. Integers are binary after
  `0b`, hexadecimal after `0x`, octal after a zero, and sexagesimal with colons;
  underscores in numbers do not matter.
-/
import Lab8085.Number.Decimal
import Lab8085.Text.Base64
import Lab8085.Text.LowerCase
import Lab8085.Value
import Lab8085.Yaml.Tag

namespace Lab8085.Yaml.Content

/-! ## Numbers -/

/-- The sign of a number and the text after it, without underscores. -/
def signed (text : List Char) : Reading (Bool × List Char) :=
  match text.filter (· != '_') with
  | [] => .error .emptyNumber
  | '-' :: r => .ok (true, r)
  | '+' :: r => .ok (false, r)
  | r => .ok (false, r)

/-- Digits in a base. -/
def digits (base : Nat) (text : List Char) : Reading Int :=
  match Number.integer base text with
  | .ok n => .ok n
  | .error .noNumber => .error (.notInteger base (String.ofList text))
  | .error (.tooManyDigits count) => .error (.tooManyDigits count)

/-- The parts of a text between colons. -/
def parts (text : List Char) : List (List Char) :=
  text.splitOn ':'

/-- An integer without its sign. -/
def natural (text : List Char) : Reading Int :=
  match text with
  | [] => .error .emptyNumber
  | ['0'] => .ok 0
  | '0' :: 'b' :: r => digits 2 r
  | '0' :: 'x' :: r => digits 16 r
  | '0' :: _ => digits 8 text
  | _ => do
    let ds ← (parts text).mapM (digits 10)
    return ds.foldl (fun n d => 60 * n + d) 0

def integer (text : List Char) : Reading Int := do
  let (negative, body) ← signed text
  let n ← natural body
  return if negative then -n else n

/-- A decimal number. -/
def decimal (text : List Char) : Reading Float :=
  match Number.float? text with
  | some x => .ok x
  | none => .error (.notFloat (String.ofList text))

/-- The least number that is beyond every floating-point number. -/
def beyondFloat : Nat := Nat.pow 2 1024 - Nat.pow 2 970

/-- The value of sexagesimal digits, the last of them worth `unit`; they are added up from the
    last. -/
def sexagesimal (unit : Nat) (acc : Float) : List Float → Reading Float
  | [] => .ok acc
  | d :: ds =>
    if beyondFloat ≤ unit then .error .overflow
    else sexagesimal (60 * unit) (acc + d * Float.ofNat unit) ds

def float (text : List Char) : Reading Float := do
  let (negative, body) ← signed (Text.lower text)
  let sign : Float := if negative then -1.0 else 1.0
  if body = ".inf".toList then return sign * (1.0 / 0.0)
  else if body = ".nan".toList then return 0.0 / 0.0
  else if body.contains ':' then
    let ds ← (parts body).mapM decimal
    return sign * (← sexagesimal 1 0.0 ds.reverse)
  else return sign * (← decimal body)

/-! ## Words, timestamps and bytes -/

/-- A truth value, written as a word in any case. -/
def truth (text : List Char) : Reading Bool :=
  let word := String.ofList (Text.lower text)
  if ["yes", "true", "on"].contains word then .ok true
  else if ["no", "false", "off"].contains word then .ok false
  else .error (.notTruth word)

/-- A date or moment, which must exist in the calendar. -/
def timestamp (text : List Char) : Reading Value :=
  match Timestamp.ofText? (Tag.withoutLastBreak text) with
  | none => .error .notDate
  | some ⟨_, some m⟩ => (m.check.map Value.moment).mapError .calendar
  | some ⟨d, none⟩ => (d.check.map Value.date).mapError .calendar

/-- The value of a text under a tag. -/
def value (tag : Tag) (text : List Char) : Reading Value :=
  match tag with
  | .null => .ok .null
  | .bool => (truth text).map .bool
  | .int => (integer text).map .int
  | .float => (float text).map .float
  | .timestamp => timestamp text
  | .binary => (wellFormed (Text.Base64.decode? text)).map .bytes
  | .str => .ok (.text (String.ofList text))
  | .seq | .orderedMap | .pairs | .set | .map | .merge | .default | .other => malformed

end Lab8085.Yaml.Content
