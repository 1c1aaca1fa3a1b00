/-
  Lab8085.Number.Integer

  Integers in configuration text, in any base, with an optional sign. Digits of any
  script are read, and single underscores may stand between digits.
-/
import Lab8085.Number.Limit
import Lab8085.Text.Blank
import Lab8085.Text.DigitTable

namespace Lab8085.Number

/-- The value of a digit in a base: a decimal digit of any script or a Latin letter. -/
def digitIn? (base : Nat) (c : Char) : Option Nat :=
  let v : Option Nat :=
    match Text.digitValue? c with
    | some d => some d
    | none =>
      if 97 ≤ c.toNat ∧ c.toNat ≤ 122 then some (c.toNat - 87)
      else if 65 ≤ c.toNat ∧ c.toNat ≤ 90 then some (c.toNat - 55)
      else none
  v.filter (· < base)

/-- The number that digits write after `acc`. An underscore must stand between two digits:
    `afterDigit` tells whether one may come now. -/
def digitsFrom (base acc : Nat) (afterDigit : Bool) : List Char → Option Nat
  | [] => if afterDigit then some acc else none
  | c :: r =>
    if c = '_' then
      if afterDigit then digitsFrom base acc false r else none
    else do digitsFrom base (base * acc + (← digitIn? base c)) true r

/-- The natural number that digits write. -/
def natural? (base : Nat) (s : List Char) : Option Nat :=
  digitsFrom base 0 false s

/-- The letter of the mark `0b`, `0o` or `0x` that may stand before the digits of a base. -/
def mark? : Nat → Option Char
  | 2 => some 'b'
  | 8 => some 'o'
  | 16 => some 'x'
  | _ => none

/-- The number that digits write after their mark, if it is there; an underscore may follow the
    mark. -/
def marked? (base : Nat) (s : List Char) : Option Nat :=
  match s with
  | '0' :: c :: r =>
    if mark? base = some c.toLower then
      match r with
      | '_' :: r => natural? base r
      | r => natural? base r
    else natural? base s
  | s => natural? base s

/-- Why a text writes no integer that is read. -/
inductive IntegerFault where
  | noNumber
  | tooManyDigits (count : Nat)
  deriving DecidableEq, Repr

/-- The natural number that a text writes in a base. Only the length of decimal numbers is
    limited. -/
def unsigned (base : Nat) (s : List Char) : Except IntegerFault Nat :=
  match marked? base s with
  | none => .error .noNumber
  | some n =>
    let count := (s.filter (· != '_')).length
    if base = 10 && DigitLimit.standard.exceeded count then .error (.tooManyDigits count) else .ok n

/-- Blanks that may stand around a number: those of text except the separators `0x1C` to `0x1F`. -/
def isBlank (c : Char) : Bool :=
  Text.isBlank c && !(0x1C ≤ c.toNat && c.toNat ≤ 0x1F)

/-- The integer that a text writes in a base, with an optional sign; blanks around it do not
    matter. -/
def integer (base : Nat) (s : List Char) : Except IntegerFault Int :=
  match Text.trimWhere isBlank s with
  | '-' :: r => (unsigned base r).map fun n => -(n : Int)
  | '+' :: r => (unsigned base r).map fun n => (n : Int)
  | r => (unsigned base r).map fun n => (n : Int)

end Lab8085.Number
