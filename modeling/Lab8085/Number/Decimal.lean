/-
  Lab8085.Number.Decimal

  Floating-point numbers from decimal text: digits with an optional point and an
  optional exponent, or a word for infinity or no number. The nearest double is
  taken.
-/
import Lab8085.Number.Integer

namespace Lab8085.Number

/-- Digits of any script in front of a text as a number, how many they are, and what follows.
    `acc` and `count` stand for the digits before. -/
def spanDigits (acc count : Nat) : List Char → Nat × Nat × List Char
  | [] => (acc, count, [])
  | c :: r =>
    match digitIn? 10 c with
    | some d => spanDigits (10 * acc + d) (count + 1) r
    | none => (acc, count, c :: r)

/-- An exponent that ends the text; no text is the exponent zero. -/
def exponent? (s : List Char) : Option Int :=
  match s with
  | [] => some 0
  | e :: r =>
    if e = 'e' || e = 'E' then
      let (negative, r) : Bool × List Char := match r with
        | '-' :: r => (true, r)
        | '+' :: r => (false, r)
        | r => (false, r)
      match spanDigits 0 0 r with
      | (_, 0, _) => none
      | (n, _, []) => some (if negative then -(n : Int) else n)
      | _ => none
    else none

/-- The double nearest to `m * 10^e`, where `m` has at most `size` digits. Beyond any double it is
    infinite, and below all of them zero. -/
def scaled (m size : Nat) (e : Int) : Float :=
  if m = 0 ∨ size + e < -330 then 0.0
  else if e > 310 then 1.0 / 0.0
  else Float.ofScientific m (e < 0) e.natAbs

/-- The positive number that a decimal text writes. -/
def magnitude? (s : List Char) : Option Float := do
  let (whole, n, r) := spanDigits 0 0 s
  let (all, count, r) : Nat × Nat × List Char := match r with
    | '.' :: r => spanDigits whole n r
    | r => (whole, n, r)
  if count = 0 then none
  let e ← exponent? r
  return scaled all count (e - (count - n : Nat))

/-- The number that a text in lower case writes, with an optional sign; blanks around it do not
    matter. -/
def float? (s : List Char) : Option Float :=
  let positive? (s : List Char) : Option Float :=
    if s = "inf".toList || s = "infinity".toList then some (1.0 / 0.0)
    else if s = "nan".toList then some (0.0 / 0.0)
    else magnitude? s
  match Text.trimWhere isBlank s with
  | '-' :: r => (positive? r).map fun x => -x
  | '+' :: r => positive? r
  | r => positive? r

end Lab8085.Number
