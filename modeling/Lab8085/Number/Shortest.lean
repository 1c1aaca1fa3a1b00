/-
  Lab8085.Number.Shortest

  Shortest decimal text of a binary floating-point number: the fewest digits that
  read back as the same number, and of those the nearest. Numbers from 0.0001 up to
  10^16 are written with a point, others with an exponent of at least two digits.
-/

namespace Lab8085.Number

/-- The leading bit of the significands of normal numbers, `2^52`, which is not written down. -/
def hiddenBit : Nat := 0x10000000000000

/-- A positive real interval around `m * 2^q`, all over the denominator `den`: the numbers that
    round to it. The ends belong to it when `closed`. -/
structure Rounding where
  value : Nat
  low : Nat
  high : Nat
  den : Nat
  closed : Bool

/-- The numbers that round to the double with significand `m` and exponent `q`. Below a power of
    two the neighbours lie half as far apart, the smallest exponent apart. -/
def Rounding.of (m : Nat) (q : Int) : Rounding :=
  let unit := Nat.pow 2 q.toNat
  let below := if m = hiddenBit ∧ q > -1074 then unit else 2 * unit
  { value := 4 * m * unit
    low := 4 * m * unit - below
    high := 4 * m * unit + 2 * unit
    den := 4 * Nat.pow 2 (-q).toNat
    closed := m % 2 == 0 }

namespace Rounding

/-- Whether `c * 10^e` lies in the interval. -/
def contains (r : Rounding) (c : Nat) (e : Int) : Bool :=
  let f := Nat.pow 10 (-e).toNat
  let x := c * r.den * Nat.pow 10 e.toNat
  if r.closed then r.low * f ≤ x && x ≤ r.high * f else r.low * f < x && x < r.high * f

/-- The grid points of step `10^e` on both sides of the value, the nearer first; of two equally
    near ones the even one. -/
def neighbours (r : Rounding) (e : Int) : List Nat :=
  let num := r.value * Nat.pow 10 (-e).toNat
  let den := r.den * Nat.pow 10 e.toNat
  let c := num / den
  let twice := 2 * (num % den)
  if twice < den ∨ (twice = den ∧ c % 2 = 0) then [c, c + 1] else [c + 1, c]

/-- The exponent of the first decimal digit. -/
def magnitude (r : Rounding) : Int :=
  let exponents := (List.range 640).map fun (k : Nat) => (309 : Int) - k
  let reached (e : Int) : Bool := r.den * Nat.pow 10 e.toNat ≤ r.value * Nat.pow 10 (-e).toNat
  (exponents.find? reached).getD (-330)

/-- Digits `c` and exponent `e` of the shortest `c * 10^e` in the interval. -/
def shortest (r : Rounding) : Nat × Int :=
  let top := r.magnitude
  let tries := (List.range 17).flatMap fun (k : Nat) =>
    let e := top - k
    (r.neighbours e).map fun c => (c, e)
  (tries.find? fun p => r.contains p.1 p.2).getD (r.value / r.den, 0)

end Rounding

/-- Sign, significand and exponent of the bits of a finite double. -/
def significand (bits : UInt64) : Bool × Nat × Int :=
  let n := bits.toNat
  let fraction : Nat := n % hiddenBit
  let exponent : Nat := n / hiddenBit % 2048
  (n / hiddenBit / 2048 = 1,
    if exponent = 0 then (fraction, -1074) else (fraction + hiddenBit, (exponent : Int) - 1075))

/-- Digits without trailing zeros, and the exponent that they lose. -/
def dropZeros : Nat → Nat → Int → Nat × Int
  | 0, c, e => (c, e)
  | fuel + 1, c, e => if c % 10 = 0 ∧ c ≠ 0 then dropZeros fuel (c / 10) (e + 1) else (c, e)

/-- Where positional notation begins and ends: the exponent of the first digit. -/
def positional (top : Int) : Bool :=
  -4 ≤ top && top < 16

/-- The digits `c` scaled by `10^e`, in positional or exponential notation. -/
def layOut (c : Nat) (e : Int) : String :=
  let digits := (toString c).toList
  let top := e + digits.length - 1
  if positional top then
    if 0 ≤ e then String.ofList (digits ++ List.replicate e.toNat '0' ++ ['.', '0'])
    else if 0 ≤ top then
      String.ofList (digits.take (top.toNat + 1) ++ '.' :: digits.drop (top.toNat + 1))
    else String.ofList ('0' :: '.' :: List.replicate (-top - 1).toNat '0' ++ digits)
  else
    let fraction := digits.drop 1
    let mantissa := digits.take 1 ++ (if fraction.isEmpty then [] else '.' :: fraction)
    let size := toString top.natAbs
    String.ofList mantissa ++ "e" ++ (if top < 0 then "-" else "+") ++
      (if size.length < 2 then "0" ++ size else size)

/-- The whole number that a double is, if it is one. -/
def whole? (x : Float) : Option Int :=
  if x.isNaN || x.isInf then none
  else
    let (negative, m, q) := significand x.toBits
    let den := Nat.pow 2 (-q).toNat
    if m % den = 0 then
      let n : Int := (m / den * Nat.pow 2 q.toNat : Nat)
      some (if negative then -n else n)
    else none

/-- The shortest text of a double. -/
def text (x : Float) : String :=
  if x.isNaN then "nan"
  else if x.isInf then (if x < 0 then "-inf" else "inf")
  else
    let (negative, m, q) := significand x.toBits
    let body :=
      if m = 0 then "0.0"
      else
        let (c, e) := (Rounding.of m q).shortest
        let (c, e) := dropZeros 20 c e
        layOut c e
    if negative then "-" ++ body else body

end Lab8085.Number
