/-
  Lab8085.Arithmetic

  The flag rules shared by the arithmetic and logic instructions: parity of a byte,
  and carry and borrow between its two halves. The half carries are defined on
  numbers of any size, of which only the last four bits count.
-/
import Lab8085.Word

namespace Lab8085

/-- How many bits of a byte are on. -/
def onesCount (b : Byte) : Nat :=
  (List.range 8).countP b.getLsbD

/-- Even parity: the number of ones is even. -/
def evenParity (b : Byte) : Bool :=
  onesCount b % 2 == 0

/-- Adding the lower halves (and the carry) gives a carry into the upper half. -/
def halfCarry (x y : Int) (carry : Int) : Bool :=
  x % 16 + y % 16 + carry > 15

/-- Subtracting the lower halves (and the borrow) borrows from the upper half. -/
def halfBorrow (x y : Int) (borrow : Int) : Bool :=
  x % 16 - y % 16 - borrow < 0

end Lab8085
