/-
  Lab8085.Word

  Bytes and words. Numbers of any size enter the machine through `BitVec.ofInt`,
  which keeps their low bits, negative numbers in two's complement.
-/

namespace Lab8085

/-- Eight bits: a register, a memory cell, a port. -/
abbrev Byte := BitVec 8

/-- Sixteen bits: an address, a register pair. -/
abbrev Word := BitVec 16

/-- The word with the given upper and lower byte. -/
def joinBytes (high low : Byte) : Word :=
  high ++ low

def highByte (w : Word) : Byte :=
  w.extractLsb' 8 8

def lowByte (w : Word) : Byte :=
  w.extractLsb' 0 8

/-! ## Small laws -/

theorem toNat_joinBytes (high low : Byte) :
    (joinBytes high low).toNat = 256 * high.toNat + low.toNat := by
  have := low.isLt
  simp only [joinBytes, BitVec.toNat_append]
  rw [Nat.shiftLeft_eq, Nat.mul_comm, ← Nat.two_pow_add_eq_or_of_lt (by omega)]

theorem toNat_highByte (w : Word) : (highByte w).toNat = w.toNat / 256 := by
  have := w.isLt
  simp only [highByte, BitVec.extractLsb'_toNat, Nat.shiftRight_eq_div_pow]
  omega

theorem toNat_lowByte (w : Word) : (lowByte w).toNat = w.toNat % 256 := by
  simp [lowByte]

@[simp] theorem highByte_joinBytes (high low : Byte) : highByte (joinBytes high low) = high := by
  have := high.isLt; have := low.isLt
  apply BitVec.eq_of_toNat_eq
  rw [toNat_highByte, toNat_joinBytes]
  omega

@[simp] theorem lowByte_joinBytes (high low : Byte) : lowByte (joinBytes high low) = low := by
  have := low.isLt
  apply BitVec.eq_of_toNat_eq
  rw [toNat_lowByte, toNat_joinBytes]
  omega

@[simp] theorem joinBytes_high_low (w : Word) : joinBytes (highByte w) (lowByte w) = w := by
  apply BitVec.eq_of_toNat_eq
  rw [toNat_joinBytes, toNat_highByte, toNat_lowByte]
  omega

end Lab8085
