/-
  Lab8085.Text.Hex

  Hexadecimal numbers in text. A number is padded with zeros to a least width; the
  width counts the minus sign of a negative number, and, for numbers written with
  `0x`, that mark too.
-/

namespace Lab8085.Text

/-- The upper-case hexadecimal digit of a value below sixteen. -/
def hexDigit (n : Nat) : Char :=
  if n < 10 then Char.ofNat (48 + n) else Char.ofNat (55 + n)

/-- The last `k` hexadecimal digits of a number, most significant first. -/
def lowHexDigits : Nat → Nat → List Char
  | 0, _ => []
  | k + 1, n => lowHexDigits k (n / 16) ++ [hexDigit (n % 16)]

/-- How many hexadecimal digits a number needs, at least one. -/
def hexLength (n : Nat) : Nat :=
  n.log2 / 4 + 1

/-- A number with at least `width` hexadecimal digits. -/
def padHex (width n : Nat) : List Char :=
  lowHexDigits (max width (hexLength n)) n

/-- The sign of a number: nothing unless it is negative. -/
def signChars (v : Int) : List Char :=
  if v < 0 then ['-'] else []

/-- Upper-case hexadecimal, at least `width` characters with the sign. -/
def hex (width : Nat) (v : Int) : String :=
  String.ofList (signChars v ++ padHex (width - (signChars v).length) v.natAbs)

/-- An address in a message: lower case after `0x`, at least six characters in all. -/
def hexAddress (v : Int) : String :=
  String.ofList (signChars v ++ '0' :: 'x' ::
    (padHex (4 - (signChars v).length) v.natAbs).map Char.toLower)

/-- The two digits of a byte. -/
def hexByte (b : BitVec 8) : List Char :=
  lowHexDigits 2 b.toNat

/-- The four digits of a word. -/
def hexWord (w : BitVec 16) : List Char :=
  lowHexDigits 4 w.toNat

/-! ## Small laws -/

theorem length_lowHexDigits (k n : Nat) : (lowHexDigits k n).length = k := by
  induction k generalizing n with
  | zero => rfl
  | succ k ih => simp [lowHexDigits, ih]

/-- A byte needs no more than its two digits. -/
theorem hex_two_byte (b : BitVec 8) : hex 2 b.toNat = String.ofList (hexByte b) := by
  have hb : b.toNat < 2 ^ 8 := b.isLt
  have hl : hexLength b.toNat ≤ 2 := by
    unfold hexLength
    by_cases h0 : b.toNat = 0
    · rw [h0]; decide
    · have := (Nat.log2_lt h0).2 hb
      omega
  have hneg : ¬ ((b.toNat : Int) < 0) := by omega
  simp [hex, signChars, padHex, hexByte, hneg, Nat.max_eq_left hl]

/-- A word needs no more than its four digits. -/
theorem hex_four_word (w : BitVec 16) : hex 4 w.toNat = String.ofList (hexWord w) := by
  have hw : w.toNat < 2 ^ 16 := w.isLt
  have hl : hexLength w.toNat ≤ 4 := by
    unfold hexLength
    by_cases h0 : w.toNat = 0
    · rw [h0]; decide
    · have := (Nat.log2_lt h0).2 hw
      omega
  have hneg : ¬ ((w.toNat : Int) < 0) := by omega
  simp [hex, signChars, padHex, hexWord, hneg, Nat.max_eq_left hl]

end Lab8085.Text
