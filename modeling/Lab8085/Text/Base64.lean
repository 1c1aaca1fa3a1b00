/-
  Lab8085.Text.Base64

  Bytes written in base 64: four characters for three bytes. Equals signs fill the
  last group and end the text. Other ASCII characters are passed over.
-/
import Lab8085.Word

namespace Lab8085.Text.Base64

/-- The value of a digit in base 64. -/
def digit? (c : Char) : Option Nat :=
  if 'A' ≤ c ∧ c ≤ 'Z' then some (c.toNat - 65)
  else if 'a' ≤ c ∧ c ≤ 'z' then some (c.toNat - 71)
  else if '0' ≤ c ∧ c ≤ '9' then some (c.toNat + 4)
  else if c = '+' then some 62
  else if c = '/' then some 63
  else none

/-- The bytes of a text after the bytes `acc` (latest first). Of the group under way `place`
    digits have been read, whose bits not yet used are `rest`, and `fill` equals signs. The last
    group must be complete. -/
def decodeFrom (place rest fill : Nat) (acc : List Byte) : List Char → Option (List Byte)
  | [] => if place = 0 then some acc.reverse else none
  | c :: r =>
    if c = '=' then
      if 2 ≤ place then
        if 4 ≤ place + (fill + 1) then some acc.reverse else decodeFrom place rest (fill + 1) acc r
      else decodeFrom place rest fill acc r
    else
      match digit? c with
      | none => decodeFrom place rest fill acc r
      | some d =>
        match place with
        | 0 => decodeFrom 1 d 0 acc r
        | 1 => decodeFrom 2 (d % 16) 0 (BitVec.ofNat 8 (rest * 4 + d / 16) :: acc) r
        | 2 => decodeFrom 3 (d % 4) 0 (BitVec.ofNat 8 (rest * 16 + d / 4) :: acc) r
        | _ => decodeFrom 0 0 0 (BitVec.ofNat 8 (rest * 64 + d) :: acc) r

/-- The bytes that a text writes. -/
def decode? (s : List Char) : Option (List Byte) :=
  if s.all fun c => c.toNat < 0x80 then decodeFrom 0 0 0 [] s else none

end Lab8085.Text.Base64
