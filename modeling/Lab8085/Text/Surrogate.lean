/-
  Lab8085.Text.Surrogate

  Code points that are no characters. An escape may name a surrogate, which is a
  code point but no character. Inside a text it is kept as a stand-in: the character
  in plane 10, where no characters are assigned, with the same low sixteen bits.
-/

namespace Lab8085.Text

/-- How far above its code point a surrogate is kept. -/
def standInShift : Nat := 0xA0000

/-- Whether a code point is a surrogate. -/
def isSurrogate (n : Nat) : Bool :=
  0xD800 ≤ n && n ≤ 0xDFFF

/-- What a text holds for a code point, if there is such a code point. -/
def charOf? (n : Nat) : Option Char :=
  if isSurrogate n then some (Char.ofNat (n + standInShift))
  else if n < 0x110000 then some (Char.ofNat n)
  else none

/-- The code point that a character of a text is kept for. -/
def codePoint (c : Char) : Nat :=
  if isSurrogate (c.toNat - standInShift) then c.toNat - standInShift else c.toNat

end Lab8085.Text
