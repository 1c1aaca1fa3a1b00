/-
  Lab8085.Text.UpperCase

  Upper case of names. Register and flag names are ASCII, so only letters whose
  upper case is an ASCII letter matter: the ASCII letters, the dotless i and the
  long s. Every other character stands for itself, which makes the name unknown
  either way.
-/

namespace Lab8085.Text

/-- A letter in upper case, if its upper case is ASCII. -/
def upperChar (c : Char) : Char :=
  if c.toNat = 0x131 then 'I'
  else if c.toNat = 0x17F then 'S'
  else c.toUpper

/-- A name in upper case. -/
def upperName (s : String) : String :=
  String.ofList (s.toList.map upperChar)

end Lab8085.Text
