/-
  Lab8085.RegisterMap

  The programmer's model by name: byte registers, pairs and control registers as
  numbers, flags as truth values, and how a screen groups them.
-/
import Lab8085.State

namespace Lab8085

namespace State

/-- The registers, pairs and control registers by name. -/
def registerMap (s : State) : List (String × Nat) :=
  (Register.all.map fun r => (r.name, (s.registers.get r).toNat)) ++
    [("BC", (s.pair .b).toNat), ("DE", (s.pair .d).toNat), ("HL", (s.pair .h).toNat),
     ("PSW", (s.pair .psw).toNat), ("PC", s.pc.toNat), ("SP", s.sp.toNat), ("IM", s.mask.toNat)]

/-- The value of a name of the register map. -/
def named? (s : State) (name : String) : Option Nat :=
  s.registerMap.lookup name

/-- The flags by name. -/
def flagMap (s : State) : List (String × Bool) :=
  Flag.all.map fun f => (f.name, s.flags.get f)

end State

/-- How registers are grouped on a screen, with their widths in bits. -/
def registerLayout : List (String × List (String × Nat)) :=
  [("Registers", [("A", 8), ("BC", 16), ("DE", 16), ("HL", 16), ("PSW", 16)]),
   ("Control", [("PC", 16), ("SP", 16), ("IM", 8)])]

end Lab8085
