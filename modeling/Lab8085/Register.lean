/-
  Lab8085.Register

  The names of the programmer's model: seven byte registers, the five register
  pairs that instructions can name, and the five flags, with their places in
  instruction codes and in the flag byte.
-/
import Lab8085.Word

namespace Lab8085

/-- The byte registers, in the order of their three-bit field (6 stands for memory). -/
inductive Register where
  | b | c | d | e | h | l | a
  deriving DecidableEq, Repr, Inhabited

namespace Register

def all : List Register := [.b, .c, .d, .e, .h, .l, .a]

/-- The three-bit field that names the register in an instruction code. -/
def field : Register → Nat
  | .b => 0 | .c => 1 | .d => 2 | .e => 3 | .h => 4 | .l => 5 | .a => 7

def name : Register → String
  | .b => "B" | .c => "C" | .d => "D" | .e => "E" | .h => "H" | .l => "L" | .a => "A"

/-- The register of a name in upper case. -/
def ofName? (name : String) : Option Register :=
  all.find? fun r => r.name == name

end Register

/-- The register pairs; `psw` is the accumulator over the flag byte. -/
inductive Pair where
  | b | d | h | sp | psw
  deriving DecidableEq, Repr, Inhabited

namespace Pair

def all : List Pair := [.b, .d, .h, .sp, .psw]

/-- What bits 4 and 5 add to an instruction code; the stack pointer and the status word share
    a field and are told apart by the instruction. -/
def field : Pair → Nat
  | .b => 0x00 | .d => 0x10 | .h => 0x20 | .sp => 0x30 | .psw => 0x30

def name : Pair → String
  | .b => "B" | .d => "D" | .h => "H" | .sp => "SP" | .psw => "PSW"

/-- The pair of a name in upper case. -/
def ofName? (name : String) : Option Pair :=
  all.find? fun p => p.name == name

end Pair

/-- The condition flags: sign, zero, auxiliary carry, parity, carry. -/
inductive Flag where
  | s | z | ac | p | c
  deriving DecidableEq, Repr, Inhabited

namespace Flag

/-- All flags, from the highest bit of the flag byte to the lowest. -/
def all : List Flag := [.s, .z, .ac, .p, .c]

/-- The bit of the flag byte. -/
def bit : Flag → Byte
  | .s => 0x80#8 | .z => 0x40#8 | .ac => 0x10#8 | .p => 0x04#8 | .c => 0x01#8

def name : Flag → String
  | .s => "S" | .z => "Z" | .ac => "AC" | .p => "P" | .c => "C"

/-- The flag of a name in upper case. -/
def ofName? (name : String) : Option Flag :=
  all.find? fun f => f.name == name

end Flag

end Lab8085
