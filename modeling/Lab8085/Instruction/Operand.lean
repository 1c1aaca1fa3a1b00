/-
  Lab8085.Instruction.Operand

  Operands. An operand is either built into the opcode (a register or the memory
  byte at HL, a register pair, a restart number) or follows it as one or two bytes.
  The kind of an instruction's operand fixes which choices there are.
-/
import Lab8085.Register

namespace Lab8085

/-- A byte operand that is not immediate: a register, or the memory byte that HL points at. -/
inductive Place where
  | register (r : Register)
  | memory
  deriving DecidableEq, Repr

namespace Place

/-- The three-bit field in an instruction code. -/
def field : Place → Nat
  | .register r => r.field
  | .memory => 6

def name : Place → String
  | .register r => r.name
  | .memory => "M"

end Place

/-- What an opcode has built in. -/
inductive Choice where
  | absent
  | place (p : Place)
  | pair (p : Pair)
  | index (n : Fin 8)
  deriving DecidableEq, Repr

namespace Choice

/-- The operand as it is written, if there is one. -/
def name? : Choice → Option String
  | .absent => none
  | .place p => some p.name
  | .pair p => some p.name
  | .index n => some (toString n.val)

end Choice

/-- The kinds of operand that instructions take. -/
inductive OperandKind where
  | none | byte | word | label | register | place | pairOrSp | pairOrPsw | pairBD | index
  deriving DecidableEq, Repr, Inhabited

namespace OperandKind

def all : List OperandKind :=
  [.none, .byte, .word, .label, .register, .place, .pairOrSp, .pairOrPsw, .pairBD, .index]

/-- The word for a kind in tables of instructions. -/
def name : OperandKind → String
  | .none => "none"
  | .byte => "data8"
  | .word => "data16"
  | .label => "label_address16"
  | .register => "register"
  | .place => "register_or_memory"
  | .pairOrSp => "register_pair_or_sp"
  | .pairOrPsw => "register_pair_or_psw"
  | .pairBD => "register_pair_bd"
  | .index => "index3"

def ofName? (name : String) : Option OperandKind :=
  all.find? fun k => k.name == name

/-- How many operands are written. -/
def operandCount : OperandKind → Nat
  | .none => 0
  | _ => 1

/-- How many bytes follow the opcode. -/
def extraBytes : OperandKind → Nat
  | .byte => 1
  | .word | .label => 2
  | _ => 0

def isPair : OperandKind → Bool
  | .pairOrSp | .pairOrPsw | .pairBD => true
  | _ => false

/-- The operands that can be built into the opcode, in the order of their opcodes' listing. -/
def choices : OperandKind → List Choice
  | .register => Register.all.map fun r => .place (.register r)
  | .place => (Register.all.map fun r => .place (.register r)) ++ [.place .memory]
  | .pairBD => [.pair .b, .pair .d]
  | .pairOrSp => [.pair .b, .pair .d, .pair .h, .pair .sp]
  | .pairOrPsw => [.pair .b, .pair .d, .pair .h, .pair .psw]
  | .index => (List.finRange 8).map .index
  | .none | .byte | .word | .label => [.absent]

end OperandKind

/-- The operand that an instruction works with. -/
inductive Operand where
  | absent
  | place (p : Place)
  | pair (p : Pair)
  | index (n : Fin 8)
  | byte (b : Byte)
  | word (w : Word)
  deriving DecidableEq, Repr

/-- A built-in operand as an operand. -/
def Choice.operand : Choice → Operand
  | .absent => .absent
  | .place p => .place p
  | .pair p => .pair p
  | .index n => .index n

end Lab8085
