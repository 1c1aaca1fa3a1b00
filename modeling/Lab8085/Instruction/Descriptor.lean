/-
  Lab8085.Instruction.Descriptor

  Rows of an instruction table. A row declares one mnemonic; its operand kind
  decides how many opcodes it stands for, and one formula gives the opcode of each
  operand. Assembler and machine both draw their opcodes from that formula.
-/
import Lab8085.Instruction.Action
import Lab8085.Text.Blank

namespace Lab8085

/-- A row of an instruction table. The mnemonic is in lower case, its words one space apart; it
    may hold the first operand (`mov a`). `code` is the opcode of the operand with field zero,
    `spacing` the distance between neighbouring registers. -/
structure Descriptor where
  mnemonic : String
  code : Int
  kind : OperandKind
  action : Action
  spacing : Int := 1
  deriving DecidableEq

/-- An opcode with the row and the operand that it stands for. -/
structure Entry where
  opcode : Int
  descriptor : Descriptor
  choice : Choice
  deriving DecidableEq

namespace Descriptor

/-- The opcode of a row with a built-in operand. -/
def opcodeFor (d : Descriptor) : Choice → Int
  | .place p => d.code + p.field * d.spacing
  | .pair p => d.code + p.field
  | .index n => d.code + 8 * n.val
  | .absent => d.code

/-- Bytes of the whole instruction. -/
def length (d : Descriptor) : Nat :=
  1 + d.kind.extraBytes

/-- The opcodes of a row, one for each operand that can be built in. -/
def expand (d : Descriptor) : List Entry :=
  d.kind.choices.map fun x => ⟨d.opcodeFor x, d, x⟩

/-- The mnemonic in upper case, word by word. -/
def mnemonicWords (d : Descriptor) : List String :=
  (Text.words (d.mnemonic.toList.map Char.toUpper)).map String.ofList

end Descriptor

namespace Entry

/-- The operand that the entry's instruction works with, given the bytes after the opcode. -/
def operand (e : Entry) (bytes : List Byte) : Operand :=
  match e.descriptor.kind, bytes with
  | .byte, b :: _ => .byte b
  | .word, low :: high :: _ => .word (joinBytes high low)
  | .label, low :: high :: _ => .word (joinBytes high low)
  | _, _ => e.choice.operand

/-- What the entry's instruction does, given the bytes after the opcode. -/
def effect (e : Entry) (bytes : List Byte) : Micro Unit :=
  e.descriptor.action.run (e.operand bytes)

end Entry

end Lab8085
