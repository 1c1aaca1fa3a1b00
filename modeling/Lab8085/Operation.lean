/-
  Lab8085.Operation

  Decoded instructions as they are shown: opcode, mnemonic, operands and operand
  bytes. The text of an operation can be assembled again, the jumps and calls
  apart, whose targets must be labels.
-/
import Lab8085.Instruction.Table

namespace Lab8085

/-- An instruction as it is shown. The operand bytes may be numbers of any size when they do not
    come from a memory. -/
structure Operation where
  opcode : Int
  mnemonic : String
  operands : List String
  bytes : List Int
  length : Nat
  deriving DecidableEq

/-- The bits that are on in either of two numbers, in two's complement. -/
def joinBits : Int → Int → Int
  | .ofNat m, .ofNat n => .ofNat (m ||| n)
  | .ofNat m, .negSucc n => .negSucc (n - (n &&& m))
  | .negSucc m, .ofNat n => .negSucc (m - (m &&& n))
  | .negSucc m, .negSucc n => .negSucc (m &&& n)

namespace Operation

/-- The text of an operation: the mnemonic, and the operands with commas between them. -/
def text (o : Operation) : String :=
  match o.operands with
  | [] => o.mnemonic
  | xs => o.mnemonic ++ " " ++ ", ".intercalate xs

/-- The operands that follow the mnemonic of an entry; `none` when bytes are missing. -/
def operandTexts? (e : Entry) (bytes : List Int) : Option (List String) :=
  match e.descriptor.kind, bytes with
  | .none, _ => some []
  | .byte, b :: _ => some [Text.hex 2 b ++ "h"]
  | .word, low :: high :: _ => some [Text.hex 4 (joinBits low (high * 256)) ++ "h"]
  | .label, low :: high :: _ => some [Text.hex 4 (joinBits low (high * 256)) ++ "h"]
  | .byte, _ | .word, _ | .label, _ => none
  | _, _ => some e.choice.name?.toList

/-- The operation of an entry with its operand bytes and their text. The words of the mnemonic
    after the first are its first operands. -/
def make (e : Entry) (bytes : List Int) (operands : List String) : Operation where
  opcode := e.opcode
  mnemonic := e.descriptor.mnemonicWords.headD ""
  operands := e.descriptor.mnemonicWords.tail ++ operands
  bytes := bytes
  length := e.descriptor.length

/-- The operation of an entry with its operand bytes, unless bytes are missing; further bytes are
    kept but not shown. -/
def ofEntry? (e : Entry) (bytes : List Int) : Option Operation :=
  (operandTexts? e bytes).map (make e bytes)

/-- The operation of an entry with bytes from a memory, as many as the entry asks for. -/
def ofBytes (e : Entry) (bytes : List Byte) : Operation :=
  let numbers := bytes.map fun b => (b.toNat : Int)
  make e numbers ((operandTexts? e numbers).getD [])

end Operation

/-- Why an opcode with operand bytes is no instruction. -/
inductive DecodeError where
  | unknownOpcode (opcode : Int)
  | missingBytes
  deriving DecidableEq

namespace DecodeError

def message : DecodeError → String
  | .unknownOpcode opcode => toString opcode
  | .missingBytes => "list index out of range"

end DecodeError

/-- Decodes an opcode with the bytes that follow it. -/
def Operation.decode (opcode : Int) (bytes : List Int) : Except DecodeError Operation :=
  match Catalog.standard.opcode? opcode with
  | none => .error (.unknownOpcode opcode)
  | some e =>
    match Operation.ofEntry? e bytes with
    | none => .error .missingBytes
    | some o => .ok o

end Lab8085
