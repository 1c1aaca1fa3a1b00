/-
  Lab8085.Assembly

  The assembler. Lines are encoded one after the other, each at the offset where the
  code so far ends; a jump or call keeps the name of its target. When all labels are
  known the targets are filled in, low byte first. The first faulty line is reported,
  an undefined target only when no line is faulty in itself.
-/
import Lab8085.Instruction.Table
import Lab8085.Source.Line
import Lab8085.Source.Literal
import Lab8085.Text.Lines

namespace Lab8085

/-- Why a source does not assemble. Lines are numbered from zero. -/
inductive AssemblyError where
  | atLine (line : Nat) (cause : Source.Error)
  /-- The catalog gives an instruction an opcode that is no byte. -/
  | codeRange
  /-- A decimal number has more digits than can be read. -/
  | tooManyDigits (count : Nat)
  deriving DecidableEq

namespace AssemblyError

def message : AssemblyError → String
  | .atLine line cause => "Error at line " ++ toString line ++ ": " ++ cause.message
  | .codeRange => "byte must be in range(0, 256)"
  | .tooManyDigits count => Number.tooManyDigits count

/-- The fault of a line, with its number unless the fault is one of reading digits. -/
def ofLine (line : Nat) : Source.Error → AssemblyError
  | .tooManyDigits count => .tooManyDigits count
  | e => .atLine line e

end AssemblyError

/-- Machine code with the offset of each line's first byte and the address of each label, in the
    order of the source. -/
structure Assembly where
  code : List Byte
  offsets : List Nat
  symbols : List (String × Word)
  deriving DecidableEq

namespace Assembly

/-! ## One instruction -/

/-- What follows the opcode: bytes that are known, or the address of a label. -/
inductive Tail where
  | bytes (bs : List Byte)
  | target (label : String)
  deriving DecidableEq

namespace Tail

def length : Tail → Nat
  | .bytes bs => bs.length
  | .target _ => 2

end Tail

/-- An instruction before its target is known. -/
structure Encoding where
  opcode : Int
  tail : Tail
  deriving DecidableEq

/-- The operand of a kind that a name stands for; names are written in lower case. -/
def choiceOf? (kind : OperandKind) (name : String) : Option Choice :=
  kind.choices.find? fun x => x.name?.any fun n => n.toList.map Char.toLower == name.toList

/-- The names of the operands of a kind. -/
def allowedNames (kind : OperandKind) : List String :=
  kind.choices.filterMap Choice.name?

/-- A register, memory or register pair operand. -/
def resolve (kind : OperandKind) (name : String) : Except Source.Error Choice :=
  match choiceOf? kind name with
  | some x => .ok x
  | none =>
    if kind.isPair then .error (.invalidPair name (allowedNames kind))
    else .error (.invalidRegister name (allowedNames kind))

/-- Encodes one operand of a row. -/
def encodeOperand (limit : Number.DigitLimit) (d : Descriptor) (operand : String) :
    Except Source.Error Encoding :=
  match d.kind with
  | .none => .ok ⟨d.code, .bytes []⟩
  | .byte => do return ⟨d.code, .bytes [← Source.Literal.readByte operand limit]⟩
  | .word => do
    let w ← Source.Literal.readWord operand limit
    return ⟨d.code, .bytes [lowByte w, highByte w]⟩
  | .label => .ok ⟨d.code, .target operand⟩
  | .index => do
    return ⟨d.opcodeFor (.index (← Source.Literal.readIndex operand limit)), .bytes []⟩
  | kind => do return ⟨d.opcodeFor (← resolve kind operand), .bytes []⟩

/-- Encodes an instruction: the mnemonic must be known and the number of operands right before
    the operand is looked at. -/
def encode (limit : Number.DigitLimit) (catalog : Catalog) (mnemonic : String)
    (operands : List String) : Except Source.Error Encoding :=
  match catalog.mnemonic? mnemonic with
  | none => .error (.unknownMnemonic mnemonic)
  | some d =>
    if operands.length = d.kind.operandCount then encodeOperand limit d (operands.headD "")
    else .error (.operandCount d.kind.operandCount operands.length)

/-! ## Lines -/

/-- What a line contributes: nothing, or an instruction whose opcode is a byte. -/
structure Piece where
  offset : Nat
  body : Option (Byte × Tail)
  deriving DecidableEq

namespace Piece

def length (p : Piece) : Nat :=
  match p.body with
  | none => 0
  | some (_, tail) => 1 + tail.length

end Piece

/-- The lines encoded so far, latest first: where their code ends and which labels they define. -/
structure Draft where
  offset : Nat := 0
  labels : List (String × Nat) := []
  pieces : List Piece := []
  deriving DecidableEq

namespace Draft

def offset? (d : Draft) (label : String) : Option Nat :=
  d.labels.lookup label

/-- Defines a label at the end of the code. -/
def define (d : Draft) : Option String → Except Source.Error Draft
  | none => .ok d
  | some label =>
    match d.offset? label with
    | some _ => .error (.duplicateLabel label)
    | none => .ok { d with labels := d.labels ++ [(label, d.offset)] }

/-- Adds the piece of a line. -/
def push (d : Draft) (body : Option (Byte × Tail)) : Draft :=
  let p : Piece := ⟨d.offset, body⟩
  { d with offset := d.offset + p.length, pieces := p :: d.pieces }

end Draft

/-- An opcode as a byte. -/
def byteOf? (v : Int) : Option Byte :=
  if 0 ≤ v ∧ v < 256 then some (BitVec.ofInt 8 v) else none

/-- Adds the line numbered `number` to a draft. -/
def addLine (limit : Number.DigitLimit) (catalog : Catalog) (number : Nat) (d : Draft)
    (text : List Char) : Except AssemblyError Draft :=
  let step : Except Source.Error (Draft × Option Encoding) := do
    let line ← Source.Line.parse text
    let d ← d.define line.label
    match line.mnemonic with
    | none => return (d, none)
    | some m => return (d, some (← encode limit catalog m line.operands))
  match step with
  | .error e => .error (.ofLine number e)
  | .ok (d, none) => .ok (d.push none)
  | .ok (d, some e) =>
    match byteOf? e.opcode with
    | none => .error .codeRange
    | some opcode => .ok (d.push (some (opcode, e.tail)))

/-- Adds lines to a draft, the first of them numbered `number`. -/
def addLines (limit : Number.DigitLimit) (catalog : Catalog) :
    Nat → Draft → List (List Char) → Except AssemblyError Draft
  | _, d, [] => .ok d
  | number, d, l :: ls => do
    addLines limit catalog (number + 1) (← addLine limit catalog number d l) ls

/-- The draft of a source. -/
def draft (limit : Number.DigitLimit) (catalog : Catalog) (source : String) :
    Except AssemblyError Draft :=
  addLines limit catalog 0 {} (Text.lines source.toList)

/-! ## Targets -/

/-- The address of an offset when the code starts at `origin`. -/
def place (origin : Int) (offset : Nat) : Word :=
  BitVec.ofInt 16 (offset + origin)

/-- The bytes of a piece on the line numbered `number`. -/
def linkPiece (origin : Int) (d : Draft) (number : Nat) (p : Piece) :
    Except AssemblyError (List Byte) :=
  match p.body with
  | none => .ok []
  | some (opcode, .bytes bs) => .ok (opcode :: bs)
  | some (opcode, .target label) =>
    match d.offset? label with
    | none => .error (.atLine number (.undefinedLabel label))
    | some offset =>
      let w := place origin offset
      .ok [opcode, lowByte w, highByte w]

/-- The bytes of pieces in the order of their lines, the first numbered `number`. -/
def linkPieces (origin : Int) (d : Draft) : Nat → List Piece → Except AssemblyError (List Byte)
  | _, [] => .ok []
  | number, p :: ps => do
    let bs ← linkPiece origin d number p
    return bs ++ (← linkPieces origin d (number + 1) ps)

/-- The machine code of a draft. -/
def link (origin : Int) (d : Draft) : Except AssemblyError Assembly := do
  let pieces := d.pieces.reverse
  return {
    code := ← linkPieces origin d 0 pieces
    offsets := pieces.map Piece.offset
    symbols := d.labels.map fun l => (l.1, place origin l.2) }

/-- Assembles a source with a catalog; addresses count from `origin`. -/
def compileWith (catalog : Catalog) (source : String) (origin : Int)
    (limit : Number.DigitLimit := .standard) : Except AssemblyError Assembly := do
  link origin (← draft limit catalog source)

/-- Assembles a source for the 8085. -/
def compile (source : String) (origin : Int) (limit : Number.DigitLimit := .standard) :
    Except AssemblyError Assembly :=
  compileWith Catalog.standard source origin limit

end Assembly

end Lab8085
