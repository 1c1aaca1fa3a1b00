/-
  Lab8085.Given

  Arguments that are given without a type. Where an integer is asked for, a boolean
  counts as 0 or 1 and values of other kinds are refused; but a value is looked at
  only when it is needed, so that one of the wrong kind may do no harm.
-/
import Lab8085.Failure
import Lab8085.Machine

namespace Lab8085

namespace Value

/-- The integer that a value is given as. -/
def number (v : Value) : Except Failure Int :=
  match v.asInt? with
  | some n => .ok n
  | none => .error .wrongKind

/-- The number that a value is given as, with a point. -/
def asFloat? (v : Value) : Option Float :=
  match v with
  | .float x => some x
  | v => v.asInt?.map Float.ofInt

/-- The least integer that is no less than a number of any kind. -/
def ceiling (v : Value) : Except Failure Int :=
  match v with
  | .float x =>
    match Number.whole? x.ceil with
    | some n => .ok n
    | none => .error .wrongKind
  | v => v.number

/-- The name of the kind of values that have no hexadecimal text but could have been asked for
    one. -/
def kindName : Value → String
  | .text _ => "str"
  | _ => "float"

end Value

/-! ## Bytes and addresses -/

/-- A value as a byte, or the complaint that it is none. A number with a fraction may lie in the
    right range and still cannot be stored. -/
def byteOf (v : Value) : Except BusError Byte :=
  match v with
  | .float x => .error (if 0 ≤ x && x ≤ 255 then .wrongKind else .notByte v)
  | v =>
    match v.asInt? with
    | none => .error .wrongKind
    | some n => if 0 ≤ n ∧ n ≤ 0xFF then .ok (BitVec.ofInt 8 n) else .error (.notByte v)

namespace Bus

/-- The complaint about an address that is no integer. -/
def addressFault (b : Bus) (address : Value) : BusError :=
  match address with
  | .float x =>
    if b.regions.any fun r => Float.ofInt r.first ≤ x && x ≤ Float.ofInt r.last then .wrongKind
    else .notHex address.kindName
  | .text _ => if b.regions.isEmpty then .notHex address.kindName else .wrongKind
  | _ => .wrongKind

/-- The integer that an address is given as. -/
def addressOf (b : Bus) (address : Value) : Except BusError Int :=
  match address.asInt? with
  | some a => .ok a
  | none => .error (b.addressFault address)

end Bus

namespace Machine

/-- The complaint about an address that is no integer, for a value that is to be placed there. -/
def addressFault (m : Machine) (address v : Value) : BusError :=
  match address with
  | .float x =>
    if 0 ≤ x && x ≤ Float.ofNat (m.size - 1) then
      match byteOf v with
      | .error e => e
      | .ok _ => .wrongKind
    else .notHex address.kindName
  | _ => .wrongKind

/-- The value a number of places further on. -/
def shifted (address : Value) (places : Nat) : Value :=
  match address with
  | .float x => .float (x + Float.ofNat places)
  | v =>
    match v.asInt? with
    | some a => .int (a + places)
    | none => v

/-- Places values from an address on, the first of them `places` further, up to the first that
    cannot be placed. -/
def placeGiven (m : Machine) (address : Value) (places : Nat) :
    List Value → Machine × Option BusError
  | [] => (m, none)
  | v :: vs =>
    match shifted address places with
    | .int a =>
      if m.memory.has a then
        match byteOf v with
        | .ok b => placeGiven { m with memory := m.memory.put a.toNat b } address (places + 1) vs
        | .error e => (m, some e)
      else (m, some (.unmapped a))
    | a => (m, some (m.addressFault a v))

/-- The bytes of `length` places from an address on; without any the address is not looked at. -/
def bytesGiven (m : Machine) (address : Value) (length : Nat) : Except BusError (List Byte) :=
  if length = 0 then .ok []
  else
    match address.asInt? with
    | some a => m.bytesAt a length
    | none => .error (m.addressFault address (.int 0))

end Machine

/-- The rows of a range whose start is given as a value of any kind, with the complaint that the
    first address brings when it is no integer. An empty range has no address. -/
def Disassembly.rowsGiven (fault : Value → BusError) (peek : Int → Option Byte) (start : Value)
    (length : Int) : Except BusError (List Row) :=
  match start with
  | .float x => if length ≤ 0 || x > 0xFFFF then .ok [] else .error (fault start)
  | v =>
    match v.asInt? with
    | some a => .ok (rows peek a length)
    | none => .error .wrongKind

namespace Bus

/-- The disassembly of a range of the bus. -/
def disassembleGiven (b : Bus) (start : Value) (length : Int) : Except BusError (List Row) :=
  Disassembly.rowsGiven b.addressFault (fun a => (b.peek a).toOption) start length

end Bus

namespace Machine

/-- The disassembly of a range of the memory. -/
def disassembleGiven (m : Machine) (start : Value) (length : Int) : Except BusError (List Row) :=
  Disassembly.rowsGiven (fun v => m.addressFault v (.int 0)) m.peek? start length

end Machine

/-! ## Lists of bytes -/

namespace Value

/-- The values that a single argument stands for: those of a list, or the argument itself. -/
def spread (v : Value) : List Value :=
  match v.bare with
  | .list vs => vs
  | .pair a b => [a, b]
  | .bytes bs => bs.map fun b => .int b.toNat
  | v => [v]

/-- The bytes that a value is made into: those of a list, which must all be bytes, or zeros as
    many as a number says. No more of them are made than fit into the largest memory and one. -/
def asBytes (v : Value) : Except Failure (List Value) :=
  let checked (vs : List Value) : Except Failure (List Value) :=
    vs.mapM fun v => do
      let n ← v.number
      if 0 ≤ n ∧ n ≤ 0xFF then .ok (.int n) else .error .notByte
  match v with
  | .list vs => checked vs
  | .map es => checked (es.map (·.1))
  | v => do
    let n ← v.number
    if 0x8000000000000000 ≤ n ∨ n < -0x8000000000000000 then .error .tooMany
    else if n < 0 then .error .negativeCount
    else .ok (List.replicate (min n.toNat (maxMemory + 1)) (.int 0))

/-- The values that several arguments stand for; a single one is spread. -/
def asArguments (v : Value) : Except Failure (List Value) :=
  let arguments : List Value → List Value
    | [v] => v.spread
    | vs => vs
  match v with
  | .list vs => .ok (arguments vs)
  | .text s => .ok (arguments (s.toList.map fun c => .text (String.ofList [c])))
  | .map es => .ok (arguments (es.map (·.1)))
  | _ => .error .wrongKind

end Value

/-! ## Instructions -/

/-- A row that is given as mnemonic, code, name of its kind, and spacing. -/
def Descriptor.ofGiven (row : Value) : Except Failure Descriptor :=
  match row with
  | .list [mnemonic, code, kind, spacing] =>
    match OperandKind.ofName? kind.plain with
    | none => .error (.noSuchKind kind)
    | some k => do return ⟨mnemonic.plain, ← code.number, k, .nop, ← spacing.number⟩
  | _ => .error .wrongKind

/-- Whether a value can be looked up. -/
def Value.isKey (v : Value) : Bool :=
  match v with
  | .list _ | .set _ | .map _ => false
  | _ => true

/-- What a name stands for; other values are no names. -/
def Value.named {α : Type} (find : String → Option α) (v : Value) : Except Failure α :=
  match v with
  | .text s =>
    match find s with
    | some x => .ok x
    | none => .error (.noSuchName v)
  | v => .error (if v.isKey then .noSuchName v else .wrongKind)

/-- A text; other values have no lines and words. -/
def Value.asText (v : Value) : Except Failure String :=
  match v with
  | .text s => .ok s
  | _ => .error .noSuchPart

namespace Catalog

/-- The entry of an opcode that is given as a number of any kind; other values have none. -/
def opcodeGiven? (c : Catalog) (opcode : Value) : Except Failure (Option Entry) :=
  if opcode.isKey then .ok (opcode.whole?.bind c.opcode?) else .error .wrongKind

/-- The row of a mnemonic that is given as a value; only text has one. -/
def mnemonicGiven? (c : Catalog) (mnemonic : Value) : Except Failure (Option Descriptor) :=
  match mnemonic with
  | .text s => .ok (c.mnemonic? s)
  | v => if v.isKey then .ok none else .error .wrongKind

end Catalog

/-- The number that a value is given as, to be shown in hexadecimal. -/
def Value.shownNumber (v : Value) : Except Failure Int :=
  match v with
  | .text _ | .float _ => .error (.notHex v.kindName)
  | v => v.number

/-- Decodes an opcode that is given as a value of any kind. A number with a point may equal an
    opcode, but is not shown as one. A single operand byte is shown as it is; of two the number is
    shown that they make. -/
def Operation.decodeGiven (opcode : Value) (bytes : List Value) : Except Failure Operation := do
  match ← Catalog.standard.opcodeGiven? opcode with
  | none => throw (.noSuchName opcode)
  | some e =>
    let _ ← opcode.shownNumber
    if e.descriptor.kind = .byte then
      let _ ← (bytes.take 1).mapM Value.shownNumber
    match Operation.ofEntry? e (← bytes.mapM Value.number) with
    | some o => return o
    | none => throw (.decoding .missingBytes)

/-! ## Programs -/

namespace Assembly

/-- The first target that the lines of a draft ask for: the number of its line and its label. -/
def firstTarget? (d : Draft) : Option (Nat × String) :=
  let targets := d.pieces.reverse.zipIdx.filterMap fun (p, line) =>
    match p.body with
    | some (_, .target label) => some (line, label)
    | _ => none
  targets.head?

/-- Assembles a source for an origin of any kind. The origin is needed once there is a label or a
    target; an undefined first target is reported before it. -/
def compileGiven (catalog : Catalog) (source : String) (origin : Value) :
    Except Failure Assembly :=
  match origin.asInt? with
  | some n => (compileWith catalog source n).mapError .assembly
  | none => do
    let d ← (draft .standard catalog source).mapError .assembly
    match firstTarget? d with
    | some (line, label) =>
      if (d.offset? label).isNone then
        .error (.assembly (.atLine line (.undefinedLabel label)))
      else .error .wrongKind
    | none => if d.labels.isEmpty then (link 0 d).mapError .assembly else .error .wrongKind

end Assembly

end Lab8085
