/-
  Lab8085.Disassembly

  Disassembly of a range of addresses. From the start on, each row shows the
  instruction found there, or a data byte that is no instruction, or an address where
  memory is missing. The next row follows at once; an instruction that runs past the
  end of the range is shown whole.
-/
import Lab8085.Operation

namespace Lab8085

/-- What is found at an address: an instruction with its bytes, a byte that is no opcode, or an
    instruction of which a byte is missing. -/
inductive RowContent where
  | instruction (bytes : List Byte) (operation : Operation)
  | data (b : Byte)
  | missing
  deriving DecidableEq

/-- A row of a disassembly. -/
structure Row where
  address : Int
  content : RowContent
  deriving DecidableEq

namespace Row

/-- How many addresses the row covers. -/
def length (r : Row) : Nat :=
  match r.content with
  | .instruction _ o => o.length
  | _ => 1

/-- The bytes of the row. -/
def bytes (r : Row) : List Byte :=
  match r.content with
  | .instruction bs _ => bs
  | .data b => [b]
  | .missing => []

/-- The bytes of the row in hexadecimal. -/
def dump (r : Row) : String :=
  match r.content with
  | .missing => "??"
  | _ => " ".intercalate (r.bytes.map fun b => String.ofList (Text.hexByte b))

/-- The text of the row. -/
def text (r : Row) : String :=
  match r.content with
  | .instruction _ o => o.text
  | .data b => "DB " ++ String.ofList (Text.hexByte b) ++ "h"
  | .missing => "ERR"

end Row

namespace Disassembly

/-- A number of bytes from an address on, if all are there. -/
def peekBytes (peek : Int → Option Byte) (address : Int) : Nat → Option (List Byte)
  | 0 => some []
  | n + 1 => do return (← peek address) :: (← peekBytes peek (address + 1) n)

/-- What is found at an address. -/
def contentAt (peek : Int → Option Byte) (address : Int) : RowContent :=
  match peek address with
  | none => .missing
  | some opcode =>
    match Catalog.standard.opcode? opcode.toNat with
    | none => .data opcode
    | some e =>
      match peekBytes peek (address + 1) e.descriptor.kind.extraBytes with
      | none => .missing
      | some bs => .instruction (opcode :: bs) (Operation.ofBytes e bs)

/-- The row at an address. -/
def rowAt (peek : Int → Option Byte) (address : Int) : Row :=
  ⟨address, contentAt peek address⟩

/-- Rows from an address up to an end, `fuel` of them at most. -/
def rowsFrom (peek : Int → Option Byte) (stop : Int) : Nat → Int → List Row
  | 0, _ => []
  | fuel + 1, address =>
    if address < stop then
      let row := rowAt peek address
      row :: rowsFrom peek stop fuel (address + row.length)
    else []

/-- The rows of a range; there are no addresses past the last word address. Each row covers at
    least one address, so the number of addresses bounds the number of rows. -/
def rows (peek : Int → Option Byte) (start length : Int) : List Row :=
  let stop := min (start + length) 0x10000
  rowsFrom peek stop (stop - start).toNat start

end Disassembly

end Lab8085
