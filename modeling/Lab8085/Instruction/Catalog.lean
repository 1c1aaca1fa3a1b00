/-
  Lab8085.Instruction.Catalog

  Instruction catalogs: a list of rows with two views, by mnemonic for the
  assembler and by opcode for the machine. A catalog is built only from rows whose
  mnemonics are distinct and whose opcodes are distinct, so either view finds at
  most one row.
-/
import Lab8085.Instruction.Descriptor
import Lab8085.Text.Hex

namespace Lab8085

/-- Rows and the opcodes that they stand for. -/
structure Catalog where
  descriptors : List Descriptor
  entries : List Entry

/-- Why rows make no catalog. -/
inductive CatalogError where
  | duplicateMnemonic (mnemonic : String)
  | opcodeCollision (opcode : Int) (mnemonic owner : String)
  deriving DecidableEq

namespace CatalogError

def message : CatalogError → String
  | .duplicateMnemonic m => "Duplicate mnemonic '" ++ m ++ "' in instruction table."
  | .opcodeCollision opcode m owner =>
    "Opcode 0x" ++ Text.hex 2 opcode ++ " of '" ++ m ++ "' collides with '" ++ owner ++ "'."

end CatalogError

namespace Catalog

/-- The row with a mnemonic. -/
def mnemonic? (c : Catalog) (mnemonic : String) : Option Descriptor :=
  c.descriptors.find? fun d => d.mnemonic == mnemonic

/-- The entry of an opcode. -/
def opcode? (c : Catalog) (opcode : Int) : Option Entry :=
  c.entries.find? fun e => e.opcode == opcode

/-- The catalog of rows that are known to be distinct. -/
def ofRows (rows : List Descriptor) : Catalog :=
  ⟨rows, rows.flatMap Descriptor.expand⟩

/-- Adds opcodes to a catalog, refusing the first that is taken already. -/
def addEntries (c : Catalog) : List Entry → Except CatalogError Catalog
  | [] => .ok c
  | e :: es =>
    match c.opcode? e.opcode with
    | some owner =>
      .error (.opcodeCollision e.opcode e.descriptor.mnemonic owner.descriptor.mnemonic)
    | none => addEntries { c with entries := c.entries ++ [e] } es

/-- Adds a row with all its opcodes; the mnemonic is looked at first. -/
def addRow (c : Catalog) (d : Descriptor) : Except CatalogError Catalog :=
  match c.mnemonic? d.mnemonic with
  | some _ => .error (.duplicateMnemonic d.mnemonic)
  | none => addEntries { c with descriptors := c.descriptors ++ [d] } d.expand

/-- The catalog of a list of rows, or the first row that is in the way of an earlier one. -/
def build (rows : List Descriptor) : Except CatalogError Catalog :=
  rows.foldlM addRow ⟨[], []⟩

end Catalog

end Lab8085
