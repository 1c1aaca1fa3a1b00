/-
  Lab8085.Bus

  A bus with memory chips. A chip answers in every address range that it is
  registered for; where ranges overlap the range registered first answers. Reads,
  writes and port accesses are logged; peeks and loads are not. An operation that
  fails leaves the bus as it was.
-/
import Lab8085.Access
import Lab8085.Memory
import Lab8085.Value

namespace Lab8085

/-- Why a bus operation fails. -/
inductive BusError where
  /-- No range holds the address. -/
  | unmapped (address : Int)
  /-- The chip has no cell with this offset. -/
  | outsideChip (offset : Int) (size : Nat)
  | notByte (value : Value)
  | invalidRange (first last : Int)
  | sizeMismatch (size : Nat) (first last : Int)
  /-- There is no chip to register. -/
  | noChip
  /-- There is no chip of this name. -/
  | unknownChip (name : String)
  | chipSize (given : Value)
  /-- A value of a kind that cannot be used here. -/
  | wrongKind
  /-- A value of a kind that has no hexadecimal text. -/
  | notHex (kind : String)

namespace BusError

def message : BusError → String
  | .unmapped a => "No device mapped at " ++ Text.hexAddress a ++ "."
  | .outsideChip offset size =>
    "RAM offset " ++ Text.hexAddress offset ++ " is outside 0.." ++
      Text.hexAddress ((size : Int) - 1) ++ "."
  | .notByte v => "Value " ++ v.shown ++ " does not fit in a byte."
  | .invalidRange first last =>
    "Invalid range " ++ Text.hexAddress first ++ "-" ++ Text.hexAddress last ++ "."
  | .sizeMismatch size first last =>
    "RAM holds " ++ toString size ++ " bytes but the range " ++ Text.hexAddress first ++ "-" ++
      Text.hexAddress last ++ " covers " ++ toString (last - first + 1) ++ "."
  | .noChip => "NoneType is not a Device."
  | .unknownChip name => Text.quoted name
  | .chipSize given => "RAM size must be positive, got " ++ given.shown ++ "."
  | .wrongKind => ""
  | .notHex kind => "Unknown format code 'x' for object of type '" ++ kind ++ "'"

end BusError

/-- A number as a byte, or the complaint that it is none. -/
def byteOfInt (v : Int) : Except BusError Byte :=
  if 0 ≤ v ∧ v ≤ 0xFF then .ok (BitVec.ofInt 8 v) else .error (.notByte (.int v))

namespace Memory

/-- Reads a cell of a chip by its offset. -/
def readOffset (m : Memory) (offset : Int) : Except BusError Byte :=
  if m.has offset then .ok ((m.get? offset.toNat).getD 0)
  else .error (.outsideChip offset m.size)

/-- Writes a cell of a chip by its offset; the offset is looked at before the value. -/
def writeOffset (offset value : Int) : EStateM BusError Memory Unit := do
  let m ← get
  if m.has offset then
    let v ← ofExcept (byteOfInt value)
    set (m.put offset.toNat v)
  else throw (.outsideChip offset m.size)

end Memory

/-- An address range with the chip that answers there; `chip` is its place among the chips. -/
structure Region where
  first : Int
  last : Int
  chip : Nat
  deriving DecidableEq

/-- Chips, the ranges registered so far in order, and the log of accesses. -/
structure Bus where
  chips : Array Memory := #[]
  regions : List Region := []
  log : Array Access := #[]

namespace Bus

/-! ## Addresses -/

/-- The range that answers at an address. -/
def region? (b : Bus) (address : Int) : Option Region :=
  b.regions.find? fun r => r.first ≤ address && address ≤ r.last

/-- The chip and the offset that answer at an address. -/
def resolve (b : Bus) (address : Int) : Except BusError (Nat × Int) :=
  match b.region? address with
  | some r => .ok (r.chip, address - r.first)
  | none => .error (.unmapped address)

/-- Reads a chip directly. -/
def chipRead (b : Bus) (chip : Nat) (offset : Int) : Except BusError Byte :=
  match b.chips[chip]? with
  | some m => m.readOffset offset
  | none => .error .noChip

/-- Reads without a record. -/
def peek (b : Bus) (address : Int) : Except BusError Byte := do
  let (chip, offset) ← b.resolve address
  b.chipRead chip offset

/-! ## Changes -/

/-- A computation on a bus. What it has changed when it fails stays changed. -/
abbrev Act (α : Type) := EStateM BusError Bus α

/-- Adds a chip whose size is given as a value of any kind. It answers nowhere yet. -/
def addChip (size : Value) : Act Unit := do
  match size.asInt? with
  | some n =>
    if 0 < n then modify fun b => { b with chips := b.chips.push (.zeroed n.toNat) }
    else throw (.chipSize size)
  | none => throw (.chipSize size)

/-- Lets a chip answer from `first` to `last`. The range must not be empty and must have the size
    of the chip. -/
def register (first last : Int) (chip : Option Nat) : Act Unit := do
  if 0 ≤ first ∧ first ≤ last then
    match chip with
    | none => throw .noChip
    | some k =>
      match (← get).chips[k]? with
      | none => throw .noChip
      | some m =>
        if (m.size : Int) = last - first + 1 then
          modify fun b => { b with regions := b.regions ++ [⟨first, last, k⟩] }
        else throw (.sizeMismatch m.size first last)
  else throw (.invalidRange first last)

/-- Works on a chip, which must exist. -/
def onChip {α : Type} (chip : Nat) (act : EStateM BusError Memory α) : Act α := fun b =>
  match b.chips[chip]? with
  | none => .error .noChip b
  | some m =>
    match act m with
    | .ok x m => .ok x { b with chips := b.chips.setIfInBounds chip m }
    | .error e m => .error e { b with chips := b.chips.setIfInBounds chip m }

/-- Writes a chip directly. -/
def chipWrite (chip : Nat) (offset value : Int) : Act Unit :=
  onChip chip (Memory.writeOffset offset value)

def record (kind : AccessKind) (address data : Int) : Act Unit :=
  modify fun b => { b with log := b.log.push ⟨kind, address, data⟩ }

/-- Writes without a record. -/
def load (address value : Int) : Act Unit := do
  let (chip, offset) ← ofExcept ((← get).resolve address)
  chipWrite chip offset value

/-- Reads and records the access. -/
def read (address : Int) : Act Byte := do
  let v ← ofExcept ((← get).peek address)
  record .read address v.toNat
  return v

/-- Writes and records the access. -/
def write (address value : Int) : Act Unit := do
  load address value
  record .write address value

/-- Reads a port. No device answers on ports: the data is zero. -/
def readPort (port : Int) : Act Byte := do
  record .portIn port 0
  return 0

/-- Writes a port, which leaves only a record. -/
def writePort (port value : Int) : Act Unit :=
  record .portOut port value

/-- The log, which is empty afterwards. -/
def takeLog : Act (List Access) := do
  let b ← get
  set { b with log := #[] }
  return b.log.toList

/-! ## Operations -/

/-- The operations on a bus and its chips. -/
inductive Operation where
  | chip (size : Value)
  | register (first last : Int) (chip : Option Nat)
  | read (address : Int)
  | peek (address : Int)
  | write (address data : Int)
  | load (address data : Int)
  | readPort (port : Int)
  | writePort (port data : Int)
  | chipRead (chip : Nat) (offset : Int)
  | chipWrite (chip : Nat) (offset data : Int)
  | takeLog

/-- What an operation returns. -/
inductive Reply where
  | done
  | byte (v : Byte)
  | log (accesses : List Access)

/-- Carries out an operation. -/
def perform : Operation → Act Reply
  | .chip size => do
    addChip size
    return .done
  | .register first last chip => do
    register first last chip
    return .done
  | .read address => do return .byte (← read address)
  | .peek address => do return .byte (← ofExcept ((← get).peek address))
  | .write address data => do
    write address data
    return .done
  | .load address data => do
    load address data
    return .done
  | .readPort port => do return .byte (← readPort port)
  | .writePort port data => do
    writePort port data
    return .done
  | .chipRead chip offset => do return .byte (← ofExcept ((← get).chipRead chip offset))
  | .chipWrite chip offset data => do
    chipWrite chip offset data
    return .done
  | .takeLog => do return .log (← takeLog)

/-! ## Regions of bytes -/

/-- Loads bytes at consecutive addresses. -/
def loadAll (address : Int) : List Byte → Act Unit
  | [] => return ()
  | v :: vs => do
    load address v.toNat
    loadAll (address + 1) vs

/-- Adds one chip per region of bytes, registered in order and then filled. -/
def addRegions (regions : List (Int × List Byte)) : Act Unit := do
  regions.forM fun (first, bytes) => do
    addChip (.int bytes.length)
    register first (first + bytes.length - 1) (some ((← get).chips.size - 1))
  regions.forM fun (first, bytes) => loadAll first bytes

/-- A bus with regions of bytes. -/
def ofRegions (regions : List (Int × List Byte)) : Except BusError Bus :=
  match addRegions regions {} with
  | .ok _ b => .ok b
  | .error e _ => .error e

end Bus

end Lab8085
