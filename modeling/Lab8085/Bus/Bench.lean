/-
  Lab8085.Bus.Bench

  A bus on the bench: chips go by names, and commands are carried out one after the
  other. A name given to a second chip belongs to that chip from then on; the first
  keeps answering where it was registered. Addresses and data may be given as values
  of any kind.
-/
import Lab8085.Given

namespace Lab8085

/-- A command to the bus. -/
inductive Bus.Command where
  | chip (name : String) (size : Value)
  | register (name : String) (first last : Value)
  | read (address : Value)
  | peek (address : Value)
  | write (address data : Value)
  | load (address data : Value)
  | readPort (port : Value)
  | writePort (port data : Value)
  | chipRead (name : String) (offset : Value)
  | chipWrite (name : String) (offset data : Value)
  | takeLog

/-- What a command answers. -/
inductive Bus.Answer where
  | done
  | value (v : Value)
  | log (accesses : List Access)

/-- A bus and the names of its chips, latest first. Ports take anything; after something that is no
    number the log has no text until it is taken. -/
structure Bench where
  bus : Bus := {}
  names : List (String × Nat) := []
  unprintable : Bool := false

namespace Bench

/-- The chip of a name. -/
def chip? (b : Bench) (name : String) : Option Nat :=
  b.names.lookup name

/-- The chip of a name, which must exist. -/
def chipOf (b : Bench) (name : String) : Except BusError Nat :=
  match b.chip? name with
  | some k => .ok k
  | none => .error (.unknownChip name)

/-- The complaint about bounds that are not both integers, of a range for a chip that may be
    missing. -/
def boundsFault (chip : Option Nat) (first last : Value) : BusError :=
  match first.asFloat?, last.asFloat? with
  | none, _ => .wrongKind
  | some x, some y =>
    if 0 ≤ x && x ≤ y && chip.isNone then .noChip else .notHex "float"
  | some x, none =>
    if 0 ≤ x then .wrongKind
    else
      match first, last with
      | .float _, _ | _, .text _ => .notHex (if first.asInt?.isSome then last else first).kindName
      | _, _ => .wrongKind

/-- The bounds of a range. -/
def rangeOf (chip : Option Nat) (first last : Value) : Except BusError (Int × Int) :=
  match first.asInt?, last.asInt? with
  | some a, some z => .ok (a, z)
  | _, _ => .error (boundsFault chip first last)

/-- An offset in a chip. -/
def offsetOf (b : Bench) (chip : Nat) (offset : Value) : Except BusError Int :=
  match offset.asInt?, offset with
  | some n, _ => .ok n
  | none, .float x =>
    let size := ((b.bus.chips[chip]?).map Memory.size).getD 0
    .error (if 0 ≤ x && x < Float.ofNat size then .wrongKind else .notHex offset.kindName)
  | none, _ => .error .wrongKind

/-- Data for a place that has been looked at. -/
def dataOf (place : Except BusError Unit) (data : Value) : Except BusError Int := do
  match data.asInt? with
  | some n => return n
  | none =>
    place
    return (← byteOf data).toNat

/-- The address and the data of something to be stored. -/
def storing (b : Bench) (address data : Value) : Except BusError (Int × Int) := do
  let a ← b.bus.addressOf address
  let n ← dataOf ((b.bus.resolve a).map fun _ => ()) data
  return (a, n)

/-- The chip, the offset and the data of something to be stored in a chip. -/
def storingIn (b : Bench) (name : String) (offset data : Value) :
    Except BusError (Nat × Int × Int) := do
  let k ← b.chipOf name
  let i ← b.offsetOf k offset
  let n ← dataOf ((b.bus.chipRead k i).map fun _ => ()) data
  return (k, i, n)

/-- A computation on the bench. -/
abbrev Act (α : Type) := EStateM BusError Bench α

/-- The answer to what an operation returned. -/
def answer : Bus.Reply → Bus.Answer
  | .done => .done
  | .byte v => .value (.int v.toNat)
  | .log xs => .log xs

/-- Carries out an operation of the bus. -/
def onBus (o : Bus.Operation) : Act Bus.Answer := fun b =>
  match Bus.perform o b.bus with
  | .ok x bus => .ok (answer x) { b with bus := bus }
  | .error e bus => .error e { b with bus := bus }

/-- Marks the log as one without text. -/
def blot : Act Unit :=
  modify fun b => { b with unprintable := true }

/-- Carries out a command. -/
def perform : Bus.Command → Act Bus.Answer
  | .chip name size => do
    let k := (← get).bus.chips.size
    let _ ← onBus (.chip size)
    modify fun b => { b with names := (name, k) :: b.names }
    return .value size
  | .register name first last => do
    let chip := (← get).chip? name
    let (first, last) ← ofExcept (rangeOf chip first last)
    onBus (.register first last chip)
  | .read address => do
    let a ← ofExcept ((← get).bus.addressOf address)
    onBus (.read a)
  | .peek address => do
    let a ← ofExcept ((← get).bus.addressOf address)
    onBus (.peek a)
  | .write address data => do
    let (a, n) ← ofExcept ((← get).storing address data)
    onBus (.write a n)
  | .load address data => do
    let (a, n) ← ofExcept ((← get).storing address data)
    onBus (.load a n)
  | .readPort port =>
    match port.asInt? with
    | some port => onBus (.readPort port)
    | none => do
      blot
      return answer (.byte 0)
  | .writePort port data =>
    match port.asInt?, data.asInt? with
    | some port, some data => onBus (.writePort port data)
    | _, _ => do
      blot
      return .done
  | .chipRead name offset => do
    let k ← ofExcept ((← get).chipOf name)
    let i ← ofExcept ((← get).offsetOf k offset)
    onBus (.chipRead k i)
  | .chipWrite name offset data => do
    let (k, i, n) ← ofExcept ((← get).storingIn name offset data)
    onBus (.chipWrite k i n)
  | .takeLog => do
    let log ← onBus .takeLog
    let b ← get
    set { b with unprintable := false }
    if b.unprintable then throw .wrongKind
    return log

/-- Carries out commands; one that fails is followed by the next. -/
def performAll (b : Bench) : List Bus.Command → List (Except BusError Bus.Answer)
  | [] => []
  | c :: cs =>
    match perform c b with
    | .ok x b => .ok x :: performAll b cs
    | .error e b => .error e :: performAll b cs

end Bench

end Lab8085
