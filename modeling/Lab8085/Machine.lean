/-
  Lab8085.Machine

  The machine: the programmer's model, a memory chip at address zero, the log of bus
  accesses since it was last taken, a count of completed steps, and the labels of its
  program. What runs on it is a `Run`: a computation that can fail and that keeps,
  also when it fails, what it has done so far. Watchers are part of the computation:
  they have a state `σ` of their own and are told of every change just after it.
-/
import Lab8085.Bus
import Lab8085.Disassembly
import Lab8085.Symbols

namespace Lab8085

/-- The largest memory, which is also the default. -/
def maxMemory : Nat := 0x10000

/-- A machine. -/
structure Machine where
  state : State := {}
  memory : Memory
  log : Array Access := #[]
  steps : Nat := 0
  symbols : Symbols := {}

/-- What watchers are told: a change just made, or that a halt was executed. -/
inductive Event where
  | changed (c : Change)
  | halted
  deriving DecidableEq, Repr

/-- The direction of a memory access that failed. -/
inductive Direction where
  | read | write
  deriving DecidableEq, Repr

/-- Why a run fails; `ε` are the failures that watchers bring about. -/
inductive Fault (ε : Type) where
  | unknownOpcode (opcode : Byte) (address : Word)
  | outsideMemory (address : Word) (direction : Direction)
  | bus (e : BusError)
  /-- A register is asked for by something that is no name. -/
  | noName
  | raised (e : ε)

namespace Direction

def name : Direction → String
  | .read => "read"
  | .write => "write"

end Direction

namespace Fault

variable {ε : Type}

/-- The text of a fault, given the texts of the watchers' failures. -/
def message (raisedMessage : ε → String) : Fault ε → String
  | .unknownOpcode opcode address =>
    "Unknown opcode 0x" ++ Text.hex 2 opcode.toNat ++ " at address 0x" ++
      Text.hex 4 address.toNat
  | .outsideMemory address d =>
    "Memory " ++ d.name ++ " at address 0x" ++ Text.hex 4 address.toNat ++
      " is outside the installed memory"
  | .bus e => e.message
  | .noName => ""
  | .raised e => raisedMessage e

end Fault

/-- A computation on a machine and its watchers. -/
abbrev Run (ε σ : Type) := EStateM (Fault ε) (Machine × σ)

namespace Machine

/-- A machine with `n` bytes of memory. -/
def ofSize (n : Nat) : Machine where
  memory := .zeroed n

/-- A machine whose memory size is given as a value of any kind: an integer from 1 to 65536. -/
def ofSize? (given : Value) : Option Machine :=
  match given.asInt? with
  | some n => if 0 < n ∧ n ≤ maxMemory then some (ofSize n.toNat) else none
  | none => none

/-- The complaint about a memory size, or about showing it. -/
def sizeMessage (given : Value) : String :=
  if given.showable then
    "Memory size must be between 1 and " ++ toString maxMemory ++ ", got " ++ given.plain ++ "."
  else Number.tooLongToShow

def size (m : Machine) : Nat :=
  m.memory.size

/-- The byte at an address, if memory is installed there. -/
def peek? (m : Machine) (address : Int) : Option Byte :=
  if 0 ≤ address then m.memory.get? address.toNat else none

def record (m : Machine) (kind : AccessKind) (address data : Nat) : Machine :=
  { m with log := m.log.push ⟨kind, address, data⟩ }

/-- Makes a change, without telling anybody. -/
def change (m : Machine) (c : Change) : Machine :=
  { m with state := m.state.apply c }

/-- The machine with its registers, flags and step count as after power-on. Memory stays. -/
def reset (m : Machine) : Machine :=
  { m with state := {}, steps := 0 }

/-- Places numbers at consecutive addresses, up to the first that cannot be placed: its address
    is looked at before its value. Placing is not logged. -/
def place (m : Machine) (address : Int) : List Int → Machine × Option BusError
  | [] => (m, none)
  | v :: vs =>
    if m.memory.has address then
      match byteOfInt v with
      | .ok b => place { m with memory := m.memory.put address.toNat b } (address + 1) vs
      | .error e => (m, some e)
    else (m, some (.unmapped address))

/-- The bytes at consecutive addresses. -/
def bytesAt (m : Machine) (address : Int) : Nat → Except BusError (List Byte)
  | 0 => .ok []
  | n + 1 =>
    match m.peek? address with
    | some b => do return b :: (← m.bytesAt (address + 1) n)
    | none => .error (.unmapped address)

/-- The rows of a range of memory. -/
def disassemble (m : Machine) (start length : Int) : List Row :=
  Disassembly.rows m.peek? start length

end Machine

namespace Run

variable {ε σ α : Type}

/-- The machine as it is now. -/
def machine : Run ε σ Machine := fun s => .ok s.1 s

/-- The programmer's model as it is now. -/
def state : Run ε σ State := fun s => .ok s.1.state s

/-- Replaces the machine. -/
def modifyMachine (f : Machine → Machine) : Run ε σ Unit := fun s => .ok () (f s.1, s.2)

/-- The state of the watchers. -/
def watchers : Run ε σ σ := fun s => .ok s.2 s

/-- Replaces the state of the watchers. -/
def modifyWatchers (f : σ → σ) : Run ε σ Unit := fun s => .ok () (s.1, f s.2)

/-- Places numbers in memory. -/
def place (address : Int) (values : List Int) : Run ε σ Unit := fun s =>
  match s.1.place address values with
  | (m, none) => .ok () (m, s.2)
  | (m, some e) => .error (.bus e) (m, s.2)

/-- Takes the log, which is empty afterwards. -/
def takeLog : Run ε σ (List Access) := fun s =>
  .ok s.1.log.toList ({ s.1 with log := #[] }, s.2)

/-- Forgets the log. -/
def clearLog : Run ε σ Unit := modifyMachine fun m => { m with log := #[] }

/-- Makes a change and tells the watchers, unless the state holds the value already. -/
def assign (notify : Event → Run ε σ Unit) (c : Change) : Run ε σ Unit := fun s =>
  if s.1.state.holds c then .ok () s
  else notify (.changed c) (s.1.change c, s.2)

/-- Reads a memory byte. -/
def readMemory (address : Word) : Run ε σ Byte := fun (m, t) =>
  match m.memory.get? address.toNat with
  | some b => .ok b (m.record .read address.toNat b.toNat, t)
  | none => .error (.outsideMemory address .read) (m, t)

/-- Writes a memory byte. -/
def writeMemory (address : Word) (v : Byte) : Run ε σ Unit := fun (m, t) =>
  if address.toNat < m.memory.size then
    let m := { m with memory := m.memory.put address.toNat v }
    .ok () (m.record .write address.toNat v.toNat, t)
  else .error (.outsideMemory address .write) (m, t)

/-- Reads a port. No device answers on ports: the data is zero. -/
def readPort (port : Byte) : Run ε σ Byte := fun (m, t) =>
  .ok 0 (m.record .portIn port.toNat 0, t)

/-- Writes a port, which leaves only a record. -/
def writePort (port v : Byte) : Run ε σ Unit := fun (m, t) =>
  .ok () (m.record .portOut port.toNat v.toNat, t)

end Run

namespace Micro

variable {ε σ α : Type}

/-- The machine's answer to a request. -/
def Request.run (notify : Event → Run ε σ Unit) : (r : Request) → Run ε σ r.Answer
  | .state => Run.state
  | .assign c => Run.assign notify c
  | .read address => Run.readMemory address
  | .write address v => Run.writeMemory address v
  | .input port => Run.readPort port
  | .output port v => Run.writePort port v
  | .halted => notify .halted

/-- Runs a microprogram. -/
def run (notify : Event → Run ε σ Unit) : Micro α → Run ε σ α
  | .done x => pure x
  | .ask r next => do
    let x ← r.run notify
    (next x).run notify

/-! ## Laws -/

@[simp] theorem run_ask (notify : Event → Run ε σ Unit) (r : Request) (next : r.Answer → Micro α) :
    (Micro.ask r next).run notify = (r.run notify >>= fun x => (next x).run notify) := rfl

end Micro

end Lab8085
