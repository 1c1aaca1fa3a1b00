/-
  Lab8085.Machine.Step

  Steps. A step fetches an opcode and the bytes that belong to it, carries out the
  instruction and takes a snapshot. A run repeats steps until it comes to a halt
  instruction, which it leaves unexecuted, or past the end of memory.
-/
import Lab8085.Machine

namespace Lab8085

/-- What a step did: the state after it, the instruction, the number of steps so far, the label
    and text of the instruction, and the bus accesses. -/
structure Snapshot where
  state : State
  operation : Operation
  stepCount : Nat
  symbolInfo : String
  accesses : List Access
  deriving DecidableEq

namespace Machine

/-- The text of an instruction with the label of its address, if there is one. -/
def symbolInfo (m : Machine) (address : Word) (o : Operation) : String :=
  let label := m.symbols.labelAt address.toNat
  if label = "" then o.text else label ++ ": " ++ o.text

end Machine

namespace Run

variable {ε σ : Type}

/-- Counts a step and takes the log into a snapshot of it. -/
def snapshot (start : Word) (o : Operation) : Run ε σ Snapshot := do
  let accesses ← takeLog
  modifyMachine fun m => { m with steps := m.steps + 1 }
  let m ← machine
  return ⟨m.state, o, m.steps, m.symbolInfo start o, accesses⟩

/-- One step. -/
def step (notify : Event → Run ε σ Unit) : Run ε σ Snapshot := do
  clearLog
  let start := (← state).pc
  let opcode ← Micro.fetch.run notify
  match Catalog.standard.opcode? opcode.toNat with
  | none => throw (.unknownOpcode opcode ((← state).pc - 1))
  | some e =>
    let bytes ← (Micro.fetchBytes e.descriptor.kind.extraBytes).run notify
    (e.effect bytes).run notify
    snapshot start (Operation.ofBytes e bytes)

/-- Whether a run goes no further: the program counter is past the memory or at a halt. -/
def atEnd : Run ε σ Bool := fun s =>
  let b := s.1.memory.get? s.1.state.pc.toNat
  .ok (b.isNone || b == some haltOpcode) s

/-- Repeats steps until the end, at most `fuel` times; true when the end was reached. -/
def toEnd (notify : Event → Run ε σ Unit) : Nat → Run ε σ Bool
  | 0 => atEnd
  | fuel + 1 => do
    if ← atEnd then return true
    let _ ← step notify
    toEnd notify fuel

end Run

namespace Machine

/-- Nobody is told anything. -/
def unwatched {ε σ : Type} (_ : Event) : Run ε σ Unit := pure ()

/-- A computation without watchers, as a function of the machine. -/
def quietly {α : Type} (r : Run Empty Unit α) (m : Machine) : Except (Fault Empty) α × Machine :=
  match r (m, ()) with
  | .ok x s => (.ok x, s.1)
  | .error e s => (.error e, s.1)

/-- One step without watchers. -/
def step (m : Machine) : Except (Fault Empty) Snapshot × Machine :=
  quietly (Run.step unwatched) m

end Machine

end Lab8085
