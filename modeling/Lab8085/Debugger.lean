/-
  Lab8085.Debugger

  The debugger: breakpoints, a history of snapshots, and runs that stop at a
  breakpoint, after a halt, after a number of steps, at the end of memory, or when
  a watcher asks for it. A run does not stop at a breakpoint on the address where
  it begins.
-/
import Lab8085.Machine.Step
import Lab8085.RegisterMap
import Lab8085.Text.UpperCase

namespace Lab8085

/-- What a breakpoint waits for. -/
inductive BreakpointKind where
  | pcMatch | memoryRead | memoryWrite | portIn | portOut | registerValue | registerChange
  deriving DecidableEq, Repr

namespace BreakpointKind

def all : List BreakpointKind :=
  [.pcMatch, .memoryRead, .memoryWrite, .portIn, .portOut, .registerValue, .registerChange]

def name : BreakpointKind → String
  | .pcMatch => "PC_MATCH"
  | .memoryRead => "MEMORY_READ"
  | .memoryWrite => "MEMORY_WRITE"
  | .portIn => "IO_READ"
  | .portOut => "IO_WRITE"
  | .registerValue => "REGISTER_VALUE"
  | .registerChange => "REGISTER_CHANGE"

def ofName? (name : String) : Option BreakpointKind :=
  all.find? fun k => k.name == name

/-- The kind of bus access that a breakpoint waits for. -/
def access? : BreakpointKind → Option AccessKind
  | .memoryRead => some .read
  | .memoryWrite => some .write
  | .portIn => some .portIn
  | .portOut => some .portOut
  | _ => none

end BreakpointKind

/-- A breakpoint: `value` is an address for the program counter or the value of a register,
    `address` a memory address or a port, `register` a name of the register map. Values of other
    kinds are kept as they are given and match nothing; a run that comes to look up a register
    under such a value fails. -/
structure Breakpoint where
  kind : BreakpointKind
  value : Value := .null
  address : Value := .null
  register : Value := .null
  enabled : Value := .bool true

namespace Breakpoint

instance : BEq Breakpoint where
  beq a b := a.kind == b.kind && a.value == b.value && a.address == b.address &&
    a.register == b.register && a.enabled == b.enabled

/-- Whether the breakpoint waits for this address of the program counter. -/
def hitAt (b : Breakpoint) (pc : Word) : Bool :=
  b.enabled.truth && b.kind == .pcMatch && b.value == .int pc.toNat

/-- The value of a name of the register map; other names have none. -/
def valueOf (s : State) (name : String) : Value :=
  match s.named? name with
  | some n => .int n
  | none => .null

/-- Whether the breakpoint asks for a register by something that is no name. -/
def nameless (b : Breakpoint) : Bool :=
  b.enabled.truth && (b.kind == .registerValue || b.kind == .registerChange) && b.register.truth &&
    match b.register with
    | .text _ => false
    | _ => true

/-- Whether the breakpoint waits for something that a step did. -/
def hitBy (b : Breakpoint) (before after : State) (accesses : List Access) : Bool :=
  b.enabled.truth &&
    match b.kind.access? with
    | some k => accesses.any fun x => x.kind == k && b.address == .int x.address
    | none =>
      match b.register with
      | .text "" => false
      | .text r =>
        let name := Text.upperName r
        match b.kind with
        | .registerValue => b.value == valueOf after name
        | .registerChange => (after.named? name).isSome && before.named? name != after.named? name
        | _ => false
      | _ => false

end Breakpoint

/-- Why a run of the debugger stopped. -/
inductive StopReason where
  | breakpoint | halted | maxSteps | endOfMemory | stopped
  deriving DecidableEq, Repr

namespace StopReason

def name : StopReason → String
  | .breakpoint => "BREAKPOINT"
  | .halted => "HALTED"
  | .maxSteps => "MAX_STEPS"
  | .endOfMemory => "END_OF_MEMORY"
  | .stopped => "STOPPED"

end StopReason

/-- A debugger: `before` is the state before its latest step. -/
structure Debugger where
  breakpoints : List Breakpoint := []
  running : Bool := false
  before : State
  last : Option Snapshot := none
  history : Array Snapshot := #[]

namespace Debugger

/-- A debugger without breakpoints. -/
def ofState (s : State) : Debugger where
  before := s

/-- Adds a breakpoint unless an equal one is there. -/
def addBreakpoint (d : Debugger) (b : Breakpoint) : Debugger :=
  if d.breakpoints.contains b then d else { d with breakpoints := d.breakpoints ++ [b] }

def removeBreakpoint (d : Debugger) (b : Breakpoint) : Debugger :=
  { d with breakpoints := d.breakpoints.erase b }

/-- Asks a run to stop. -/
def stop (d : Debugger) : Debugger :=
  { d with running := false }

/-- Notes a step. -/
def note (d : Debugger) (s : Snapshot) : Debugger :=
  { d with last := some s, history := d.history.push s }

/-- A debugger inside the state of the watchers, so that watchers can ask it to stop. -/
structure Slot (σ : Type) where
  get : σ → Debugger
  modify : (Debugger → Debugger) → σ → σ

/-- The slot of a debugger that is the whole state. -/
def Slot.whole : Slot Debugger where
  get := id
  modify := id

variable {ε σ : Type}

/-- The debugger as it is now. -/
def now (slot : Slot σ) : Run ε σ Debugger := return slot.get (← Run.watchers)

def update (slot : Slot σ) (f : Debugger → Debugger) : Run ε σ Unit :=
  Run.modifyWatchers (slot.modify f)

/-- Makes a step and notes it. -/
def step (slot : Slot σ) (notify : Event → Run ε σ Unit) : Run ε σ Snapshot := do
  let before ← Run.state
  update slot fun d => { d with before := before }
  let s ← Run.step notify
  update slot fun d => d.note s
  return s

/-- Ends a run. -/
def finish (slot : Slot σ) (r : StopReason) : Run ε σ (Option StopReason) := do
  update slot stop
  return some r

/-- Goes on with a run that has made `steps` steps, by `fuel` further steps at most; without fuel
    there is no reason to stop yet. -/
def continueRun (slot : Slot σ) (notify : Event → Run ε σ Unit) (maxSteps : Option Int) :
    Nat → Nat → Run ε σ (Option StopReason)
  | 0, _ => return none
  | fuel + 1, steps => do
    if !(← now slot).running then
      return some .stopped
    let pc := (← Run.state).pc
    let here := (← Run.machine).memory.get? pc.toNat
    if here.isNone then
      finish slot .endOfMemory
    else if steps != 0 && (← now slot).breakpoints.any fun b => b.hitAt pc then
      finish slot .breakpoint
    else if maxSteps.any fun (n : Int) => decide (n ≤ steps) then
      finish slot .maxSteps
    else
      let s ← step slot notify
      if here == some haltOpcode then
        finish slot .halted
      else
        let d ← now slot
        let after ← Run.state
        match d.breakpoints.find? fun b => b.nameless || b.hitBy d.before after s.accesses with
        | some b => if b.nameless then throw .noName else finish slot .breakpoint
        | none => continueRun slot notify maxSteps fuel (steps + 1)

/-- Runs until there is a reason to stop. -/
def run (slot : Slot σ) (notify : Event → Run ε σ Unit) (fuel : Nat) (maxSteps : Option Int) :
    Run ε σ (Option StopReason) := do
  update slot fun d => { d with running := true }
  continueRun slot notify maxSteps fuel 0

end Debugger

end Lab8085
