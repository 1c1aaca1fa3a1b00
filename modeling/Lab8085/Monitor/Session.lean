/-
  Lab8085.Monitor.Session

  Monitor sessions: a machine, its watches and watchers, and debuggers. Watchers are
  called by name; every call is noted, then the watcher reacts, perhaps with a
  command that changes the machine and so calls watchers again. `perform` carries
  out a command given how events are told; `notify` tells events, with commands of
  watchers one level further down.
-/
import Lab8085.Given
import Lab8085.Monitor.Command
import Lab8085.Report

namespace Lab8085.Monitor

/-- A watcher: the topic that it was set up for first, and its reaction. -/
structure Watcher where
  topic : Topic
  reaction : Reaction

/-- Everything in a session besides the machine. Debuggers are kept by number, so that a run goes
    on with its own debugger when a watcher asks for a new one. -/
structure Desk where
  sizeGiven : Value := .int maxMemory
  files : Files := []
  watches : Watches String := {}
  watchers : List (String × Watcher) := []
  calls : Array String := #[]
  debuggers : Array Debugger := #[]

/-- A computation in a session. -/
abbrev Act (α : Type) := Run Failure Desk α

namespace Desk

/-- The watcher of a name. -/
def watcher? (d : Desk) (id : String) : Option Watcher :=
  d.watchers.lookup id

/-- Keeps a watcher under a name that is not taken yet. -/
def keep (d : Desk) (id : String) (w : Watcher) : Desk :=
  match d.watcher? id with
  | some _ => d
  | none => { d with watchers := (id, w) :: d.watchers }

/-- The debugger with a number. -/
def slot (k : Nat) : Debugger.Slot Desk where
  get d := d.debuggers[k]?.getD (.ofState {})
  modify f d := { d with debuggers := d.debuggers.modify k f }

end Desk

/-- Fails with a failure of the session. -/
def fail {α : Type} (e : Failure) : Act α := throw (.raised e)

/-- The outcome of a computation, also when it fails. -/
def attempt {α : Type} (act : Act α) : Act (Except (Fault Failure) α) := fun s =>
  match act s with
  | .ok x s => .ok (.ok x) s
  | .error e s => .ok (.error e) s

/-- The limit of unattended runs, past all that a session waits for. -/
def patience : Nat := 0x4000000000000000

/-! ## Debuggers -/

/-- Sets up a debugger and makes it the one in use. -/
def newDebugger : Act Unit := do
  let s ← Run.state
  Run.modifyWatchers fun d => { d with debuggers := d.debuggers.push (.ofState s) }

/-- The debugger in use; the first use sets one up. -/
def debugger : Act (Debugger.Slot Desk) := do
  if (← Run.watchers).debuggers.isEmpty then newDebugger
  return Desk.slot ((← Run.watchers).debuggers.size - 1)

/-! ## Programs -/

/-- Places values in memory. -/
def place (address : Value) (values : List Value) : Act Unit := fun (m, d) =>
  match m.placeGiven address 0 values with
  | (m, none) => .ok () (m, d)
  | (m, some e) => .error (.bus e) (m, d)

/-- A result, or a failure of the session. -/
def orFail {α : Type} (x : Except Failure α) : Act α :=
  match x with
  | .ok a => return a
  | .error e => fail e

/-- Assembles a source for an address and places its code there. -/
def loadSource (source : String) (address : Value) : Act Assembly := do
  let a ← orFail (Assembly.compileGiven Catalog.standard source address)
  place address (a.code.map fun b => .int b.toNat)
  return a

/-! ## Commands -/

/-- Up to `n` steps; a failure ends them. -/
def trace (notify : Event → Act Unit) (done : List Snapshot) : Nat → Act Answer
  | 0 => return .trace done.reverse none
  | n + 1 => do
    match ← attempt (Run.step notify) with
    | .ok s => trace notify (s :: done) n
    | .error e => return .trace done.reverse (some e)

/-- The most steps that a value allows a run; null sets no bound. -/
def stepLimit : Value → Except Failure (Option Int)
  | .null => .ok none
  | .float x => .ok (if x < 0 then some 0 else Number.whole? x.ceil)
  | v => v.number.map some

/-- A run of the debugger. A limit of the wrong kind is noticed unless the program counter is past
    the memory. -/
def debugRun (notify : Event → Act Unit) (maxSteps : Value) : Act Answer := do
  let slot ← debugger
  match stepLimit maxSteps with
  | .ok limit =>
    match ← Debugger.run slot notify patience limit with
    | some r => return .text r.name
    | none => return .done
  | .error e =>
    match ← Debugger.run slot notify 1 (some 0) with
    | some .endOfMemory => return .text StopReason.endOfMemory.name
    | _ => fail e

/-- Carries out a command. -/
def perform (notify : Event → Act Unit) : Command → Act Answer
  | .refused e => fail e
  | .place address values => do
    place address values
    return .done
  | .bytes address length => do
    match (← Run.machine).bytesGiven address length.toNat with
    | .ok bs => return .bytes bs
    | .error e => throw (.bus e)
  | .readMemory address => do
    return .number (← Run.readMemory (BitVec.ofInt 16 address)).toNat
  | .writeMemory address value => do
    Run.writeMemory (BitVec.ofInt 16 address) (BitVec.ofInt 8 value)
    return .done
  | .readPort port => return .number (← Run.readPort (BitVec.ofInt 8 port)).toNat
  | .writePort port value => do
    Run.writePort (BitVec.ofInt 8 port) (BitVec.ofInt 8 value)
    return .done
  | .pushWord value => do
    (Micro.pushWord (BitVec.ofInt 16 value)).run notify
    return .done
  | .popWord => return .number (← Micro.popWord.run notify).toNat
  | .setRegister r value => do
    Run.assign notify (.register r (BitVec.ofInt 8 value))
    return .done
  | .register r => return .number ((← Run.state).registers.get r).toNat
  | .setFlag f value => do
    Run.assign notify (.flag f value)
    return .done
  | .flag f => return .truth ((← Run.state).flags.get f)
  | .setPair p value => do
    (Micro.setPair p (BitVec.ofInt 16 value)).run notify
    return .done
  | .pair p => return .number ((← Run.state).pair p).toNat
  | .setPc value => do
    Run.assign notify (.pc (BitVec.ofInt 16 value))
    return .done
  | .setSp value => do
    Run.assign notify (.sp (BitVec.ofInt 16 value))
    return .done
  | .setMask value => do
    Run.assign notify (.mask (BitVec.ofInt 8 value))
    return .done
  | .reset => do
    Run.modifyMachine Machine.reset
    return .done
  | .step => return .snapshot (some (← Run.step notify))
  | .trace n => trace notify [] n
  | .run => do
    let _ ← Run.toEnd notify patience
    return .done
  | .takeLog => return .text (Access.listText (← Run.takeLog))
  | .dump => return .runs (← Run.machine).memory.nonzeroRuns
  | .disassemble address length => do
    match (← Run.machine).disassembleGiven address length with
    | .ok rows => return .rows rows
    | .error e => throw (.bus e)
  | .registerMap =>
    return .numbers (sortByName ((← Run.state).registerMap.map fun e => (e.1, (e.2 : Int))))
  | .flagMap => return .truths (sortByName (← Run.state).flagMap)
  | .layout => return .layout registerLayout
  | .pairs => do
    let s ← Run.state
    return .pairs s.registers.a.toNat (s.pair .b).toNat (s.pair .d).toNat (s.pair .h).toNat
  | .memorySize => return .value (← Run.watchers).sizeGiven
  | .setSymbols entries => do
    Run.modifyMachine fun m => { m with symbols := .ofList entries }
    if entries.all (·.2.isKey) then return .done else fail .wrongKind
  | .symbols => return .values (sortByName (← Run.machine).symbols.entries)
  | .loadSource source address => return .assembly (← loadSource source address)
  | .loadFile path address => do
    let source ← orFail (((← Run.watchers).files.readNamed path).mapError .file)
    return .assembly (← loadSource source address)
  | .watch topic subject id reaction => do
    Run.modifyWatchers fun d =>
      let d := d.keep id ⟨topic, reaction⟩
      { d with watches := d.watches.add ⟨topic, subject, id⟩ }
    return .done
  | .unwatch topic subject id reaction => do
    Run.modifyWatchers fun d =>
      let d := d.keep id ⟨topic, reaction⟩
      { d with watches := d.watches.cancel ⟨topic, subject, id⟩ }
    return .done
  | .newDebugger => do
    newDebugger
    return .done
  | .addBreakpoint b => do
    Debugger.update (← debugger) fun d => d.addBreakpoint b
    return .done
  | .removeBreakpoint b => do
    Debugger.update (← debugger) fun d => d.removeBreakpoint b
    return .done
  | .breakpoints => return .breakpoints (← Debugger.now (← debugger)).breakpoints
  | .debugStep => return .text (← Debugger.step (← debugger) notify).text
  | .debugRun maxSteps => debugRun notify maxSteps
  | .debugStop => do
    Debugger.update (← debugger) Debugger.stop
    return .done
  | .history =>
    return .texts ((← Debugger.now (← debugger)).history.toList.map Snapshot.text)
  | .lastSnapshot => return .snapshot (← Debugger.now (← debugger)).last

/-! ## Watchers -/

/-- Calls a watcher: the call is noted in the watcher's own words before the watcher reacts. -/
def call (notify : Event → Act Unit) (id : String) (e : Event) : Act Unit := do
  match (← Run.watchers).watcher? id with
  | none => return ()
  | some w =>
    let text ← orFail ((e.textAs w.topic).mapError .untold)
    Run.modifyWatchers fun d => { d with calls := d.calls.push (id ++ ":" ++ text) }
    match w.reaction with
    | .nothing => return ()
    | .fail message => fail (.raised message)
    | .perform c =>
      let _ ← perform notify c
      return ()

/-- Tells an event, with watchers calling each other `depth` levels deep at most. -/
def notify : Nat → Event → Act Unit
  | 0, e => Watches.tell Desk.watches (fun _ _ => fail .nesting) e
  | depth + 1, e => Watches.tell Desk.watches (call (notify depth)) e

/-- How deep watchers may call each other. -/
def nestingLimit : Nat := 245

/-- Carries out a command of the user. -/
def execute (c : Command) : Act Answer :=
  perform (notify nestingLimit) c

/-! ## Sessions -/

/-- What is seen of a command: its outcome, the state after it, the calls of watchers. -/
structure Report where
  outcome : Except (Fault Failure) Answer
  state : State
  calls : List String

/-- Carries out a command and reports on it. -/
def report (c : Command) (s : Machine × Desk) : Report × (Machine × Desk) :=
  let quiet := (s.1, { s.2 with calls := #[] })
  match execute c quiet with
  | .ok x s => (⟨.ok x, s.1.state, s.2.calls.toList⟩, s)
  | .error e s => (⟨.error e, s.1.state, s.2.calls.toList⟩, s)

/-- Carries out commands one after the other; a failure does not end the session. -/
def session (s : Machine × Desk) : List Command → List Report
  | [] => []
  | c :: cs =>
    let (r, s) := report c s
    r :: session s cs

end Lab8085.Monitor
