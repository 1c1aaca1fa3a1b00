/-
  Lab8085.Monitor.Command

  Commands of the monitor and what they answer. A watcher set up by a command may
  react to an event with a command of its own.
-/
import Lab8085.Assembly
import Lab8085.Debugger
import Lab8085.Failure
import Lab8085.Watch

namespace Lab8085.Monitor

mutual

/-- A command. Numbers may be of any size; registers and memory take their low bits. Where a
    command has values they may be of any kind, and are looked at only when they are needed. -/
inductive Command where
  /-- A command that could not be understood. -/
  | refused (e : Failure)
  -- memory, ports and stack
  | place (address : Value) (values : List Value)
  | bytes (address : Value) (length : Int)
  | readMemory (address : Int)
  | writeMemory (address value : Int)
  | readPort (port : Int)
  | writePort (port value : Int)
  | pushWord (value : Int)
  | popWord
  -- registers and flags
  | setRegister (r : Register) (value : Int)
  | register (r : Register)
  | setFlag (f : Flag) (value : Bool)
  | flag (f : Flag)
  | setPair (p : Pair) (value : Int)
  | pair (p : Pair)
  | setPc (value : Int)
  | setSp (value : Int)
  | setMask (value : Int)
  | reset
  -- execution
  | step
  | trace (n : Nat)
  | run
  -- views
  | takeLog
  | dump
  | disassemble (address : Value) (length : Int)
  | registerMap
  | flagMap
  | layout
  | pairs
  | memorySize
  -- programs
  | setSymbols (entries : List (String × Value))
  | symbols
  | loadSource (source : String) (address : Value)
  | loadFile (path address : Value)
  -- watches
  | watch (topic : Topic) (subject : Option Subject) (id : String) (reaction : Reaction)
  | unwatch (topic : Topic) (subject : Option Subject) (id : String) (reaction : Reaction)
  -- debugger
  | newDebugger
  | addBreakpoint (b : Breakpoint)
  | removeBreakpoint (b : Breakpoint)
  | breakpoints
  | debugStep
  | debugRun (maxSteps : Value)
  | debugStop
  | history
  | lastSnapshot

/-- What a watcher does when it is told of an event. -/
inductive Reaction where
  | nothing
  | fail (message : String)
  | perform (c : Command)

end

instance : Inhabited Command := ⟨.reset⟩

instance : Inhabited Reaction := ⟨.nothing⟩

/-- What a command answers. -/
inductive Answer where
  | done
  | number (n : Int)
  | truth (b : Bool)
  | value (v : Value)
  | bytes (bs : List Byte)
  | text (s : String)
  | texts (ss : List String)
  /-- Snapshots, and the failure that ended them if there was one. -/
  | trace (snapshots : List Snapshot) (failure : Option (Fault Failure))
  | runs (rs : List (Nat × List Byte))
  | rows (rs : List Row)
  | numbers (es : List (String × Int))
  | values (es : List (String × Value))
  | truths (es : List (String × Bool))
  | layout (gs : List (String × List (String × Nat)))
  | pairs (a bc de hl : Nat)
  | snapshot (s : Option Snapshot)
  | assembly (a : Assembly)
  | breakpoints (bs : List Breakpoint)

end Lab8085.Monitor
