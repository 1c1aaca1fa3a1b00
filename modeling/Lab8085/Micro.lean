/-
  Lab8085.Micro

  Microprograms. What an instruction does is written as a program over seven small
  requests to the machine: look at the state, change one part of it, read or write
  a memory byte or a port, report a halt. A program is data, so a law that every
  request keeps is a law of every instruction, by induction on its program.
-/
import Lab8085.State

namespace Lab8085

/-- A request of a microprogram to the machine. -/
inductive Micro.Request where
  | state
  | assign (change : Change)
  | read (address : Word)
  | write (address : Word) (value : Byte)
  | input (port : Byte)
  | output (port value : Byte)
  | halted
  deriving DecidableEq

/-- What the machine answers. -/
@[reducible] def Micro.Request.Answer : Micro.Request → Type
  | .state => State
  | .read _ | .input _ => Byte
  | .assign _ | .write _ _ | .output _ _ | .halted => Unit

/-- A microprogram with a result: finished, or a request and what to do with its answer. -/
inductive Micro (α : Type) where
  | done (result : α)
  | ask (request : Micro.Request) (next : request.Answer → Micro α)

namespace Micro

variable {α β : Type}

/-- One program after another. -/
def bind (m : Micro α) (f : α → Micro β) : Micro β :=
  match m with
  | .done x => f x
  | .ask r next => .ask r fun x => (next x).bind f

instance : Monad Micro where
  pure := .done
  bind := .bind

/-! ## Single requests -/

def state : Micro State := .ask .state .done

def assign (c : Change) : Micro Unit := .ask (.assign c) .done

def read (address : Word) : Micro Byte := .ask (.read address) .done

def write (address : Word) (value : Byte) : Micro Unit := .ask (.write address value) .done

def input (port : Byte) : Micro Byte := .ask (.input port) .done

def output (port value : Byte) : Micro Unit := .ask (.output port value) .done

def halted : Micro Unit := .ask .halted .done

/-! ## Parts of the state -/

def register (r : Register) : Micro Byte := return (← state).registers.get r

def setRegister (r : Register) (v : Byte) : Micro Unit := assign (.register r v)

def flag (f : Flag) : Micro Bool := return (← state).flags.get f

def setFlag (f : Flag) (v : Bool) : Micro Unit := assign (.flag f v)

def setPc (w : Word) : Micro Unit := assign (.pc w)

def setSp (w : Word) : Micro Unit := assign (.sp w)

def setMask (b : Byte) : Micro Unit := assign (.mask b)

def pair (p : Pair) : Micro Word := return (← state).pair p

/-- Changes made one after the other. -/
def assignAll : List Change → Micro Unit
  | [] => pure ()
  | c :: cs => do assign c; assignAll cs

def setPair (p : Pair) (w : Word) : Micro Unit := assignAll (State.pairChanges p w)

/-! ## Stack and instruction stream -/

/-- Pushes a word: the upper byte below the stack pointer, the lower byte below that. -/
def pushWord (w : Word) : Micro Unit := do
  let sp := (← state).sp
  write (sp - 1) (highByte w)
  write (sp - 2) (lowByte w)
  setSp (sp - 2)

/-- Takes the word off the top of the stack. -/
def popWord : Micro Word := do
  let sp := (← state).sp
  let low ← read sp
  let high ← read (sp + 1)
  setSp (sp + 2)
  return joinBytes high low

/-- Reads the byte at the program counter and moves past it. -/
def fetch : Micro Byte := do
  let value ← read (← state).pc
  setPc ((← state).pc + 1)
  return value

/-- Fetches a number of bytes, first to last. -/
def fetchBytes : Nat → Micro (List Byte)
  | 0 => return []
  | n + 1 => do
    let value ← fetch
    return value :: (← fetchBytes n)

/-! ## Laws of sequence -/

@[simp] theorem pure_def (x : α) : (pure x : Micro α) = .done x := rfl

@[simp] theorem done_bind (x : α) (f : α → Micro β) : (Micro.done x >>= f) = f x := rfl

@[simp] theorem ask_bind (r : Request) (next : r.Answer → Micro α) (f : α → Micro β) :
    (Micro.ask r next >>= f) = .ask r fun x => next x >>= f := rfl

end Micro

end Lab8085
