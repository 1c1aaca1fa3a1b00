/-
  Lab8085.Instruction.Action

  What instructions do, as microprograms. The order of the steps is part of the
  meaning: a watcher sees every change, and a failing memory access leaves the
  steps before it done.

  Flag rules. Additions and subtractions set all flags; those with carry take the
  carry in and then clear it. A comparison sets the flags of a subtraction, but
  keeps the carry when both sides are equal. Counting by one keeps the carry; on a
  register pair it keeps all flags.
-/
import Lab8085.Arithmetic
import Lab8085.Micro
import Lab8085.Instruction.Operand

namespace Lab8085

/-- When a jump, call or return is taken. -/
inductive Condition where
  | always
  | on (f : Flag)
  | off (f : Flag)
  deriving DecidableEq, Repr

/-- What a family of instructions does with its operand. -/
inductive Action where
  -- transfer
  | move (target : Place) | loadPair (p : Pair) | loadA | storeA | loadHL | storeHL
  | loadIndirect | storeIndirect | exchange
  -- stack
  | push | pop | exchangeTop | stackFromHL
  -- arithmetic and logic on the accumulator
  | add | addCarry | subtract | subtractBorrow | and | xor | or | compare
  -- counting and sums of pairs
  | increment | decrement | incrementPair | decrementPair | addPair
  -- accumulator and carry
  | decimalAdjust | complement | complementCarry | setCarry
  | rotateLeft | rotateRight | rotateLeftCarry | rotateRightCarry
  -- branches
  | jump (k : Condition) | call (k : Condition) | ret (k : Condition) | restart | jumpHL
  -- control and ports
  | nop | halt | enable | disable | readMask | setMask | input | output
  deriving DecidableEq, Repr

namespace Place

/-- The byte in a place. -/
def load : Place → Micro Byte
  | .register r => Micro.register r
  | .memory => do Micro.read (← Micro.pair .h)

/-- Puts a byte into a place. -/
def store : Place → Byte → Micro Unit
  | .register r, v => Micro.setRegister r v
  | .memory, v => do Micro.write (← Micro.pair .h) v

end Place

namespace Operand

/-- The byte that an operand stands for. -/
def load : Operand → Micro Byte
  | .place p => p.load
  | .byte b => pure b
  | _ => pure 0

end Operand

namespace Action

open Micro

/-- Parity, zero and sign of a result. -/
def setResultFlags (result : Byte) : Micro Unit := do
  setFlag .p (evenParity result)
  setFlag .z (result == 0)
  setFlag .s result.msb

/-- The carry flag as a number. -/
def carryBit : Micro Nat := return (← flag .c).toNat

/-- Adds a value and a carry to the accumulator. -/
def addWith (value : Byte) (carry : Nat) : Micro Unit := do
  let a ← register .a
  let sum := a.toNat + value.toNat + carry
  let result := BitVec.ofNat 8 sum
  setFlag .ac (halfCarry a.toNat value.toNat carry)
  setFlag .c (sum > 0xFF)
  setRegister .a result
  setResultFlags result

/-- Subtracts a value and a borrow from the accumulator; without `keep` the accumulator stays
    and only the flags are set. -/
def subtractWith (value : Byte) (borrow : Nat) (keep : Bool) : Micro Unit := do
  let a ← register .a
  let subtrahend := value.toNat + borrow
  let result := a - BitVec.ofNat 8 subtrahend
  setFlag .ac (halfBorrow a.toNat value.toNat borrow)
  if keep || a.toNat != subtrahend then
    setFlag .c (a.toNat < subtrahend)
  if keep then
    setRegister .a result
  setResultFlags result

/-- Puts the result of a logic operation into the accumulator. -/
def logic (result : Byte) (auxiliary : Bool) : Micro Unit := do
  setRegister .a result
  setFlag .ac auxiliary
  setFlag .c false
  setResultFlags result

/-- Corrects the accumulator after an addition of two decimal numbers. -/
def adjust : Micro Unit := do
  let s ← state
  let a := s.registers.a
  let lowFix := decide (a.toNat % 16 > 9) || s.flags.ac
  let highFix := decide (a.toNat > 0x99) || s.flags.c
  let correction : Byte := (if lowFix then 0x06 else 0) ||| (if highFix then 0x60 else 0)
  let result := a + correction
  setFlag .ac (halfCarry a.toNat correction.toNat 0)
  setFlag .c highFix
  setRegister .a result
  setResultFlags result

/-- Gives the accumulator and the carry new values, as the rotations do. -/
def rotateTo (result : Byte) (carry : Bool) : Micro Unit := do
  setRegister .a result
  setFlag .c carry

/-- Whether a condition holds now. -/
def holds : Condition → Micro Bool
  | .always => pure true
  | .on f => flag f
  | .off f => return !(← flag f)

/-- Goes to an address and leaves the way back on the stack. -/
def callTo (target : Word) : Micro Unit := do
  pushWord (← state).pc
  setPc target

/-- The interrupt-enable bit of the mask. -/
def enableBit : Byte := 0x08#8

/-- The bits of the mask that the accumulator can set. -/
def maskBits : Byte := 0x07#8

/-- The microprogram of an action on an operand. An operand of a kind that the action does not
    take has no effect. -/
def run : Action → Operand → Micro Unit
  | .move target, x => do target.store (← x.load)
  | .loadPair p, .word w => setPair p w
  | .loadA, .word w => do setRegister .a (← read w)
  | .storeA, .word w => do write w (← register .a)
  | .loadHL, .word w => do
    setRegister .l (← read w)
    setRegister .h (← read (w + 1))
  | .storeHL, .word w => do
    write w (← register .l)
    write (w + 1) (← register .h)
  | .loadIndirect, .pair p => do setRegister .a (← read (← pair p))
  | .storeIndirect, .pair p => do write (← pair p) (← register .a)
  | .exchange, _ => do
    let de ← pair .d
    setPair .d (← pair .h)
    setPair .h de
  | .push, .pair p => do pushWord (← pair p)
  | .pop, .pair p => do setPair p (← popWord)
  | .exchangeTop, _ => do
    let sp := (← state).sp
    let low ← read sp
    let high ← read (sp + 1)
    write sp (← register .l)
    write (sp + 1) (← register .h)
    setRegister .l low
    setRegister .h high
  | .stackFromHL, _ => do setSp (← pair .h)
  | .add, x => do addWith (← x.load) 0
  | .addCarry, x => do
    addWith (← x.load) (← carryBit)
    setFlag .c false
  | .subtract, x => do subtractWith (← x.load) 0 true
  | .subtractBorrow, x => do
    subtractWith (← x.load) (← carryBit) true
    setFlag .c false
  | .and, x => do
    let v ← x.load
    logic ((← register .a) &&& v) true
  | .xor, x => do
    let v ← x.load
    logic ((← register .a) ^^^ v) false
  | .or, x => do
    let v ← x.load
    logic ((← register .a) ||| v) false
  | .compare, x => do subtractWith (← x.load) 0 false
  | .increment, .place p => do
    let v ← p.load
    p.store (v + 1)
    setFlag .ac (halfCarry v.toNat 1 0)
    setResultFlags (v + 1)
  | .decrement, .place p => do
    let v ← p.load
    p.store (v - 1)
    setFlag .ac (halfBorrow v.toNat 1 0)
    setResultFlags (v - 1)
  | .incrementPair, .pair p => do setPair p ((← pair p) + 1)
  | .decrementPair, .pair p => do setPair p ((← pair p) - 1)
  | .addPair, .pair p => do
    let hl ← pair .h
    let x ← pair p
    setFlag .c (hl.toNat + x.toNat > 0xFFFF)
    setPair .h (hl + x)
  | .decimalAdjust, _ => adjust
  | .complement, _ => do setRegister .a (~~~(← register .a))
  | .complementCarry, _ => do setFlag .c (!(← flag .c))
  | .setCarry, _ => setFlag .c true
  | .rotateLeft, _ => do
    let a ← register .a
    rotateTo (a.rotateLeft 1) a.msb
  | .rotateRight, _ => do
    let a ← register .a
    rotateTo (a.rotateRight 1) (a.getLsbD 0)
  | .rotateLeftCarry, _ => do
    let a ← register .a
    rotateTo (a <<< 1 ||| BitVec.ofNat 8 (← carryBit)) a.msb
  | .rotateRightCarry, _ => do
    let a ← register .a
    rotateTo (a >>> 1 ||| BitVec.ofNat 8 (← carryBit) <<< 7) (a.getLsbD 0)
  | .jump k, .word w => do if ← holds k then setPc w
  | .call k, .word w => do if ← holds k then callTo w
  | .ret k, _ => do if ← holds k then setPc (← popWord)
  | .restart, .index n => callTo (BitVec.ofNat 16 (8 * n.val))
  | .jumpHL, _ => do setPc (← pair .h)
  | .nop, _ => pure ()
  | .halt, _ => halted
  | .enable, _ => do Micro.setMask ((← state).mask ||| enableBit)
  | .disable, _ => do Micro.setMask ((← state).mask &&& ~~~enableBit)
  | .readMask, _ => do setRegister .a (← state).mask
  | .setMask, _ => do
    let a ← register .a
    if a &&& enableBit ≠ 0 then
      Micro.setMask ((← state).mask &&& ~~~maskBits ||| a &&& maskBits)
  | .input, .byte port => do setRegister .a (← Micro.input port)
  | .output, .byte port => do Micro.output port (← register .a)
  | _, _ => pure ()

end Action

end Lab8085
