/-
  Lab8085.State

  The programmer's model as a value: registers, flags, program counter, stack
  pointer and interrupt mask. A `Change` gives one of these parts a new value;
  changes are what watchers of a machine are told about.
-/
import Lab8085.Register

namespace Lab8085

/-- The contents of the byte registers. -/
structure Registers where
  b : Byte := 0
  c : Byte := 0
  d : Byte := 0
  e : Byte := 0
  h : Byte := 0
  l : Byte := 0
  a : Byte := 0
  deriving DecidableEq, Inhabited

namespace Registers

def get (r : Registers) : Register → Byte
  | .b => r.b | .c => r.c | .d => r.d | .e => r.e | .h => r.h | .l => r.l | .a => r.a

def set (r : Registers) : Register → Byte → Registers
  | .b, v => { r with b := v }
  | .c, v => { r with c := v }
  | .d, v => { r with d := v }
  | .e, v => { r with e := v }
  | .h, v => { r with h := v }
  | .l, v => { r with l := v }
  | .a, v => { r with a := v }

theorem get_set (r : Registers) (k j : Register) (v : Byte) :
    (r.set k v).get j = if j = k then v else r.get j := by
  cases k <;> cases j <;> rfl

theorem ext_get {r s : Registers} (h : ∀ k, r.get k = s.get k) : r = s := by
  cases r; cases s
  have hb := h .b; have hc := h .c; have hd := h .d; have he := h .e
  have hh := h .h; have hl := h .l; have ha := h .a
  simp_all [get]

end Registers

/-- The condition flags. -/
structure Flags where
  s : Bool := false
  z : Bool := false
  ac : Bool := false
  p : Bool := false
  c : Bool := false
  deriving DecidableEq, Inhabited

namespace Flags

def get (f : Flags) : Flag → Bool
  | .s => f.s | .z => f.z | .ac => f.ac | .p => f.p | .c => f.c

def set (f : Flags) : Flag → Bool → Flags
  | .s, v => { f with s := v }
  | .z, v => { f with z := v }
  | .ac, v => { f with ac := v }
  | .p, v => { f with p := v }
  | .c, v => { f with c := v }

/-- The flag byte `S Z 0 AC 0 P 1 C`. -/
def pack (f : Flags) : Byte :=
  Flag.all.foldl (fun acc k => if f.get k then acc ||| k.bit else acc) 0x02#8

/-- The flags of a flag byte; the three fixed bits play no part. -/
def unpack (b : Byte) : Flags where
  s := b &&& Flag.s.bit ≠ 0
  z := b &&& Flag.z.bit ≠ 0
  ac := b &&& Flag.ac.bit ≠ 0
  p := b &&& Flag.p.bit ≠ 0
  c := b &&& Flag.c.bit ≠ 0

/-- The flags that are on, from the highest bit of the flag byte to the lowest. -/
def toList (f : Flags) : List Flag :=
  Flag.all.filter f.get

/-- The flags of a list turned on, all others off. -/
def ofList (ks : List Flag) : Flags :=
  ks.foldl (fun f k => f.set k true) {}

theorem get_set (f : Flags) (k j : Flag) (v : Bool) :
    (f.set k v).get j = if j = k then v else f.get j := by
  cases k <;> cases j <;> rfl

@[simp] theorem unpack_pack (f : Flags) : unpack f.pack = f := by
  obtain ⟨s, z, ac, p, c⟩ := f
  cases s <;> cases z <;> cases ac <;> cases p <;> cases c <;> rfl

end Flags

/-- The programmer's model. -/
structure State where
  registers : Registers := {}
  flags : Flags := {}
  pc : Word := 0
  sp : Word := 0
  mask : Byte := 0
  deriving DecidableEq, Inhabited

/-- A new value for one part of the state. -/
inductive Change where
  | pc (value : Word)
  | sp (value : Word)
  | mask (value : Byte)
  | register (r : Register) (value : Byte)
  | flag (f : Flag) (value : Bool)
  deriving DecidableEq, Repr

namespace State

/-- The state after a change. -/
def apply (s : State) : Change → State
  | .pc v => { s with pc := v }
  | .sp v => { s with sp := v }
  | .mask v => { s with mask := v }
  | .register r v => { s with registers := s.registers.set r v }
  | .flag f v => { s with flags := s.flags.set f v }

/-- Whether the state already holds the value that a change gives. -/
def holds (s : State) : Change → Bool
  | .pc v => s.pc == v
  | .sp v => s.sp == v
  | .mask v => s.mask == v
  | .register r v => s.registers.get r == v
  | .flag f v => s.flags.get f == v

/-- The word in a register pair. -/
def pair (s : State) : Pair → Word
  | .b => joinBytes s.registers.b s.registers.c
  | .d => joinBytes s.registers.d s.registers.e
  | .h => joinBytes s.registers.h s.registers.l
  | .sp => s.sp
  | .psw => joinBytes s.registers.a s.flags.pack

/-- The changes that put a word into a register pair, in the order in which they are made:
    the upper register first, the flags after the accumulator. -/
def pairChanges (p : Pair) (w : Word) : List Change :=
  match p with
  | .b => [.register .b (highByte w), .register .c (lowByte w)]
  | .d => [.register .d (highByte w), .register .e (lowByte w)]
  | .h => [.register .h (highByte w), .register .l (lowByte w)]
  | .sp => [.sp w]
  | .psw =>
    .register .a (highByte w) ::
      Flag.all.map fun f => .flag f ((Flags.unpack (lowByte w)).get f)

end State

end Lab8085
