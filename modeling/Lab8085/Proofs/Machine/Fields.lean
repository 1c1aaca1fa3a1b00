/-
  Lab8085.Proofs.Machine.Fields

  Registers, pairs, words and flags by their bit fields, as the opcode map has them.

  What stands here is told in numbers and single bits: a pair is 256 times its upper
  byte plus its lower one, the flag byte is a sum of powers of two, field 6 is the
  memory byte at HL.  Beside each notion stands the lemma that the machine's own
  microprograms do the same; reference interpreters are made from the notions alone.
-/
import Lab8085.Proofs.Machine.Quiet

namespace Lab8085

/-! ## Fields of an opcode -/

namespace Field

/-- Bits 3 to 5 of an opcode. -/
def target (b : Byte) : Fin 8 :=
  ⟨b.toNat / 8 % 8, Nat.mod_lt _ (by decide)⟩

/-- Bits 0 to 2 of an opcode. -/
def source (b : Byte) : Fin 8 :=
  ⟨b.toNat % 8, Nat.mod_lt _ (by decide)⟩

/-- Bits 4 and 5 of an opcode. -/
def pair (b : Byte) : Fin 4 :=
  ⟨b.toNat / 16 % 4, Nat.mod_lt _ (by decide)⟩

/-- Arithmetic, logic and rotation have the opcodes of these patterns. -/
def isArithmetic (b : Byte) : Bool :=
  b &&& 0xC0 == 0x80 ||      -- 10ooosss
  b &&& 0xC7 == 0xC6 ||      -- 11ooo110
  b &&& 0xC7 == 0x04 ||      -- 00ddd100
  b &&& 0xC7 == 0x05 ||      -- 00ddd101
  b &&& 0xCF == 0x03 ||      -- 00pp0011
  b &&& 0xCF == 0x0B ||      -- 00pp1011
  b &&& 0xCF == 0x09 ||      -- 00pp1001
  b &&& 0xC7 == 0x07         -- 07 0F 17 1F 27 2F 37 3F

/-- The place that a three-bit field names. -/
def place : Fin 8 → Place
  | 0 => .register .b | 1 => .register .c | 2 => .register .d | 3 => .register .e
  | 4 => .register .h | 5 => .register .l | 6 => .memory | 7 => .register .a

/-- The register pair that a two-bit field names. -/
def pairOrSp : Fin 4 → Pair
  | 0 => .b | 1 => .d | 2 => .h | 3 => .sp

/-- The register pair that the field of a stack instruction names. -/
def pairOrPsw : Fin 4 → Pair
  | 0 => .b | 1 => .d | 2 => .h | 3 => .psw

end Field

/-! ## Words and flags as numbers -/

/-- The word of an upper and a lower byte. -/
def wordOf (high low : Byte) : Word :=
  BitVec.ofNat 16 (256 * high.toNat + low.toNat)

/-- The upper byte of a word. -/
def upperHalf (w : Word) : Byte :=
  BitVec.ofNat 8 (w.toNat / 256)

/-- The lower byte of a word. -/
def lowerHalf (w : Word) : Byte :=
  BitVec.ofNat 8 (w.toNat % 256)

theorem joinBytes_eq_wordOf (high low : Byte) : joinBytes high low = wordOf high low := by
  apply BitVec.eq_of_toNat_eq
  have hh := high.isLt
  have hl := low.isLt
  rw [toNat_joinBytes, wordOf, BitVec.toNat_ofNat, Nat.mod_eq_of_lt (by omega)]

theorem highByte_eq_upperHalf (w : Word) : highByte w = upperHalf w := by
  apply BitVec.eq_of_toNat_eq
  have hw := w.isLt
  rw [toNat_highByte, upperHalf, BitVec.toNat_ofNat, Nat.mod_eq_of_lt (by omega)]

theorem lowByte_eq_lowerHalf (w : Word) : lowByte w = lowerHalf w := by
  apply BitVec.eq_of_toNat_eq
  rw [toNat_lowByte, lowerHalf, BitVec.toNat_ofNat]
  omega

theorem upperHalf_wordOf (high low : Byte) : upperHalf (wordOf high low) = high := by
  rw [← joinBytes_eq_wordOf, ← highByte_eq_upperHalf, highByte_joinBytes]

theorem lowerHalf_wordOf (high low : Byte) : lowerHalf (wordOf high low) = low := by
  rw [← joinBytes_eq_wordOf, ← lowByte_eq_lowerHalf, lowByte_joinBytes]

namespace Flags

/-- The flag byte `S Z 0 AC 0 P 1 C`. -/
def byte (f : Flags) : Byte :=
  BitVec.ofNat 8 (128 * f.s.toNat + 64 * f.z.toNat + 16 * f.ac.toNat + 4 * f.p.toNat + 2 +
    f.c.toNat)

/-- The flags in a flag byte: bits 7, 6, 4, 2 and 0. -/
def ofByte (b : Byte) : Flags :=
  ⟨b.getLsbD 7, b.getLsbD 6, b.getLsbD 4, b.getLsbD 2, b.getLsbD 0⟩

theorem pack_eq_byte (f : Flags) : f.pack = f.byte := by
  obtain ⟨s, z, ac, p, c⟩ := f
  revert s z ac p c
  decide

theorem unpack_eq_ofByte : ∀ b : Byte, unpack b = ofByte b := by
  decide +kernel

end Flags

/-! ## Operands -/

namespace Core

/-- The core with another program counter. -/
def goTo (c : Core) (a : Word) : Core :=
  { c with state.pc := a }

@[simp] theorem goTo_pc (c : Core) (a : Word) : (c.goTo a).state.pc = a := rfl

@[simp] theorem goTo_goTo (c : Core) (a b : Word) : (c.goTo a).goTo b = c.goTo b := rfl

@[simp] theorem read?_goTo (c : Core) (a b : Word) : (c.goTo a).read? b = c.read? b := rfl

/-- The core with another accumulator. -/
def setA (c : Core) (v : Byte) : Core :=
  { c with state.registers.a := v }

@[simp] theorem change_a (c : Core) (v : Byte) : c.change (.register .a v) = c.setA v := rfl

@[simp] theorem change_pc (c : Core) (a : Word) : c.change (.pc a) = c.goTo a := rfl

/-- The word at an address and the next, its lower byte first. -/
def readWord? (c : Core) (a : Word) : Option Word := do
  let low ← c.read? a
  let high ← c.read? (a + 1)
  return wordOf high low

/-- The core with a word at an address and the next, its lower byte first. -/
def writeWord? (c : Core) (a : Word) (w : Word) : Option Core := do
  let c ← c.write? a (lowerHalf w)
  c.write? (a + 1) (upperHalf w)

/-- The byte after the instruction's last one read so far, and the core past it. -/
def next? (c : Core) : Option (Byte × Core) := do
  return (← c.read? c.state.pc, c.goTo (c.state.pc + 1))

/-- The word after the instruction's last byte read so far, and the core past it. -/
def nextWord? (c : Core) : Option (Word × Core) := do
  return (← c.readWord? c.state.pc, c.goTo (c.state.pc + 2))

/-- The word in D and E. -/
def de (c : Core) : Word :=
  wordOf c.state.registers.d c.state.registers.e

/-- The word in H and L. -/
def hl (c : Core) : Word :=
  wordOf c.state.registers.h c.state.registers.l

/-- The core with a word in D and E. -/
def setDe (c : Core) (w : Word) : Core :=
  { c with state.registers.d := upperHalf w, state.registers.e := lowerHalf w }

/-- The core with a word in H and L. -/
def setHl (c : Core) (w : Word) : Core :=
  { c with state.registers.h := upperHalf w, state.registers.l := lowerHalf w }

/-- The core with another stack pointer. -/
def setSp (c : Core) (w : Word) : Core :=
  { c with state.sp := w }

/-- The register pair of a field. -/
def pair (c : Core) : Fin 4 → Word
  | 0 => wordOf c.state.registers.b c.state.registers.c
  | 1 => c.de
  | 2 => c.hl
  | 3 => c.state.sp

/-- The core with a word in the register pair of a field. -/
def setPair (c : Core) (p : Fin 4) (w : Word) : Core :=
  match p with
  | 0 => { c with state.registers.b := upperHalf w, state.registers.c := lowerHalf w }
  | 1 => c.setDe w
  | 2 => c.setHl w
  | 3 => c.setSp w

/-- The byte that a field names, if there is one. -/
def byte? (c : Core) : Fin 8 → Option Byte
  | 0 => some c.state.registers.b
  | 1 => some c.state.registers.c
  | 2 => some c.state.registers.d
  | 3 => some c.state.registers.e
  | 4 => some c.state.registers.h
  | 5 => some c.state.registers.l
  | 6 => c.read? c.hl
  | 7 => some c.state.registers.a

/-- The core with a byte in what a field names, if there is such a thing. -/
def setByte? (c : Core) (d : Fin 8) (v : Byte) : Option Core :=
  match d with
  | 0 => some { c with state.registers.b := v }
  | 1 => some { c with state.registers.c := v }
  | 2 => some { c with state.registers.d := v }
  | 3 => some { c with state.registers.e := v }
  | 4 => some { c with state.registers.h := v }
  | 5 => some { c with state.registers.l := v }
  | 6 => c.write? c.hl v
  | 7 => some { c with state.registers.a := v }

/-- A write leaves the programmer's model alone. -/
theorem state_of_write? {c d : Core} {a : Word} {v : Byte} (h : c.write? a v = some d) :
    d.state = c.state := by
  rw [write?] at h
  split at h
  · obtain rfl := Option.some.inj h
    rfl
  · cases h

@[simp] theorem upperHalf_hl (c : Core) : upperHalf c.hl = c.state.registers.h :=
  upperHalf_wordOf _ _

@[simp] theorem lowerHalf_hl (c : Core) : lowerHalf c.hl = c.state.registers.l :=
  lowerHalf_wordOf _ _

/-- L and H get the bytes of a word one after the other. -/
theorem change_l_h (c : Core) (high low : Byte) :
    (c.change (.register .l low)).change (.register .h high) = c.setHl (wordOf high low) := by
  rw [setHl, upperHalf_wordOf, lowerHalf_wordOf]
  rfl

/-- Fetching is reading at the program counter, which moves on. -/
theorem eval_fetch (c : Core) : Micro.fetch.eval c = c.next? := by
  simp only [Micro.fetch, Micro.setPc, Micro.eval_bind, Micro.eval_state, Micro.eval_read,
    Option.bind_some, next?]
  cases c.read? c.state.pc <;> rfl

@[simp] theorem pair_eq (c : Core) (p : Fin 4) : c.state.pair (Field.pairOrSp p) = c.pair p := by
  match p with
  | 0 => exact joinBytes_eq_wordOf _ _
  | 1 => exact joinBytes_eq_wordOf _ _
  | 2 => exact joinBytes_eq_wordOf _ _
  | 3 => rfl

@[simp] theorem pair_d_eq (c : Core) : c.state.pair .d = c.de :=
  joinBytes_eq_wordOf _ _

@[simp] theorem pair_h_eq (c : Core) : c.state.pair .h = c.hl :=
  joinBytes_eq_wordOf _ _

@[simp] theorem eval_setPair_d (w : Word) (c : Core) :
    (Micro.setPair .d w).eval c = some ((), c.setDe w) := by
  rw [Micro.setPair, Micro.eval_assignAll, setDe, ← highByte_eq_upperHalf, ← lowByte_eq_lowerHalf]
  rfl

@[simp] theorem eval_setPair_h (w : Word) (c : Core) :
    (Micro.setPair .h w).eval c = some ((), c.setHl w) := by
  rw [Micro.setPair, Micro.eval_assignAll, setHl, ← highByte_eq_upperHalf, ← lowByte_eq_lowerHalf]
  rfl

@[simp] theorem eval_setPair (p : Fin 4) (w : Word) (c : Core) :
    (Micro.setPair (Field.pairOrSp p) w).eval c = some ((), c.setPair p w) := by
  match p with
  | 0 =>
      rw [Micro.setPair, Micro.eval_assignAll, setPair, ← highByte_eq_upperHalf,
        ← lowByte_eq_lowerHalf]
      rfl
  | 1 => exact eval_setPair_d w c
  | 2 => exact eval_setPair_h w c
  | 3 => rfl

/-- A place is loaded as its field says. -/
@[simp] theorem eval_load (d : Fin 8) (c : Core) :
    (Field.place d).load.eval c = (c.byte? d).map fun v => (v, c) := by
  match d with
  | 0 => rfl
  | 1 => rfl
  | 2 => rfl
  | 3 => rfl
  | 4 => rfl
  | 5 => rfl
  | 6 => simp [Field.place, Place.load, byte?, pair_h_eq]
  | 7 => rfl

/-- A byte is stored where the field says. -/
@[simp] theorem eval_store (d : Fin 8) (v : Byte) (c : Core) :
    ((Field.place d).store v).eval c = (c.setByte? d v).map fun c => ((), c) := by
  match d with
  | 0 => rfl
  | 1 => rfl
  | 2 => rfl
  | 3 => rfl
  | 4 => rfl
  | 5 => rfl
  | 6 => simp [Field.place, Place.store, setByte?, pair_h_eq]
  | 7 => rfl

end Core

/-! ## Entries by the bytes that follow the opcode -/

attribute [simp] Action.run

/-- What follows an opcode: nothing, a byte or a word. Without anything the operand is built in. -/
inductive Form where
  | builtIn (x : Operand)
  | byte
  | word
  deriving DecidableEq

namespace Form

/-- The form of the instructions of an entry. -/
def ofEntry (e : Entry) : Form :=
  match e.descriptor.kind with
  | .byte => .byte
  | .word | .label => .word
  | _ => .builtIn e.choice.operand

/-- An action on the operand; the program counter is past the opcode. -/
@[simp] def perform (x : Form) (a : Action) (c : Core) : Option Core :=
  match x with
  | .builtIn x => ((a.run x).eval c).map Prod.snd
  | .byte => do
      let (b, c) ← c.next?
      ((a.run (.byte b)).eval c).map Prod.snd
  | .word => do
      let (w, c) ← c.nextWord?
      ((a.run (.word w)).eval c).map Prod.snd

end Form

namespace Core

theorem eval_fetchBytes_two (c : Core) :
    (Micro.fetchBytes 2).eval c = do
      let low ← c.read? c.state.pc
      let high ← c.read? (c.state.pc + 1)
      return ([low, high], c.goTo (c.state.pc + 2)) := by
  have hpc : c.state.pc + 1#16 + 1#16 = c.state.pc + 2#16 := by
    rw [BitVec.add_assoc]
    rfl
  cases h₁ : c.read? c.state.pc with
  | none => simp [Micro.fetchBytes, eval_fetch, next?, h₁]
  | some low =>
      cases h₂ : c.read? (c.state.pc + 1#16) with
      | none => simp [Micro.fetchBytes, eval_fetch, next?, h₁, h₂]
      | some high => simp [Micro.fetchBytes, eval_fetch, next?, h₁, h₂, hpc]

/-- An entry is carried out by its form and its action alone. -/
theorem carryOut_eq_perform (e : Entry) (c : Core) :
    carryOut e c = (Form.ofEntry e).perform e.descriptor.action c := by
  obtain ⟨code, ⟨mnemonic, base, kind, action, spacing⟩, x⟩ := e
  have hone : carryOut ⟨code, ⟨mnemonic, base, .byte, action, spacing⟩, x⟩ c =
      Form.byte.perform action c := by
    rw [carryOut]
    cases h : c.next? with
    | none => simp [OperandKind.extraBytes, Micro.fetchBytes, eval_fetch, Form.perform, h]
    | some p => simp [OperandKind.extraBytes, Micro.fetchBytes, eval_fetch, Form.perform, h,
        Entry.effect, Entry.operand]
  have htwo (kind : OperandKind) (hk : kind = .word ∨ kind = .label) :
      carryOut ⟨code, ⟨mnemonic, base, kind, action, spacing⟩, x⟩ c =
        Form.word.perform action c := by
    have hx : kind.extraBytes = 2 := by
      rcases hk with rfl | rfl <;> rfl
    have he (low high : Byte) :
        Entry.effect ⟨code, ⟨mnemonic, base, kind, action, spacing⟩, x⟩ [low, high] =
          action.run (.word (wordOf high low)) := by
      rw [← joinBytes_eq_wordOf]
      rcases hk with rfl | rfl <;> rfl
    rw [carryOut]
    simp only [hx, eval_fetchBytes_two, Form.perform, nextWord?, readWord?]
    cases h₁ : c.read? c.state.pc with
    | none => rfl
    | some low =>
        cases h₂ : c.read? (c.state.pc + 1) with
        | none => rfl
        | some high => simp [he]
  cases kind with
  | byte => exact hone
  | word => exact htwo .word (.inl rfl)
  | label => exact htwo .label (.inr rfl)
  | _ => rfl

/-- A step reads an opcode and performs the action of its entry. -/
theorem step?_eq_perform {c : Core} {b : Byte} (hb : c.read? c.state.pc = some b) :
    c.step? =
      ((Catalog.standard.opcode? b.toNat).map fun e => (Form.ofEntry e, e.descriptor.action)).bind
        fun p => p.1.perform p.2 (c.goTo (c.state.pc + 1)) := by
  rw [step?, eval_fetch, next?, hb, Option.bind_map]
  simp only [carryOut_eq_perform]
  rfl

/-- A decoder that agrees with the table on an opcode, and an interpreter that agrees with the
    actions, give the step between them. -/
theorem step?_eq_decoded {ι : Type} {c : Core} {b : Byte} {decode : Byte → Option ι}
    {meaning : ι → Form × Action} {exec : Core → ι → Option Core}
    (hb : c.read? c.state.pc = some b)
    (hdecode : (Catalog.standard.opcode? b.toNat).map
      (fun e => (Form.ofEntry e, e.descriptor.action)) = (decode b).map meaning)
    (hexec : ∀ c i, (meaning i).1.perform (meaning i).2 c = exec c i) :
    c.step? = (decode b).bind fun i => exec (c.goTo (c.state.pc + 1)) i := by
  rw [step?_eq_perform hb, hdecode, Option.bind_map]
  refine Option.bind_congr fun i _ => ?_
  exact hexec _ i

end Core

end Lab8085
