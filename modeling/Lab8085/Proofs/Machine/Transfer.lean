/-
  Lab8085.Proofs.Machine.Transfer

  The transfer, stack, branch and control instructions against a reference interpreter.

  The interpreter decodes an opcode by bit patterns only and knows no table: `decode`
  reads the fields, `exec` says what each instruction does to registers and memory.
  `decode_table` compares the patterns with the table once, opcode by opcode;
  `perform_eq_exec` compares the microprograms with `exec`, instruction by instruction,
  for all registers and memories.
-/
import Mathlib.Data.Option.Basic
import Lab8085.Proofs.Machine.Fields

namespace Lab8085

/-! ## Stack and branches -/

namespace Core

/-- The register pair that the field of a stack instruction names, 3 being A and the flags. -/
def stackPair (c : Core) : Fin 4 → Word
  | 3 => wordOf c.state.registers.a c.state.flags.byte
  | p => c.pair p

/-- The core with a word in the register pair of a stack instruction. -/
def setStackPair (c : Core) (p : Fin 4) (w : Word) : Core :=
  match p with
  | 3 => { c with state.registers.a := upperHalf w, state.flags := .ofByte (lowerHalf w) }
  | p => c.setPair p w

/-- Pushing puts the upper byte below the stack pointer and the lower byte below that. -/
def push? (c : Core) (w : Word) : Option Core := do
  let sp := c.state.sp
  let c ← c.write? (sp - 1) (upperHalf w)
  let c ← c.write? (sp - 2) (lowerHalf w)
  return c.setSp (sp - 2)

/-- Popping takes the lower byte from the stack pointer and the upper byte from above it. -/
def pop? (c : Core) : Option (Word × Core) := do
  let w ← c.readWord? c.state.sp
  return (w, c.setSp (c.state.sp + 2))

/-- Calling pushes the program counter before it goes to the target. -/
def call? (c : Core) (target : Word) : Option Core := do
  let c ← c.push? c.state.pc
  return c.goTo target

end Core

/-- The condition of a three-bit field: NZ, Z, NC, C, PO, PE, P, M. -/
def Flags.meets (f : Flags) : Fin 8 → Bool
  | 0 => !f.z
  | 1 => f.z
  | 2 => !f.c
  | 3 => f.c
  | 4 => !f.p
  | 5 => f.p
  | 6 => !f.s
  | 7 => f.s

/-! ## The reference interpreter -/

/-- The instructions that are neither arithmetic nor logic, with their fields; a branch without a
    condition is always taken. -/
inductive Transfer where
  | mov (d s : Fin 8) | mvi (d : Fin 8) | lxi (p : Fin 4)
  | stax (p : Fin 4) | ldax (p : Fin 4) | shld | lhld | sta | lda | xchg
  | push (p : Fin 4) | pop (p : Fin 4) | xthl | sphl | pchl
  | jump (k : Option (Fin 8)) | call (k : Option (Fin 8)) | ret (k : Option (Fin 8)) | rst (n : Fin 8)
  | ei | di | sim | rim | input | output | nop | hlt

namespace Transfer

/-- The instruction of an opcode, by bit patterns. -/
def decode (b : Byte) : Option Transfer :=
  let d := Field.target b
  let p := Field.pair b
  if b = 0x76 then some .hlt
  else if b &&& 0xC0 = 0x40 then some (.mov d (Field.source b))      -- 01dddsss
  else if b &&& 0xC7 = 0x06 then some (.mvi d)                       -- 00ddd110
  else if b &&& 0xCF = 0x01 then some (.lxi p)                       -- 00pp0001
  else if b &&& 0xEF = 0x02 then some (.stax p)                      -- 000p0010
  else if b &&& 0xEF = 0x0A then some (.ldax p)                      -- 000p1010
  else if b = 0x22 then some .shld
  else if b = 0x2A then some .lhld
  else if b = 0x32 then some .sta
  else if b = 0x3A then some .lda
  else if b = 0xEB then some .xchg
  else if b &&& 0xCF = 0xC5 then some (.push p)                      -- 11pp0101
  else if b &&& 0xCF = 0xC1 then some (.pop p)                       -- 11pp0001
  else if b = 0xE3 then some .xthl
  else if b = 0xF9 then some .sphl
  else if b = 0xE9 then some .pchl
  else if b &&& 0xC7 = 0xC2 then some (.jump (some d))               -- 11ccc010
  else if b &&& 0xC7 = 0xC4 then some (.call (some d))               -- 11ccc100
  else if b &&& 0xC7 = 0xC0 then some (.ret (some d))                -- 11ccc000
  else if b = 0xC3 then some (.jump none)
  else if b = 0xCD then some (.call none)
  else if b = 0xC9 then some (.ret none)
  else if b &&& 0xC7 = 0xC7 then some (.rst d)                       -- 11nnn111
  else if b = 0xFB then some .ei
  else if b = 0xF3 then some .di
  else if b = 0x30 then some .sim
  else if b = 0x20 then some .rim
  else if b = 0xDB then some .input
  else if b = 0xD3 then some .output
  else if b = 0x00 then some .nop
  else none

/-- Whether a branch is taken. -/
def taken (k : Option (Fin 8)) (f : Flags) : Bool :=
  match k with
  | none => true
  | some k => f.meets k

/-- What an instruction does; the program counter is past its opcode. -/
@[simp] def exec (c : Core) : Transfer → Option Core
  | .mov d s => do c.setByte? d (← c.byte? s)
  | .mvi d => do
      let (v, c) ← c.next?
      c.setByte? d v
  | .lxi p => do
      let (w, c) ← c.nextWord?
      return c.setPair p w
  | .stax p => c.write? (c.pair p) c.state.registers.a
  | .ldax p => do return c.setA (← c.read? (c.pair p))
  | .shld => do
      let (w, c) ← c.nextWord?
      c.writeWord? w c.hl
  | .lhld => do
      let (w, c) ← c.nextWord?
      return c.setHl (← c.readWord? w)
  | .sta => do
      let (w, c) ← c.nextWord?
      c.write? w c.state.registers.a
  | .lda => do
      let (w, c) ← c.nextWord?
      return c.setA (← c.read? w)
  | .xchg => return (c.setDe c.hl).setHl c.de
  | .push p => c.push? (c.stackPair p)
  | .pop p => do
      let (w, c) ← c.pop?
      return c.setStackPair p w
  | .xthl => do
      let w ← c.readWord? c.state.sp
      let c ← c.writeWord? c.state.sp c.hl
      return c.setHl w
  | .sphl => return c.setSp c.hl
  | .pchl => return c.goTo c.hl
  | .jump k => do
      let (w, c) ← c.nextWord?
      return if taken k c.state.flags then c.goTo w else c
  | .call k => do
      let (w, c) ← c.nextWord?
      if taken k c.state.flags then c.call? w else return c
  | .ret k => do
      if taken k c.state.flags then
        let (w, c) ← c.pop?
        return c.goTo w
      else return c
  | .rst n => c.call? (BitVec.ofNat 16 (8 * n))
  | .ei => return { c with state.mask := c.state.mask ||| 0x08 }
  | .di => return { c with state.mask := c.state.mask &&& 0xF7 }
  | .sim =>
      let a := c.state.registers.a
      -- bits 3 to 7 stay, bits 0 to 2 are those of A
      let mask : Byte := c.state.mask.extractLsb' 3 5 ++ a.extractLsb' 0 3
      return if a.getLsbD 3 then { c with state.mask := mask } else c
  | .rim => return c.setA c.state.mask
  | .input => do
      let (_, c) ← c.next?
      return c.setA 0
  | .output => do
      let (_, c) ← c.next?
      return c
  | .nop => return c
  | .hlt => return c

/-- One step: the opcode at the program counter is decoded and carried out. -/
def step (c : Core) : Option Core := do
  let b ← c.read? c.state.pc
  let i ← decode b
  i.exec (c.goTo (c.state.pc + 1))

end Transfer

/-! ## The table has these instructions -/

namespace Transfer

/-- The condition of a branch as an action has it. -/
def condition : Option (Fin 8) → Condition
  | none => .always
  | some 0 => .off .z
  | some 1 => .on .z
  | some 2 => .off .c
  | some 3 => .on .c
  | some 4 => .off .p
  | some 5 => .on .p
  | some 6 => .off .s
  | some 7 => .on .s

/-- The form and the action that an instruction has in the table. -/
def meaning : Transfer → Form × Action
  | .mov d s => (.builtIn (.place (Field.place s)), .move (Field.place d))
  | .mvi d => (.byte, .move (Field.place d))
  | .lxi p => (.word, .loadPair (Field.pairOrSp p))
  | .stax p => (.builtIn (.pair (Field.pairOrSp p)), .storeIndirect)
  | .ldax p => (.builtIn (.pair (Field.pairOrSp p)), .loadIndirect)
  | .shld => (.word, .storeHL)
  | .lhld => (.word, .loadHL)
  | .sta => (.word, .storeA)
  | .lda => (.word, .loadA)
  | .xchg => (.builtIn .absent, .exchange)
  | .push p => (.builtIn (.pair (Field.pairOrPsw p)), .push)
  | .pop p => (.builtIn (.pair (Field.pairOrPsw p)), .pop)
  | .xthl => (.builtIn .absent, .exchangeTop)
  | .sphl => (.builtIn .absent, .stackFromHL)
  | .pchl => (.builtIn .absent, .jumpHL)
  | .jump k => (.word, .jump (condition k))
  | .call k => (.word, .call (condition k))
  | .ret k => (.builtIn .absent, .ret (condition k))
  | .rst n => (.builtIn (.index n), .restart)
  | .ei => (.builtIn .absent, .enable)
  | .di => (.builtIn .absent, .disable)
  | .sim => (.builtIn .absent, .setMask)
  | .rim => (.builtIn .absent, .readMask)
  | .input => (.byte, .input)
  | .output => (.byte, .output)
  | .nop => (.builtIn .absent, .nop)
  | .hlt => (.builtIn .absent, .halt)

/-- The bit patterns and the table agree on every opcode outside arithmetic and logic, also on
    those that neither knows. -/
theorem decode_table : ∀ b : Byte, Field.isArithmetic b = false →
    (Catalog.standard.opcode? b.toNat).map (fun e => (Form.ofEntry e, e.descriptor.action)) =
      (decode b).map meaning := by
  decide +kernel

end Transfer

/-! ## Microprograms of stack and branches -/

namespace Core

@[simp] theorem pair_eq_stackPair (c : Core) (p : Fin 4) :
    c.state.pair (Field.pairOrPsw p) = c.stackPair p := by
  match p with
  | 0 => exact c.pair_eq 0
  | 1 => exact c.pair_eq 1
  | 2 => exact c.pair_eq 2
  | 3 =>
      rw [stackPair, ← Flags.pack_eq_byte]
      exact joinBytes_eq_wordOf _ _

@[simp] theorem eval_setStackPair (p : Fin 4) (w : Word) (c : Core) :
    (Micro.setPair (Field.pairOrPsw p) w).eval c = some ((), c.setStackPair p w) := by
  match p with
  | 0 => exact eval_setPair 0 w c
  | 1 => exact eval_setPair 1 w c
  | 2 => exact eval_setPair 2 w c
  | 3 =>
      rw [Micro.setPair, Micro.eval_assignAll, setStackPair, ← highByte_eq_upperHalf,
        ← lowByte_eq_lowerHalf, ← Flags.unpack_eq_ofByte]
      rfl

@[simp] theorem eval_pushWord (w : Word) (c : Core) :
    (Micro.pushWord w).eval c = (c.push? w).map fun c => ((), c) := by
  simp only [Micro.pushWord, Micro.setSp, Micro.eval_bind, Micro.eval_state, Micro.eval_write,
    Option.bind_some, push?, highByte_eq_upperHalf, lowByte_eq_lowerHalf]
  cases c.write? (c.state.sp - 1) (upperHalf w) with
  | none => rfl
  | some d =>
      simp only [Option.map_some, Option.bind_some, Option.bind_eq_bind]
      cases d.write? (c.state.sp - 2) (lowerHalf w) <;> rfl

@[simp] theorem eval_popWord (c : Core) : Micro.popWord.eval c = c.pop? := by
  simp only [Micro.popWord, Micro.setSp, Micro.eval_bind, Micro.eval_state, Micro.eval_read,
    Option.bind_some, pop?, readWord?, joinBytes_eq_wordOf]
  cases c.read? c.state.sp with
  | none => rfl
  | some low =>
      simp only [Option.map_some, Option.bind_some, Option.bind_eq_bind]
      cases c.read? (c.state.sp + 1) <;> rfl

@[simp] theorem eval_callTo (w : Word) (c : Core) :
    (Action.callTo w).eval c = (c.call? w).map fun c => ((), c) := by
  simp only [Action.callTo, Micro.setPc, Micro.eval_bind, Micro.eval_state, eval_pushWord,
    Option.bind_some, call?]
  cases c.push? c.state.pc <;> rfl

@[simp] theorem eval_holds (k : Option (Fin 8)) (c : Core) :
    (Action.holds (Transfer.condition k)).eval c = some (Transfer.taken k c.state.flags, c) := by
  match k with
  | none => rfl
  | some 0 => rfl
  | some 1 => rfl
  | some 2 => rfl
  | some 3 => rfl
  | some 4 => rfl
  | some 5 => rfl
  | some 6 => rfl
  | some 7 => rfl

end Core

/-! ## Microprograms of the instructions -/

namespace Transfer

open Lab8085.Core

variable (c : Core)

/-- Storing HL writes L and then H. -/
theorem perform_shld : Form.word.perform .storeHL c = exec c .shld := by
  simp only [Form.perform, Action.run, exec, Option.bind_eq_bind]
  refine Option.bind_congr fun p _ => ?_
  simp only [Micro.eval_bind, Micro.eval_register, Micro.eval_write, Option.bind_some,
    Option.bind_map, writeWord?, lowerHalf_hl, upperHalf_hl, Option.map_bind]
  refine Option.bind_congr fun d hd => ?_
  -- H is read after L has been written to memory, which changed no register
  have hs := state_of_write? hd
  simp [hs, Registers.get, Function.comp_def]

/-- Loading HL reads L and then H. -/
theorem perform_lhld : Form.word.perform .loadHL c = exec c .lhld := by
  simp only [Form.perform, Action.run, exec, Option.bind_eq_bind]
  refine Option.bind_congr fun p _ => ?_
  simp [readWord?, Option.bind_assoc, Option.bind_map, Option.map_bind, change_l_h]

/-- Both words are read before either is changed. -/
theorem perform_xchg : (Form.builtIn .absent).perform .exchange c = exec c .xchg := by
  simp only [Form.perform, Action.run, exec, Micro.eval_bind, Micro.eval_pair, Option.bind_some,
    pair_d_eq, pair_h_eq, eval_setPair_d, eval_setPair_h]
  rfl

/-- The exchange with the top of the stack reads both bytes before it writes them. -/
theorem perform_xthl : (Form.builtIn .absent).perform .exchangeTop c = exec c .xthl := by
  simp only [Form.perform, Action.run, exec, Micro.eval_bind, Micro.eval_state, Micro.eval_read,
    Micro.eval_write, Micro.eval_register, Micro.eval_setRegister, Option.bind_some,
    Option.map_some, Option.bind_map, Option.map_bind, Function.comp_def, Option.pure_def,
    Option.bind_eq_bind, Option.bind_assoc, BitVec.ofNat_eq_ofNat, readWord?, writeWord?,
    lowerHalf_hl, upperHalf_hl, change_l_h]
  refine Option.bind_congr fun low _ => Option.bind_congr fun high _ => ?_
  refine Option.bind_congr fun d hd => ?_
  -- H is read after L has been written to memory, which changed no register
  have hs := state_of_write? hd
  simp [hs, Registers.get]

theorem perform_jump (k : Option (Fin 8)) :
    Form.word.perform (.jump (condition k)) c = exec c (.jump k) := by
  simp only [Form.perform, Action.run, exec, Option.bind_eq_bind]
  refine Option.bind_congr fun p _ => ?_
  cases h : taken k p.2.state.flags <;> simp [h]

theorem perform_call (k : Option (Fin 8)) :
    Form.word.perform (.call (condition k)) c = exec c (.call k) := by
  simp only [Form.perform, Action.run, exec, Option.bind_eq_bind]
  refine Option.bind_congr fun p _ => ?_
  cases h : taken k p.2.state.flags <;> simp [h, Function.comp_def]

theorem perform_ret (k : Option (Fin 8)) :
    (Form.builtIn .absent).perform (.ret (condition k)) c = exec c (.ret k) := by
  simp only [Form.perform, Action.run, exec, Option.bind_eq_bind]
  cases h : taken k c.state.flags <;> simp [h, Option.map_bind]

/-- Bits 0 to 2 of the mask give way to those of A. -/
theorem maskBits_eq_append (mask a : Byte) :
    mask &&& ~~~Action.maskBits ||| a &&& Action.maskBits =
      mask.extractLsb' 3 5 ++ a.extractLsb' 0 3 := by
  ext i hi
  have hm : Action.maskBits[i] = decide (i < 3) := by
    revert i
    decide
  -- each bit comes from one side: from A below bit 3, from the mask above
  rw [BitVec.getElem_or, BitVec.getElem_and, BitVec.getElem_and, BitVec.getElem_not, hm,
    BitVec.getElem_append]
  by_cases h : i < 3
  · simp [h, BitVec.getLsbD_eq_getElem hi]
  · have h3 : 3 + (i - 3) = i := by omega
    simp [h, h3, BitVec.getLsbD_eq_getElem hi]

/-- The mask can be set when bit 3 of A is on. -/
theorem enableBit_iff : ∀ a : Byte, a &&& Action.enableBit ≠ 0 ↔ a.getLsbD 3 = true := by
  decide +kernel

theorem perform_sim : (Form.builtIn .absent).perform .setMask c = exec c .sim := by
  have hbit := enableBit_iff c.state.registers.a
  simp only [Form.perform, Action.run, exec, Micro.eval_bind, Micro.eval_register, Option.bind_some,
    Registers.get]
  by_cases h : c.state.registers.a.getLsbD 3 = true
  · rw [if_pos (hbit.2 h), if_pos h, ← maskBits_eq_append]
    rfl
  · rw [if_neg (mt hbit.1 h), if_neg h]
    rfl

/-- Every microprogram does what the interpreter says, wherever it can be carried out. -/
theorem perform_eq_exec (i : Transfer) : i.meaning.1.perform i.meaning.2 c = i.exec c := by
  cases i with
  | mov d s =>
      simp [meaning, Form.perform, Action.run, Operand.load, exec, Option.bind_map,
        Option.map_bind, Function.comp_def]
  | mvi d => simp [meaning, Form.perform, Action.run, Operand.load, exec, Function.comp_def]
  | lxi p => simp [meaning, Form.perform, Action.run, exec]
  | stax p => simp [meaning, Form.perform, Action.run, exec, Registers.get, Function.comp_def]
  | ldax p => simp [meaning, Form.perform, Action.run, exec, Option.bind_map, Option.map_bind]
  | shld => exact perform_shld c
  | lhld => exact perform_lhld c
  | sta => simp [meaning, Form.perform, Action.run, exec, Registers.get, Function.comp_def]
  | lda => simp [meaning, Form.perform, Action.run, exec, Option.bind_map, Option.map_bind]
  | xchg => exact perform_xchg c
  | push p => simp [meaning, Form.perform, Action.run, exec, Function.comp_def]
  | pop p => simp [meaning, Form.perform, Action.run, exec, Option.map_bind]
  | xthl => exact perform_xthl c
  | sphl =>
      simp only [meaning, Form.perform, Action.run, exec, Micro.eval_bind, Micro.eval_pair,
        Option.bind_some, pair_h_eq]
      rfl
  | pchl => simp [meaning, Form.perform, Action.run, exec]
  | jump k => exact perform_jump c k
  | call k => exact perform_call c k
  | ret k => exact perform_ret c k
  | rst n => simp [meaning, Form.perform, Action.run, exec, Function.comp_def]
  | ei => rfl
  | di => rfl
  | sim => exact perform_sim c
  | rim => rfl
  | input => simp [meaning, Form.perform, Action.run, exec]
  | output => simp [meaning, Form.perform, Action.run, exec]
  | nop => rfl
  | hlt => rfl

end Transfer

/-! ## Steps -/

/-- On an opcode outside arithmetic and logic a machine steps as the interpreter does: it returns
    exactly when the interpreter has a result, with the interpreter's registers, flags, program
    counter, stack pointer, mask and memory. -/
theorem Machine.step_eq_transfer {m : Machine} {b : Byte}
    (hb : m.memory.get? m.state.pc.toNat = some b) (hk : Field.isArithmetic b = false) :
    m.stepped? = Transfer.step m.core := by
  have hread : m.core.read? m.core.state.pc = some b := hb
  have hdecode := Transfer.decode_table b hk
  rw [stepped?_eq, Core.step?_eq_decoded hread hdecode Transfer.perform_eq_exec, Transfer.step, hread]
  rfl

/-- Eight bytes of memory with a call of address 5 in front and the stack at the end. -/
def Machine.calling : Machine where
  state := { sp := 8 }
  memory := ⟨#[0xCD, 0x05, 0x00, 0x00, 0x00, 0x00, 0x00, 0x00]⟩

theorem Machine.step_calling :
    calling.stepped? =
      some ⟨{ pc := 5, sp := 6 }, ⟨#[0xCD, 0x05, 0x00, 0x00, 0x00, 0x00, 0x03, 0x00]⟩⟩ :=
  (step_eq_transfer (m := calling) (b := 0xCD) (by decide) (by decide)).trans (by decide)

end Lab8085
