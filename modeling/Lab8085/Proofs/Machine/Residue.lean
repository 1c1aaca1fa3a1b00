/-
  Lab8085.Proofs.Machine.Residue

  What a failing step leaves behind.

  `Transfer.touches` and `Arithmetic.touches` list the memory accesses of each instruction
  in their order.  A microprogram is at fault with the first of them that is outside the
  memory (`fault?_eq`), and leaves nothing behind but the half of a word that `Transfer.left`
  tells.  A step adds the fetches in front (`stepFault?_cases`).
-/
import Lab8085.Proofs.Machine.Arithmetic
import Lab8085.Proofs.Machine.Fault
import Lab8085.Proofs.Machine.Trace
import Lab8085.Proofs.Machine.Transfer

namespace Lab8085

/-! ## Accesses of an instruction -/

/-- An access to the memory, without its data. -/
abbrev Touch := Word × Direction

namespace Core

/-- The fault of the first of some accesses that is outside the memory. -/
def firstMissing? (c : Core) (ts : List Touch) : Option (Fault Empty) :=
  (ts.find? fun t => c.memory.size ≤ t.1.toNat).map fun t => .outsideMemory t.1 t.2

/-- The accesses that load a byte from the place of a field. -/
def loads (c : Core) : Fin 8 → List Touch
  | 6 => [(c.hl, .read)]
  | _ => []

/-- The accesses that store a byte in the place of a field. -/
def stores (c : Core) : Fin 8 → List Touch
  | 6 => [(c.hl, .write)]
  | _ => []

/-- The accesses that read a word. -/
def wordReads (a : Word) : List Touch :=
  [(a, .read), (a + 1, .read)]

/-- The accesses that write a word, its lower byte first. -/
def wordWrites (a : Word) : List Touch :=
  [(a, .write), (a + 1, .write)]

/-- The accesses that push a word. -/
def pushes (c : Core) : List Touch :=
  [(c.state.sp - 1, .write), (c.state.sp - 2, .write)]

/-- What loading HL leaves behind: the byte for L where that for H is missing. -/
def loadLeft (c : Core) (a : Word) : Core :=
  if a.toNat + 1 = c.memory.size ∧ c.memory.size < 65536 then
    { c with state.registers.l := (c.read? a).getD 0 }
  else c

/-- What storing HL leaves behind: L where H has no place. -/
def storeLeft (c : Core) (a : Word) : Core :=
  if a.toNat + 1 = c.memory.size ∧ c.memory.size < 65536 then
    { c with memory := c.memory.put a.toNat c.state.registers.l }
  else c

/-- What pushing a word leaves behind: its upper byte where the lower one has no place. -/
def pushLeft (c : Core) (v : Word) : Core :=
  if c.state.sp = 1 ∧ c.memory.size < 65536 then
    { c with memory := c.memory.put 0 (upperHalf v) }
  else c

end Core

namespace Transfer

open Lab8085.Core

/-- The word that an instruction pushes on the stack, if it does; the program counter is past it. -/
def pushed? (c : Core) : Transfer → Option Word
  | .push p => some (c.stackPair p)
  | .call k => if taken k c.state.flags then some c.state.pc else none
  | .rst _ => some c.state.pc
  | _ => none

/-- The accesses of an instruction with `w` after its opcode, in their order. -/
def touches (w : Word) (c : Core) : Transfer → List Touch
  | .mov d s => c.loads s ++ c.stores d
  | .mvi d => c.stores d
  | .stax p => [(c.pair p, .write)]
  | .ldax p => [(c.pair p, .read)]
  | .shld => wordWrites w
  | .lhld => wordReads w
  | .sta => [(w, .write)]
  | .lda => [(w, .read)]
  | .push _ | .rst _ => c.pushes
  | .call k => if taken k c.state.flags then c.pushes else []
  | .pop _ => wordReads c.state.sp
  | .ret k => if taken k c.state.flags then wordReads c.state.sp else []
  | .xthl => wordReads c.state.sp ++ wordWrites c.state.sp
  | _ => []

/-- What an instruction leaves behind when one of its accesses is outside the memory. Only the
    second access of some can be so where the first one is not: loading and storing HL across the
    end of the memory, and pushing at its beginning. -/
def left (w : Word) (c : Core) : Transfer → Core
  | .lhld => c.loadLeft w
  | .shld => c.storeLeft w
  | i =>
    match pushed? c i with
    | some v => c.pushLeft v
    | none => c

end Transfer

namespace Arithmetic

/-- The accesses of an instruction, in their order. -/
def touches (c : Core) : Arithmetic → List Touch
  | .accumulate _ (some s) => c.loads s
  | .inr d => c.loads d ++ c.stores d
  | .dcr d => c.loads d ++ c.stores d
  | _ => []

end Arithmetic

/-! ## Accesses in microprograms -/

/-- A byte that is put past the end of a memory is lost. -/
theorem Memory.put_of_le {m : Memory} {k : Nat} (h : m.size ≤ k) (b : Byte) : m.put k b = m := by
  rw [put, Array.setIfInBounds_eq_of_size_le h]

namespace Core

@[simp] theorem firstMissing?_nil (c : Core) : c.firstMissing? [] = none := rfl

@[simp] theorem firstMissing?_cons (c : Core) (t : Touch) (ts : List Touch) :
    c.firstMissing? (t :: ts) =
      if t.1.toNat < c.memory.size then c.firstMissing? ts else some (.outsideMemory t.1 t.2) := by
  by_cases h : t.1.toNat < c.memory.size
  · rw [firstMissing?, List.find?_cons_of_neg (by simpa using h), if_pos h, firstMissing?]
  · rw [firstMissing?, List.find?_cons_of_pos (by simpa using h), if_neg h]
    rfl

/-- There is a byte where the memory reaches, and only there. -/
theorem read?_cases (c : Core) (a : Word) :
    (∃ b, c.read? a = some b ∧ a.toNat < c.memory.size) ∨
      c.read? a = none ∧ ¬a.toNat < c.memory.size := by
  cases h : c.read? a with
  | some b => exact .inl ⟨b, rfl, Memory.get?_isSome.1 (Option.isSome_of_eq_some h)⟩
  | none =>
      refine .inr ⟨rfl, fun hlt => ?_⟩
      rw [← Memory.get?_isSome] at hlt
      rw [read?] at h
      rw [h] at hlt
      exact Bool.false_ne_true hlt

end Core

/-- The operand of a form, with `w` after the opcode. -/
def Form.operand (w : Word) : Form → Operand
  | .builtIn x => x
  | .byte => .byte (lowerHalf w)
  | .word => .word w

namespace Transfer

open Lab8085.Core

variable (w : Word) (c : Core)

theorem fault?_load (d : Fin 8) (c : Core) (ts : List Touch) :
    (∃ v, c.byte? d = some v ∧ c.firstMissing? (c.loads d ++ ts) = c.firstMissing? ts) ∨
      c.byte? d = none ∧ ∃ f, (Field.place d).load.fault? c = some (f, c) ∧
        c.firstMissing? (c.loads d ++ ts) = some f := by
  match d with
  | 6 =>
    rcases c.read?_cases c.hl with ⟨b, hb, hlt⟩ | ⟨hb, hlt⟩
    · exact .inl ⟨b, hb, by simp [loads, hlt]⟩
    · exact .inr ⟨hb, .outsideMemory c.hl .read,
        by simp [Field.place, Place.load, Micro.fault?_read, hb], by simp [loads, hlt]⟩
  | 0 | 1 | 2 | 3 | 4 | 5 | 7 => exact .inl ⟨_, rfl, rfl⟩

theorem fault?_store (d : Fin 8) (v : Byte) (c : Core) :
    ((Field.place d).store v).fault? c = (c.firstMissing? (c.stores d)).map fun f => (f, c) := by
  match d with
  | 6 =>
    by_cases h : c.hl.toNat < c.memory.size <;>
      simp [Field.place, Place.store, stores, Micro.fault?_write, h]
  | 0 | 1 | 2 | 3 | 4 | 5 | 7 => rfl

/-- Only across the end of the memory is the next address outside where an address is not. -/
theorem next_outside (a : Word) (n : Nat) :
    a.toNat < n ∧ ¬(a + 1).toNat < n ↔ a.toNat + 1 = n ∧ n < 65536 := by
  have ha := a.isLt
  have hnext : (a + 1).toNat = (a.toNat + 1) % 65536 := BitVec.toNat_add a 1
  rw [hnext]
  omega

/-- Only at the beginning of the memory is the address two below outside where the one below is
    not. -/
theorem below_outside (sp : Word) (n : Nat) :
    (sp - 1).toNat < n ∧ ¬(sp - 2).toNat < n ↔ sp = 1 ∧ 0 < n ∧ n < 65536 := by
  have hsp := sp.isLt
  have hone : sp = 1 ↔ sp.toNat = 1 := BitVec.toNat_eq
  have h₁ : (sp - 1).toNat = (sp.toNat + 65535) % 65536 := by bv_omega
  have h₂ : (sp - 2).toNat = (sp.toNat + 65534) % 65536 := by bv_omega
  rw [h₁, h₂, hone]
  omega

/-- Popping leaves nothing behind. -/
theorem fault?_popWord (c : Core) :
    Micro.popWord.fault? c = (c.firstMissing? (wordReads c.state.sp)).map fun f => (f, c) := by
  simp only [Micro.popWord, Micro.fault?_state_bind, wordReads, firstMissing?_cons]
  rcases c.read?_cases c.state.sp with ⟨low, hlow, hlt⟩ | ⟨hlow, hlt⟩
  · rw [Micro.fault?_read_bind hlow, if_pos hlt]
    rcases c.read?_cases (c.state.sp + 1) with ⟨high, hhigh, hlt⟩ | ⟨hhigh, hlt⟩
    · rw [Micro.fault?_read_bind hhigh, if_pos hlt]
      rfl
    · rw [Micro.fault?_read_bind_none hhigh, if_neg hlt]
      rfl
  · rw [Micro.fault?_read_bind_none hlow, if_neg hlt]
    rfl

theorem fault?_pushWord (v : Word) (c : Core) :
    (Micro.pushWord v).fault? c = (c.firstMissing? c.pushes).map fun f => (f, c.pushLeft v) := by
  have hbelow := below_outside c.state.sp c.memory.size
  simp only [Micro.pushWord, Micro.fault?_state_bind, pushes, firstMissing?_cons]
  by_cases h₁ : (c.state.sp - 1).toNat < c.memory.size
  · rw [Micro.fault?_write_bind h₁, if_pos h₁]
    by_cases h₂ : (c.state.sp - 2).toNat < c.memory.size
    · rw [Micro.fault?_write_bind (by simpa using h₂), if_pos h₂]
      rfl
    · obtain ⟨hsp, -, hn⟩ := hbelow.1 ⟨h₁, h₂⟩
      rw [Micro.fault?_write_bind_none (by simpa using h₂), if_neg h₂, pushLeft, if_pos ⟨hsp, hn⟩,
        highByte_eq_upperHalf, hsp]
      rfl
  · rw [Micro.fault?_write_bind_none h₁, if_neg h₁, pushLeft]
    split
    -- there is no byte at address zero then
    · rename_i h
      rw [h.1] at h₁
      have hzero : c.memory.size ≤ 0 := Nat.le_of_not_lt h₁
      rw [Memory.put_of_le hzero]
      rfl
    · rfl

theorem fault?_callTo (target : Word) (c : Core) : (Action.callTo target).fault? c =
    (c.firstMissing? c.pushes).map fun f => (f, c.pushLeft c.state.pc) := by
  rw [Action.callTo, Micro.fault?_state_bind, Micro.fault?_bind_of_none _ fun _ _ => rfl,
    fault?_pushWord]

/-- Popping into a pair or the program counter is at fault where popping is. -/
theorem fault?_popThen {f : Word → Micro Unit} (hf : ∀ v c, (f v).fault? c = none) (c : Core) :
    (Micro.popWord >>= f).fault? c =
      (c.firstMissing? (wordReads c.state.sp)).map fun f => (f, c) := by
  rw [Micro.fault?_bind_of_none _ hf, fault?_popWord]

/-- Loading HL leaves L behind where the byte for H is missing. -/
theorem fault?_loadHL : (Action.run .loadHL (.word w)).fault? c =
    (c.firstMissing? (wordReads w)).map fun f => (f, c.loadLeft w) := by
  have hnext := next_outside w c.memory.size
  simp only [Action.run, wordReads, firstMissing?_cons]
  rcases c.read?_cases w with ⟨low, hlow, hlt⟩ | ⟨hlow, hlt⟩
  · rw [Micro.fault?_read_bind hlow, if_pos hlt, Micro.fault?_setRegister_bind]
    rcases (c.change (.register .l low)).read?_cases (w + 1) with
      ⟨high, hhigh, hlt'⟩ | ⟨hhigh, hlt'⟩
    · rw [Micro.fault?_read_bind hhigh, if_pos (show _ < c.memory.size from hlt')]
      rfl
    · rw [Micro.fault?_read_bind_none hhigh, if_neg (show ¬_ < c.memory.size from hlt'), loadLeft,
        if_pos (hnext.1 ⟨hlt, hlt'⟩), hlow]
      rfl
  · rw [Micro.fault?_read_bind_none hlow, if_neg hlt, loadLeft,
      if_neg fun h => hlt (hnext.2 h).1]
    rfl

/-- Storing HL leaves L behind in memory where H has no place. -/
theorem fault?_storeHL : (Action.run .storeHL (.word w)).fault? c =
    (c.firstMissing? (wordWrites w)).map fun f => (f, c.storeLeft w) := by
  have hnext := next_outside w c.memory.size
  simp only [Action.run, wordWrites, firstMissing?_cons, Micro.fault?_register_bind]
  by_cases h₁ : w.toNat < c.memory.size
  · rw [Micro.fault?_write_bind h₁, if_pos h₁, Micro.fault?_register_bind, Micro.fault?_write,
      Memory.size_put]
    by_cases h₂ : (w + 1).toNat < c.memory.size
    · rw [if_pos h₂, if_pos h₂]
      rfl
    · rw [if_neg h₂, if_neg h₂, storeLeft, if_pos (hnext.1 ⟨h₁, h₂⟩)]
      rfl
  · rw [Micro.fault?_write_bind_none h₁, if_neg h₁, storeLeft, if_neg fun h => h₁ (hnext.2 h).1]
    rfl

/-- Exchanging HL with the top of the stack reads both bytes before it writes any. -/
theorem fault?_exchangeTop : (Action.run .exchangeTop .absent).fault? c =
    (c.firstMissing? (wordReads c.state.sp ++ wordWrites c.state.sp)).map fun f => (f, c) := by
  simp only [Action.run, wordReads, wordWrites, List.cons_append, List.nil_append,
    firstMissing?_cons, Micro.fault?_state_bind]
  rcases c.read?_cases c.state.sp with ⟨low, hlow, h₁⟩ | ⟨hlow, h₁⟩
  · rw [Micro.fault?_read_bind hlow, if_pos h₁, if_pos h₁]
    rcases c.read?_cases (c.state.sp + 1) with ⟨high, hhigh, h₂⟩ | ⟨hhigh, h₂⟩
    · rw [Micro.fault?_read_bind hhigh, if_pos h₂, if_pos h₂, Micro.fault?_register_bind,
        Micro.fault?_write_bind h₁, Micro.fault?_register_bind,
        Micro.fault?_write_bind (by rwa [Memory.size_put])]
      rfl
    · rw [Micro.fault?_read_bind_none hhigh, if_neg h₂]
      rfl
  · rw [Micro.fault?_read_bind_none hlow, if_neg h₁]
    rfl

/-- An instruction is at fault with its first access outside the memory. -/
theorem fault?_eq (i : Transfer) : ((meaning i).2.run ((meaning i).1.operand w)).fault? c =
    (c.firstMissing? (touches w c i)).map fun f => (f, left w c i) := by
  cases i with
  | mov d s =>
    rcases fault?_load s c (c.stores d) with ⟨v, hv, hts⟩ | ⟨hv, f, hf, hts⟩
    · simp [meaning, Form.operand, touches, Operand.load, left, pushed?, hv, hts, fault?_store]
    · simp [meaning, Form.operand, touches, Operand.load, left, pushed?, hv, hts, hf]
  | mvi d => simp [meaning, Form.operand, touches, Operand.load, left, pushed?, fault?_store]
  | stax p =>
    by_cases h : (c.pair p).toNat < c.memory.size <;>
      simp [meaning, Form.operand, touches, h, left, pushed?, Micro.fault?_write, Registers.get]
  | ldax p =>
    rcases c.read?_cases (c.pair p) with ⟨b, hb, hlt⟩ | ⟨hb, hlt⟩
    · simp [meaning, Form.operand, touches, hb, hlt]
    · simp [meaning, Form.operand, touches, hb, hlt, left, pushed?, Micro.fault?_read]
  | sta =>
    by_cases h : w.toNat < c.memory.size <;>
      simp [meaning, Form.operand, touches, h, left, pushed?, Micro.fault?_write, Registers.get]
  | lda =>
    rcases c.read?_cases w with ⟨b, hb, hlt⟩ | ⟨hb, hlt⟩
    · simp [meaning, Form.operand, touches, hb, hlt]
    · simp [meaning, Form.operand, touches, hb, hlt, left, pushed?, Micro.fault?_read]
  | lxi p | xchg | sphl | pchl | ei | di | sim | rim | input | output | nop | hlt =>
      simp [meaning, Form.operand, touches]
  | jump k => simp [meaning, Form.operand, touches]
  | push p => simp [meaning, Form.operand, touches, fault?_pushWord, left, pushed?]
  | rst n => exact fault?_callTo _ c
  | call k =>
    cases h : taken k c.state.flags <;>
      simp [meaning, Form.operand, touches, fault?_callTo, left, pushed?, h]
  | pop p => exact fault?_popThen (fun v => Micro.fault?_setPair _ v) c
  | ret k =>
    have hrun : (Action.run (.ret (condition k)) .absent).fault? c =
        ((if taken k c.state.flags then Micro.popWord >>= Micro.setPc else pure ()) :
          Micro Unit).fault? c := by
      rw [Action.run, Micro.fault?_bind, eval_holds]
      rfl
    refine hrun.trans ?_
    cases h : taken k c.state.flags with
    | false => simp [touches, h]
    | true =>
      have hpop := fault?_popThen (f := Micro.setPc) (fun _ _ => rfl) c
      simp only [touches, h, if_true, left, pushed?]
      exact hpop
  | lhld => exact fault?_loadHL w c
  | shld => exact fault?_storeHL w c
  | xthl => exact fault?_exchangeTop c

end Transfer

namespace Arithmetic

open Lab8085.Core

theorem fault?_setResultFlags (b : Byte) (c : Core) :
    (Action.setResultFlags b).fault? c = none := by
  simp [Action.setResultFlags]

/-- An operation on the accumulator is at fault where its operand is. -/
@[simp] theorem fault?_addWith (v : Byte) (k : Nat) (c : Core) :
    (Action.addWith v k).fault? c = none := by
  simp [Action.addWith, fault?_setResultFlags]

@[simp] theorem fault?_subtractWith (v : Byte) (k : Nat) (keep : Bool) (c : Core) :
    (Action.subtractWith v k keep).fault? c = none := by
  cases keep <;> simp [Action.subtractWith, fault?_setResultFlags]

@[simp] theorem fault?_logic (v : Byte) (ac : Bool) (c : Core) :
    (Action.logic v ac).fault? c = none := by
  simp [Action.logic, fault?_setResultFlags]

theorem fault?_operation (op : Fin 8) (x : Operand) (c : Core) :
    ((operation op).run x).fault? c = x.load.fault? c := by
  match op with
  | 0 => exact Micro.fault?_bind_of_none _ (fun v c => fault?_addWith v 0 c) c
  | 1 => exact Micro.fault?_bind_of_none _ (fun v c => by simp [Action.carryBit]) c
  | 2 => exact Micro.fault?_bind_of_none _ (fun v c => fault?_subtractWith v 0 true c) c
  | 3 => exact Micro.fault?_bind_of_none _ (fun v c => by simp [Action.carryBit]) c
  | 4 => exact Micro.fault?_bind_of_none _ (fun v c => by simp) c
  | 5 => exact Micro.fault?_bind_of_none _ (fun v c => by simp) c
  | 6 => exact Micro.fault?_bind_of_none _ (fun v c => by simp) c
  | 7 => exact Micro.fault?_bind_of_none _ (fun v c => fault?_subtractWith v 0 false c) c

/-- Counting a byte up or down reads it first, so the write after it finds memory. -/
theorem fault?_count (d : Fin 8) (f : Byte → Byte) {g : Byte → Micro Unit}
    (hg : ∀ v c, (g v).fault? c = none) (c : Core) :
    ((Field.place d).load >>= fun v => (Field.place d).store (f v) >>= fun _ => g v).fault? c =
      (c.firstMissing? (c.loads d ++ c.stores d)).map fun f => (f, c) := by
  rw [Micro.fault?_bind, eval_load]
  rcases Transfer.fault?_load d c (c.stores d) with ⟨v, hv, hts⟩ | ⟨hv, x, hx, hts⟩
  · rw [hv, hts]
    exact (Micro.fault?_bind_of_none _ (fun _ => hg v) c).trans (Transfer.fault?_store d (f v) c)
  · rw [hv, hts]
    exact hx

/-- An instruction is at fault with its first access outside the memory, and leaves nothing
    behind. -/
theorem fault?_eq (w : Word) (c : Core) (i : Arithmetic) :
    ((meaning i).2.run ((meaning i).1.operand w)).fault? c =
      (c.firstMissing? (touches c i)).map fun f => (f, c) := by
  cases i with
  | accumulate op s =>
    cases s with
    | none => exact fault?_operation op (.byte (lowerHalf w)) c
    | some s =>
      refine (fault?_operation op (.place (Field.place s)) c).trans ?_
      have hload := Transfer.fault?_load s c []
      rw [List.append_nil] at hload
      rcases hload with ⟨v, hv, hts⟩ | ⟨hv, f, hf, hts⟩
      · have heval : (Field.place s).load.eval c = some (v, c) := by rw [eval_load, hv]; rfl
        rw [touches, hts]
        exact Micro.fault?_of_eval heval
      · rw [touches, hts]
        exact hf
  | inr d => exact fault?_count d (· + 1) (fun v c => by simp [fault?_setResultFlags]) c
  | dcr d => exact fault?_count d (· - 1) (fun v c => by simp [fault?_setResultFlags]) c
  | inx p | dcx p | dad p | rlc | rrc | ral | rar | cma | stc | cmc =>
    simp [meaning, Form.operand, touches, Action.rotateTo, Action.carryBit]
  | daa => simp [meaning, Form.operand, touches, Action.adjust, fault?_setResultFlags]

end Arithmetic

/-! ## Instructions in memory -/

/-- The instruction of an opcode, by bit patterns. -/
def decode? (b : Byte) : Option (Transfer ⊕ Arithmetic) :=
  if Field.isArithmetic b then (Arithmetic.decode b).map .inr else (Transfer.decode b).map .inl

namespace Core

/-- The accesses of fetching some bytes. -/
def fetchTouches (a : Word) : Nat → List Touch
  | 0 => []
  | n + 1 => (a, .read) :: fetchTouches (a + 1) n

/-- Bytes from an address on; where there is none, zero stands for it. -/
def bytesFrom (c : Core) (a : Word) : Nat → List Byte
  | 0 => []
  | n + 1 => (c.read? a).getD 0 :: c.bytesFrom (a + 1) n

/-- The word after the opcode at the program counter. -/
def following (c : Core) : Word :=
  wordOf ((c.read? (c.state.pc + 2)).getD 0) ((c.read? (c.state.pc + 1)).getD 0)

/-- The accesses of an instruction after its fetches. -/
def actionTouches (w : Word) (c : Core) : Transfer ⊕ Arithmetic → List Touch
  | .inl i => i.touches w c
  | .inr i => i.touches c

/-- What an instruction leaves behind when one of its accesses is outside the memory. -/
def actionLeft (w : Word) (c : Core) : Transfer ⊕ Arithmetic → Core
  | .inl i => i.left w c
  | .inr _ => c

/-- The accesses of the instruction at the program counter, as far as its opcode is there and
    known: those of its fetches, then its own. -/
def touches (c : Core) : List Touch :=
  (c.state.pc, .read) ::
    match c.read? c.state.pc with
    | none => []
    | some b =>
      let k := operandBytes b
      fetchTouches (c.state.pc + 1) k ++
        match decode? b with
        | none => []
        | some i => actionTouches c.following (c.goTo (c.state.pc + 1 + BitVec.ofNat 16 k)) i

@[simp] theorem bytesFrom_goTo (c : Core) (a b : Word) (n : Nat) :
    (c.goTo b).bytesFrom a n = c.bytesFrom a n := by
  induction n generalizing a with
  | zero => rfl
  | succ n ih => rw [bytesFrom, bytesFrom, ih, read?_goTo]

theorem fault?_fetch {c : Core} (h : c.read? c.state.pc = none) :
    Micro.fetch.fault? c = some (.outsideMemory c.state.pc .read, c) := by
  rw [Micro.fetch, Micro.fault?_state_bind, Micro.fault?_read_bind_none h]

/-- Fetching bytes is at fault with the first one that is missing. -/
theorem fetchBytes_cases (n : Nat) (c : Core) (ts : List Touch) :
    let xs := c.memory.readsFrom c.state.pc n
    let d := c.goTo (c.state.pc + BitVec.ofNat 16 xs.length)
    (xs.length = n ∧ (Micro.fetchBytes n).eval c = some (c.bytesFrom c.state.pc n, d) ∧
        c.firstMissing? (fetchTouches c.state.pc n ++ ts) = c.firstMissing? ts) ∨
      xs.length < n ∧ (Micro.fetchBytes n).eval c = none ∧
        ∃ f, (Micro.fetchBytes n).fault? c = some (f, d) ∧
          c.firstMissing? (fetchTouches c.state.pc n ++ ts) = some f := by
  induction n generalizing c with
  | zero =>
    refine .inl ⟨rfl, ?_, rfl⟩
    simp [Micro.fetchBytes, bytesFrom, Memory.readsFrom, goTo]
  | succ n ih =>
    simp only [Micro.fetchBytes, fetchTouches, List.cons_append, firstMissing?_cons,
      Micro.fault?_bind, Micro.eval_bind, eval_fetch, next?, Memory.readsFrom, bytesFrom]
    rcases c.read?_cases c.state.pc with ⟨b, hb, hlt⟩ | ⟨hb, hlt⟩
    · have hget : c.memory.get? c.state.pc.toNat = some b := hb
      rw [hget, hb, if_pos hlt, List.length_cons, ← next_add_ofNat]
      rcases ih (c.goTo (c.state.pc + 1)) with ⟨hlen, heval, hts⟩ | ⟨hlen, heval, f, hf, hts⟩
      · refine .inl ⟨congrArg (· + 1) hlen, ?_, hts⟩
        rw [bytesFrom_goTo] at heval
        simp only [bind, pure, Option.bind_some, heval]
        rfl
      · refine .inr ⟨Nat.succ_lt_succ hlen, ?_, f, ?_, hts⟩
        · simp only [bind, pure, Option.bind_some, heval]
          rfl
        · simp only [bind, pure, Option.bind_some, heval, Option.elim_some, Option.elim_none]
          exact hf
    · have hget : c.memory.get? c.state.pc.toNat = none := hb
      rw [hget, hb, if_neg hlt]
      refine .inr ⟨Nat.succ_pos n, rfl, .outsideMemory c.state.pc .read, ?_, rfl⟩
      simp only [bind, Option.bind_none, Option.elim_none, fault?_fetch hb, List.length_nil,
        BitVec.add_zero, goTo]

/-- The entry's instruction works on the operand of its form. -/
theorem effect_eq (e : Entry) (c : Core) :
    e.effect (c.bytesFrom (c.state.pc + 1) e.descriptor.kind.extraBytes) =
      e.descriptor.action.run ((Form.ofEntry e).operand c.following) := by
  obtain ⟨code, ⟨mnemonic, base, kind, action, spacing⟩, x⟩ := e
  have hnext : c.state.pc + 1 + 1 = c.state.pc + 2 := next_add_ofNat c.state.pc 1
  cases kind with
  | byte =>
    have hlow : lowerHalf c.following = (c.read? (c.state.pc + 1)).getD 0 := lowerHalf_wordOf _ _
    simp only [Form.ofEntry, Form.operand, hlow]
    rfl
  | word | label =>
    simp only [OperandKind.extraBytes, bytesFrom, hnext, Entry.effect, Entry.operand,
      joinBytes_eq_wordOf]
    rfl
  | _ => rfl

/-- The bit patterns and the table agree on every opcode. -/
theorem decode?_table (b : Byte) :
    (Catalog.standard.opcode? b.toNat).map (fun e => (Form.ofEntry e, e.descriptor.action)) =
      (decode? b).map (Sum.elim Transfer.meaning Arithmetic.meaning) := by
  rw [decode?]
  cases h : Field.isArithmetic b with
  | true =>
    rw [Arithmetic.decode_table b h, if_pos rfl, Option.map_map]
    rfl
  | false =>
    rw [Transfer.decode_table b h, if_neg Bool.false_ne_true, Option.map_map]
    rfl

/-- An instruction of either kind is at fault with its first access outside the memory. -/
theorem fault?_action (w : Word) (c : Core) (i : Transfer ⊕ Arithmetic) :
    let p := Sum.elim Transfer.meaning Arithmetic.meaning i
    (p.2.run (p.1.operand w)).fault? c =
      (c.firstMissing? (actionTouches w c i)).map fun f => (f, actionLeft w c i) := by
  cases i with
  | inl i => exact Transfer.fault?_eq w c i
  | inr i => exact Arithmetic.fault?_eq w c i

/-- The fault of a step, and the core that it leaves behind. -/
def stepFault? (c : Core) : Option (Fault Empty × Core) :=
  match Micro.fetch.eval c with
  | none => Micro.fetch.fault? c
  | some (b, d) =>
    match Catalog.standard.opcode? b.toNat with
    | none => some (.unknownOpcode b (d.state.pc - 1), d)
    | some e => (Micro.fetchBytes e.descriptor.kind.extraBytes >>= e.effect).fault? d

end Core

namespace Run

/-- An instruction without watchers that fails does so as its fault says. -/
theorem instruction_fault {m : Machine} {f : Fault Empty} {s : Machine × Unit}
    (h : instruction Machine.unwatched (m, ()) = .error f s) :
    s.1.steps = m.steps ∧ m.core.stepFault? = some (f, s.1.core) := by
  have hfetch := run_outcome Micro.fetch m
  rw [instruction_eq] at h
  rw [Core.stepFault?]
  rcases error_of_bind h with hf | ⟨b, t, hf, h⟩
  · rw [hf] at hfetch
    obtain ⟨heval, hfault, hsteps⟩ := hfetch
    rw [heval]
    exact ⟨hsteps, hfault⟩
  · rw [hf] at hfetch
    obtain ⟨heval, -, hsteps⟩ := hfetch
    rw [heval, ← hsteps]
    cases hcode : Catalog.standard.opcode? b.toNat with
    | none =>
      simp only [hcode] at h ⊢
      cases h
      exact ⟨rfl, rfl⟩
    | some e =>
      simp only [hcode] at h ⊢
      -- the snapshot's operation is made without requests
      have hboth : (Micro.fetchBytes e.descriptor.kind.extraBytes >>= e.effect).run
          Machine.unwatched t = .error f s := by
        rw [run_bind]
        rcases error_of_bind h with hbytes | ⟨bytes, u, hbytes, h⟩
        · exact bind_of_error hbytes _
        · rw [bind_of_ok hbytes]
          rcases error_of_bind h with heffect | ⟨x, v, -, h⟩
          · exact heffect
          · cases h
      have houtcome := run_outcome (Micro.fetchBytes e.descriptor.kind.extraBytes >>= e.effect) t.1
      rw [hboth] at houtcome
      exact ⟨houtcome.2.2, houtcome.2.1⟩

end Run

/-! ## Steps that fail -/

namespace Core

/-- The instruction at the program counter, if all its bytes are there. -/
def complete? (c : Core) : Option (Transfer ⊕ Arithmetic) :=
  (c.read? c.state.pc).bind fun b =>
    if (c.memory.readsFrom (c.state.pc + 1) (operandBytes b)).length = operandBytes b then decode? b
    else none

/-- The core past the bytes of the instruction at the program counter, as far as they are there. -/
def past (c : Core) : Core :=
  c.goTo (c.state.pc + BitVec.ofNat 16 (c.memory.instructionReads c.state.pc).length)

/-- What a step leaves behind that fails. -/
def residue (c : Core) : Core :=
  match c.complete? with
  | some i => actionLeft c.following c.past i
  | none => c.past

/-- A step whose opcode is known is at fault with its first access outside the memory. -/
theorem stepFault?_known {c d : Core} {b : Byte} {f : Fault Empty} {e : Entry}
    (hb : c.read? c.state.pc = some b) (he : Catalog.standard.opcode? b.toNat = some e)
    (h : c.stepFault? = some (f, d)) : c.firstMissing? c.touches = some f ∧ d = c.residue := by
  have htable := decode?_table b
  rw [he] at htable
  obtain ⟨i, hi, hmeaning⟩ := Option.map_eq_some_iff.1 htable.symm
  have hk : operandBytes b = e.descriptor.kind.extraBytes := by rw [operandBytes, he]
  have hlt : c.state.pc.toNat < c.memory.size := by
    rcases c.read?_cases c.state.pc with ⟨-, -, hlt⟩ | ⟨hnone, -⟩
    · exact hlt
    · rw [hb] at hnone
      cases hnone
  have hfault : (Micro.fetchBytes e.descriptor.kind.extraBytes >>= e.effect).fault?
      (c.goTo (c.state.pc + 1)) = some (f, d) := by
    rw [stepFault?, eval_fetch, next?, hb] at h
    simpa only [bind, pure, Option.bind_some, he] using h
  have hget : c.memory.get? c.state.pc.toNat = some b := hb
  have hreads : c.memory.instructionReads c.state.pc = ⟨.read, c.state.pc.toNat, b.toNat⟩ ::
      c.memory.readsFrom (c.state.pc + 1) e.descriptor.kind.extraBytes := by
    simp only [Memory.instructionReads, hget, hk]
  have hpast : c.past = c.goTo (c.state.pc + 1 + BitVec.ofNat 16
      (c.memory.readsFrom (c.state.pc + 1) e.descriptor.kind.extraBytes).length) := by
    rw [past, hreads, List.length_cons, next_add_ofNat]
  have hcomplete : c.complete? =
      if (c.memory.readsFrom (c.state.pc + 1) e.descriptor.kind.extraBytes).length =
        e.descriptor.kind.extraBytes then some i else none := by
    rw [complete?, hb, Option.bind_some, hk, hi]
  have htouches : c.firstMissing? c.touches =
      c.firstMissing? (fetchTouches (c.state.pc + 1) e.descriptor.kind.extraBytes ++
        actionTouches c.following (c.goTo (c.state.pc + 1 +
          BitVec.ofNat 16 e.descriptor.kind.extraBytes)) i) := by
    simp only [touches, hb, hk, hi, firstMissing?_cons, if_pos hlt]
  rw [htouches, residue, hcomplete, hpast]
  rcases fetchBytes_cases e.descriptor.kind.extraBytes (c.goTo (c.state.pc + 1))
      (actionTouches c.following (c.goTo (c.state.pc + 1 +
        BitVec.ofNat 16 e.descriptor.kind.extraBytes)) i) with
    ⟨hlen, heval, hts⟩ | ⟨hlen, heval, g, hg, hts⟩
  -- all bytes are there, so the action is at fault
  · have hlen : (c.memory.readsFrom (c.state.pc + 1) e.descriptor.kind.extraBytes).length =
      e.descriptor.kind.extraBytes := hlen
    have hcore : (c.goTo (c.state.pc + 1)).goTo (c.state.pc + 1 + BitVec.ofNat 16
        (c.memory.readsFrom (c.state.pc + 1) e.descriptor.kind.extraBytes).length) =
          c.goTo (c.state.pc + 1 + BitVec.ofNat 16 e.descriptor.kind.extraBytes) :=
      congrArg (fun n => c.goTo (c.state.pc + 1 + BitVec.ofNat 16 n)) hlen
    have haction := fault?_action c.following
      (c.goTo (c.state.pc + 1 + BitVec.ofNat 16 e.descriptor.kind.extraBytes)) i
    rw [hmeaning, ← hcore] at haction
    rw [Micro.fault?_bind, heval, Option.elim_some, bytesFrom_goTo, goTo_pc, effect_eq] at hfault
    obtain ⟨g, hg, hgd⟩ := Option.map_eq_some_iff.1 (haction.symm.trans hfault)
    cases hgd
    rw [if_pos hlen]
    refine ⟨hts.trans ?_, rfl⟩
    rw [← hcore]
    exact hg
  · rw [Micro.fault?_bind, heval, Option.elim_none, hg] at hfault
    cases hfault
    have hne : ¬(c.memory.readsFrom (c.state.pc + 1) e.descriptor.kind.extraBytes).length =
      e.descriptor.kind.extraBytes := Nat.ne_of_lt hlen
    rw [if_neg hne]
    exact ⟨hts, rfl⟩

/-- The fault of a step, and what it leaves behind. -/
theorem stepFault?_cases {c d : Core} {f : Fault Empty} (h : c.stepFault? = some (f, d)) :
    ((∃ b, c.read? c.state.pc = some b ∧ decode? b = none ∧ f = .unknownOpcode b c.state.pc) ∨
      c.firstMissing? c.touches = some f) ∧ d = c.residue := by
  rcases c.read?_cases c.state.pc with ⟨b, hb, -⟩ | ⟨hb, hlt⟩
  · cases he : Catalog.standard.opcode? b.toNat with
    | some e =>
      obtain ⟨hf, hd⟩ := stepFault?_known hb he h
      exact ⟨.inr hf, hd⟩
    | none =>
      have htable := decode?_table b
      rw [he] at htable
      have hunknown : decode? b = none := Option.map_eq_none_iff.1 htable.symm
      have hk : operandBytes b = 0 := by rw [operandBytes, he]
      have hget : c.memory.get? c.state.pc.toNat = some b := hb
      have hback : c.state.pc + 1 - 1 = c.state.pc := BitVec.add_sub_cancel _ _
      rw [stepFault?, eval_fetch, next?, hb] at h
      simp only [bind, pure, Option.bind_some, he, goTo_pc, hback] at h
      cases h
      refine ⟨.inl ⟨b, hb, hunknown, rfl⟩, ?_⟩
      simp only [residue, complete?, hb, Option.bind_some, hunknown, ite_self, past,
        Memory.instructionReads, hget, hk]
      rfl
  · have hget : c.memory.get? c.state.pc.toNat = none := hb
    rw [stepFault?, eval_fetch, next?, hb] at h
    simp only [bind, Option.bind_none, fault?_fetch hb] at h
    cases h
    refine ⟨.inr ?_, ?_⟩
    · rw [touches, firstMissing?_cons, if_neg hlt]
    · simp only [residue, complete?, hb, Option.bind_none, past, Memory.instructionReads, hget]
      simp [goTo]

end Core

/-- Without watchers a step that fails does so as its fault says. -/
theorem Machine.step_fault {m m' : Machine} {f : Fault Empty} (h : m.step = (.error f, m')) :
    m'.steps = m.steps ∧ m.core.stepFault? = some (f, m'.core) := by
  rw [step, quietly] at h
  rcases Run.step_cases unwatched (m, ()) with ⟨p, s, -, hstep⟩ | ⟨g, s, hinstruction, hstep⟩
  · rw [hstep, Run.snapshot_eq] at h
    cases h
  · rw [hstep] at h
    cases h
    exact Run.instruction_fault (m := { m with log := #[] }) hinstruction

namespace Core

theorem loadLeft_state (c : Core) (a : Word) : (c.loadLeft a).state = { c.state with
    registers :=
      if a.toNat + 1 = c.memory.size ∧ c.memory.size < 65536 then
        { c.state.registers with l := (c.read? a).getD 0 }
      else c.state.registers } := by
  rw [loadLeft]
  split <;> rfl

theorem loadLeft_memory (c : Core) (a : Word) : (c.loadLeft a).memory = c.memory := by
  rw [loadLeft]
  split <;> rfl

theorem storeLeft_state (c : Core) (a : Word) : (c.storeLeft a).state = c.state := by
  rw [storeLeft]
  split <;> rfl

theorem storeLeft_memory (c : Core) (a : Word) : (c.storeLeft a).memory =
    if a.toNat + 1 = c.memory.size ∧ c.memory.size < 65536 then
      c.memory.put a.toNat c.state.registers.l
    else c.memory := by
  rw [storeLeft]
  split <;> rfl

theorem pushLeft_state (c : Core) (v : Word) : (c.pushLeft v).state = c.state := by
  rw [pushLeft]
  split <;> rfl

theorem pushLeft_memory (c : Core) (v : Word) : (c.pushLeft v).memory =
    if c.state.sp = 1 ∧ c.memory.size < 65536 then c.memory.put 0 (upperHalf v)
    else c.memory := by
  rw [pushLeft]
  split <;> rfl

/-- The registers after a step that fails. -/
theorem residue_state (c : Core) : c.residue.state = { c.past.state with
    registers := match c.complete? with
      | some (.inl .lhld) =>
        if c.following.toNat + 1 = c.memory.size ∧ c.memory.size < 65536 then
          { c.state.registers with l := (c.read? c.following).getD 0 }
        else c.state.registers
      | _ => c.state.registers } := by
  rw [residue]
  cases c.complete? with
  | none => rfl
  | some i =>
    cases i with
    | inr i => rfl
    | inl i =>
      cases i with
      | lhld => exact loadLeft_state c.past c.following
      | shld => exact storeLeft_state c.past c.following
      | push p => exact pushLeft_state c.past _
      | rst n => exact pushLeft_state c.past _
      | call k =>
        simp only [actionLeft, Transfer.left, Transfer.pushed?]
        cases Transfer.taken k c.past.state.flags with
        | true => exact pushLeft_state c.past _
        | false => rfl
      | _ => rfl

/-- The memory after a step that fails. -/
theorem residue_memory (c : Core) : c.residue.memory =
    match c.complete? with
    | some (.inl .shld) =>
      if c.following.toNat + 1 = c.memory.size ∧ c.memory.size < 65536 then
        c.memory.put c.following.toNat c.state.registers.l
      else c.memory
    | some (.inl i) =>
      match i.pushed? c.past with
      | some v =>
        if c.state.sp = 1 ∧ c.memory.size < 65536 then c.memory.put 0 (upperHalf v) else c.memory
      | none => c.memory
    | _ => c.memory := by
  rw [residue]
  cases c.complete? with
  | none => rfl
  | some i =>
    cases i with
    | inr i => rfl
    | inl i =>
      cases i with
      | lhld => exact loadLeft_memory c.past c.following
      | shld => exact storeLeft_memory c.past c.following
      | push p => exact pushLeft_memory c.past _
      | rst n => exact pushLeft_memory c.past _
      | call k =>
        simp only [actionLeft, Transfer.left, Transfer.pushed?]
        cases Transfer.taken k c.past.state.flags with
        | true => exact pushLeft_memory c.past _
        | false => rfl
      | _ => rfl

end Core

/-- A failing step leaves everything as it was but for the program counter, which is past the bytes
    that were fetched, and half a word where a word was to be loaded into HL, stored from HL or
    pushed across an end of the memory. -/
theorem Machine.step_residue {m m' : Machine} {f : Fault Empty} (h : m.step = (.error f, m')) :
    let c := m.core
    let n := m.size
    let w := c.following
    m'.steps = m.steps ∧ m'.state.flags = m.state.flags ∧ m'.state.sp = m.state.sp ∧
    m'.state.mask = m.state.mask ∧
    m'.state.pc = m.state.pc + BitVec.ofNat 16 (m.memory.instructionReads m.state.pc).length ∧
    -- L is loaded where the byte for H is missing
    m'.state.registers = (match c.complete? with
      | some (.inl .lhld) =>
        if w.toNat + 1 = n ∧ n < 65536 then { m.state.registers with l := (c.read? w).getD 0 }
        else m.state.registers
      | _ => m.state.registers) ∧
    -- L is stored where H has no place, and the upper byte of a pushed word where the lower one
    -- has none
    m'.memory = (match c.complete? with
      | some (.inl .shld) =>
        if w.toNat + 1 = n ∧ n < 65536 then m.memory.put w.toNat m.state.registers.l else m.memory
      | some (.inl i) =>
        match i.pushed? c.past with
        | some v => if m.state.sp = 1 ∧ n < 65536 then m.memory.put 0 (upperHalf v) else m.memory
        | none => m.memory
      | _ => m.memory) ∧
    -- the opcode is unknown, or the first access outside the memory is at fault
    ((∃ b, c.read? m.state.pc = some b ∧ decode? b = none ∧ f = .unknownOpcode b m.state.pc) ∨
      ∃ a d, c.touches.find? (fun t => n ≤ t.1.toNat) = some (a, d) ∧ f = .outsideMemory a d) := by
  obtain ⟨hsteps, hfault⟩ := step_fault h
  obtain ⟨hf, hcore⟩ := Core.stepFault?_cases hfault
  have hstate : m'.state = m.core.residue.state := congrArg Core.state hcore
  have hmemory : m'.memory = m.core.residue.memory := congrArg Core.memory hcore
  rw [Core.residue_state] at hstate
  refine ⟨hsteps, ?_, ?_, ?_, ?_, ?_, hmemory.trans (Core.residue_memory _),
    hf.imp_right fun hf => ?_⟩
  · rw [hstate]
    rfl
  · rw [hstate]
    rfl
  · rw [hstate]
    rfl
  · rw [hstate]
    rfl
  · rw [hstate]
    rfl
  · obtain ⟨t, ht, htf⟩ := Option.map_eq_some_iff.1 hf
    exact ⟨t.1, t.2, ht, htf.symm⟩

/-- One byte of memory with PUSH B, the stack pointer at one. -/
def Machine.pushing : Machine where
  state := { registers := { b := 0x12, c := 0x34 }, sp := 1 }
  memory := ⟨#[0xC5]⟩

/-- The upper byte overwrites the instruction itself; the lower byte has no place. -/
theorem Machine.step_pushing :
    (Machine.pushing.step).1 = .error (.outsideMemory 0xFFFF .write) ∧
      (Machine.pushing.step).2.memory = ⟨#[0x12]⟩ ∧ (Machine.pushing.step).2.state.sp = 1 := by
  have h : Machine.pushing.step =
      (.error (.outsideMemory 0xFFFF .write), Machine.pushing.step.2) := rfl
  obtain ⟨-, -, hsp, -, -, -, hmemory, -⟩ := Machine.step_residue h
  refine ⟨congrArg Prod.fst h, ?_, hsp⟩
  rw [hmemory]
  decide +kernel

end Lab8085
