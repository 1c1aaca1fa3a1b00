/-
  Lab8085.Proofs.Machine.Stack

  The stack in memory is a stack.

  Pushes and pops of words are followed by a list of numbers, the top first.  What is kept
  (`Stacked`): the words lie in memory from the stack pointer upward, the stack pointer is two
  below where it was for each of them, and nothing else has changed.  A push writes just below
  the words; it does not reach them from behind, since the window of `2 * d` addresses below the
  old stack pointer is no more than all of memory, wherever in it the addresses wrap.

  PUSH and POP, CALL and RET use the same stack; what a push leaves (`Core.Pushed`) is all that
  is asked of the memory when the word is taken back.
-/
import Lab8085.Proofs.Machine.Attended

namespace Lab8085

/-! ## Words and their halves -/

theorem lowerHalf_ofInt (v : Int) : lowerHalf (BitVec.ofInt 16 v) = BitVec.ofInt 8 v := by
  apply BitVec.eq_of_toNat_eq
  rw [lowerHalf, BitVec.toNat_ofNat, BitVec.toNat_ofInt, BitVec.toNat_ofInt]
  omega

theorem upperHalf_ofInt (v : Int) : upperHalf (BitVec.ofInt 16 v) = BitVec.ofInt 8 (v / 256) := by
  apply BitVec.eq_of_toNat_eq
  rw [upperHalf, BitVec.toNat_ofNat, BitVec.toNat_ofInt, BitVec.toNat_ofInt]
  omega

@[simp] theorem wordOf_halves (w : Word) : wordOf (upperHalf w) (lowerHalf w) = w := by
  rw [← joinBytes_eq_wordOf, ← highByte_eq_upperHalf, ← lowByte_eq_lowerHalf, joinBytes_high_low]

theorem Flags.ofByte_byte (f : Flags) : Flags.ofByte f.byte = f := by
  rw [← Flags.unpack_eq_ofByte, ← Flags.pack_eq_byte, Flags.unpack_pack]

/-! ## A word pushed and popped -/

namespace Core

/-- The core `d` is `c` with the word `w` pushed: the lower byte lies at the new stack pointer and
    the upper byte above it, and nothing else has changed. -/
structure Pushed (c : Core) (w : Word) (d : Core) : Prop where
  state : d.state = { c.state with sp := c.state.sp - 2 }
  low : d.read? (c.state.sp - 2) = some (lowerHalf w)
  high : d.read? (c.state.sp - 1) = some (upperHalf w)
  size : d.memory.size = c.memory.size
  frame : ∀ a, a ≠ (c.state.sp - 1).toNat → a ≠ (c.state.sp - 2).toNat →
    d.memory.get? a = c.memory.get? a

/-- A word can be pushed where there is memory for it. -/
theorem exists_push? {c : Core} (w : Word) (hhigh : (c.state.sp - 1).toNat < c.memory.size)
    (hlow : (c.state.sp - 2).toNat < c.memory.size) :
    ∃ d, c.push? w = some d ∧ c.Pushed w d := by
  have hne : (c.state.sp - 1).toNat ≠ (c.state.sp - 2).toNat := by
    generalize c.state.sp = sp
    bv_omega
  let mem := (c.memory.put (c.state.sp - 1).toNat (upperHalf w)).put (c.state.sp - 2).toNat
    (lowerHalf w)
  refine ⟨⟨{ c.state with sp := c.state.sp - 2 }, mem⟩, ?_, rfl, ?_, ?_, ?_, ?_⟩
  · have hlow' : (c.state.sp - 2).toNat <
        (c.memory.put (c.state.sp - 1).toNat (upperHalf w)).size := by
      rwa [Memory.size_put]
    simp only [push?, write?, if_pos hhigh, Option.bind_eq_bind, Option.bind_some, if_pos hlow']
    rfl
  · show mem.get? (c.state.sp - 2).toNat = _
    rw [Memory.get?_put, if_pos ⟨rfl, by rwa [Memory.size_put]⟩]
  · show mem.get? (c.state.sp - 1).toNat = _
    rw [Memory.get?_put, if_neg fun h => hne h.1, Memory.get?_put, if_pos ⟨rfl, hhigh⟩]
  · show mem.size = _
    rw [Memory.size_put, Memory.size_put]
  · intro a ha ha'
    show mem.get? a = _
    rw [Memory.get?_put, if_neg fun h => ha' h.1, Memory.get?_put, if_neg fun h => ha h.1]

/-- The word between the stack pointer and the address two above is popped. -/
theorem pop?_eq {c : Core} {low high : Byte} (hlow : c.read? c.state.sp = some low)
    (hhigh : c.read? (c.state.sp + 1) = some high) :
    c.pop? = some (wordOf high low, c.setSp (c.state.sp + 2)) := by
  rw [pop?, readWord?, hlow, hhigh]
  rfl

/-- A word that has been pushed is popped from every core with the same stack pointer that has the
    two bytes still. -/
theorem Pushed.pop? {c d e : Core} {w : Word} (h : c.Pushed w d)
    (hsp : e.state.sp = c.state.sp - 2) (hlow : e.read? (c.state.sp - 2) = d.read? (c.state.sp - 2))
    (hhigh : e.read? (c.state.sp - 1) = d.read? (c.state.sp - 1)) :
    e.pop? = some (w, e.setSp c.state.sp) := by
  have habove : e.state.sp + 1 = c.state.sp - 1 := by
    rw [hsp]
    bv_omega
  have hback : e.state.sp + 2 = c.state.sp := by
    rw [hsp]
    bv_omega
  have hpop : e.pop? = some (wordOf (upperHalf w) (lowerHalf w), e.setSp (e.state.sp + 2)) := by
    apply pop?_eq
    · rw [hsp, hlow, h.low]
    · rw [habove, hhigh, h.high]
  rw [hpop, wordOf_halves, hback]

end Core

/-! ## Instructions of the stack -/

/-- The opcode of PUSH for a register pair. -/
def pushOpcode (p : Fin 4) : Byte :=
  BitVec.ofNat 8 (0xC5 + 16 * p)

/-- The opcode of POP for a register pair. -/
def popOpcode (p : Fin 4) : Byte :=
  BitVec.ofNat 8 (0xC1 + 16 * p)

namespace Core

@[simp] theorem stackPair_goTo (c : Core) (a : Word) (p : Fin 4) :
    (c.goTo a).stackPair p = c.stackPair p := by
  match p with
  | 0 | 1 | 2 | 3 => rfl

/-- A register pair that gets what it holds stays as it is. -/
theorem setStackPair_self (c : Core) (p : Fin 4) : c.setStackPair p (c.stackPair p) = c := by
  match p with
  | 0 =>
      show { c with
        state.registers.b := upperHalf (wordOf _ _)
        state.registers.c := lowerHalf (wordOf _ _) } = c
      rw [upperHalf_wordOf, lowerHalf_wordOf]
  | 1 =>
      show c.setDe (wordOf _ _) = c
      rw [setDe, upperHalf_wordOf, lowerHalf_wordOf]
  | 2 =>
      show c.setHl (wordOf _ _) = c
      rw [setHl, upperHalf_wordOf, lowerHalf_wordOf]
  | 3 =>
      show { c with
        state.registers.a := upperHalf (wordOf _ _)
        state.flags := .ofByte (lowerHalf (wordOf _ _)) } = c
      rw [upperHalf_wordOf, lowerHalf_wordOf, Flags.ofByte_byte]

/-- A register pair gets what that of another core holds. -/
theorem stackPair_setStackPair (c d : Core) (p : Fin 4) :
    (c.setStackPair p (d.stackPair p)).stackPair p = d.stackPair p := by
  match p with
  | 0 | 1 | 2 => exact wordOf_halves _
  | 3 =>
      show wordOf (upperHalf (wordOf _ _)) (Flags.ofByte (lowerHalf (wordOf _ _))).byte = wordOf _ _
      rw [upperHalf_wordOf, lowerHalf_wordOf, Flags.ofByte_byte]

theorem step?_push {c : Core} {p : Fin 4} (hcode : c.read? c.state.pc = some (pushOpcode p)) :
    c.step? = (c.goTo (c.state.pc + 1)).push? (c.stackPair p) := by
  have hdecode : Field.isArithmetic (pushOpcode p) = false ∧
      Transfer.decode (pushOpcode p) = some (.push p) := by
    match p with
    | 0 | 1 | 2 | 3 => exact ⟨rfl, rfl⟩
  rw [step?_transfer hcode hdecode.1 hdecode.2, Transfer.exec, stackPair_goTo]

theorem step?_pop {c d : Core} {p : Fin 4} {w : Word}
    (hcode : c.read? c.state.pc = some (popOpcode p))
    (hpop : (c.goTo (c.state.pc + 1)).pop? = some (w, d)) :
    c.step? = some (d.setStackPair p w) := by
  have hdecode : Field.isArithmetic (popOpcode p) = false ∧
      Transfer.decode (popOpcode p) = some (.pop p) := by
    match p with
    | 0 | 1 | 2 | 3 => exact ⟨rfl, rfl⟩
  rw [step?_transfer hcode hdecode.1 hdecode.2, Transfer.exec, hpop]
  rfl

theorem step?_call {c d : Core} {low high : Byte} (hcode : c.read? c.state.pc = some 0xCD)
    (hlow : c.read? (c.state.pc + 1) = some low) (hhigh : c.read? (c.state.pc + 2) = some high)
    (hpush : (c.goTo (c.state.pc + 3)).push? (c.state.pc + 3) = some d) :
    c.step? = some (d.goTo (wordOf high low)) := by
  have hcall : (c.goTo (c.state.pc + 3)).call? (wordOf high low) =
      some (d.goTo (wordOf high low)) := by
    rw [call?, goTo_pc, hpush]
    rfl
  rw [step?_transfer (i := .call none) hcode rfl rfl, Transfer.exec, nextWord?_behind hlow hhigh]
  exact hcall

theorem step?_ret {c d : Core} {w : Word} (hcode : c.read? c.state.pc = some 0xC9)
    (hpop : (c.goTo (c.state.pc + 1)).pop? = some (w, d)) : c.step? = some (d.goTo w) := by
  rw [step?_transfer (i := .ret none) hcode rfl rfl, Transfer.exec, Transfer.taken, if_pos rfl,
    hpop]
  rfl

end Core

/-! ## Any uses of the stack -/

/-- Words lie in memory from an address upward, the first one lowest, each with its lower byte
    first. -/
def Memory.Lies (m : Memory) : Word → List Int → Prop
  | _, [] => True
  | a, v :: vs =>
    m.get? a.toNat = some (BitVec.ofInt 8 v) ∧
      m.get? (a + 1).toNat = some (BitVec.ofInt 8 (v / 256)) ∧ m.Lies (a + 2) vs

/-- Words stay where they lie as long as their own bytes do. -/
theorem Memory.Lies.of_get? {m n : Memory} {a : Word} {vs : List Int} (h : m.Lies a vs)
    (hget : ∀ i < 2 * vs.length, n.get? (a + BitVec.ofNat 16 i).toNat =
      m.get? (a + BitVec.ofNat 16 i).toNat) : n.Lies a vs := by
  induction vs generalizing a with
  | nil => trivial
  | cons v vs ih =>
      obtain ⟨hlow, hhigh, hrest⟩ := h
      have hlength : (v :: vs).length = vs.length + 1 := rfl
      have hzero := hget 0 (by omega)
      have hone := hget 1 (by omega)
      rw [BitVec.add_zero] at hzero
      refine ⟨hzero.trans hlow, hone.trans hhigh, ih hrest fun i hi => ?_⟩
      have hshift : a + 2 + BitVec.ofNat 16 i = a + BitVec.ofNat 16 (i + 2) := by
        rw [BitVec.add_assoc, Nat.add_comm i 2, BitVec.ofNat_add]
        rfl
      rw [hshift]
      exact hget (i + 2) (by omega)

/-- The core `e` is `c` after uses of its stack that left the words `vs`, top first, and never more
    than `d`. Of the programmer's model only the stack pointer has changed, by two for each word;
    the words lie in memory from there upward; and memory is as it was outside the `2 * d` bytes
    below the old stack pointer. -/
structure Stacked (d : Nat) (c : Core) (vs : List Int) (e : Core) : Prop where
  state : e.state = { c.state with sp := c.state.sp - BitVec.ofNat 16 (2 * vs.length) }
  words : e.memory.Lies e.state.sp vs
  size : e.memory.size = c.memory.size
  frame : ∀ a, (∀ i, 0 < i → i ≤ 2 * d → a ≠ (c.state.sp - BitVec.ofNat 16 i).toNat) →
    e.memory.get? a = c.memory.get? a

namespace Stacked

variable {d : Nat} {c e : Core} {v : Int} {vs : List Int}

theorem nil (d : Nat) (c : Core) : Stacked d c [] c := by
  refine ⟨?_, trivial, rfl, fun _ _ => rfl⟩
  have hsp : c.state.sp - BitVec.ofNat 16 0 = c.state.sp := BitVec.sub_zero _
  rw [List.length_nil, Nat.mul_zero, hsp]

theorem sp_eq (h : Stacked d c vs e) :
    e.state.sp = c.state.sp - BitVec.ofNat 16 (2 * vs.length) := by
  rw [h.state]

/-- As long as there are fewer than `d` words one more can be pushed. -/
theorem push (h : Stacked d c vs e) (hd : vs.length < d) (hmax : d ≤ 32768)
    (hmapped : ∀ i, 0 < i → i ≤ 2 * d → (c.state.sp - BitVec.ofNat 16 i).toNat < c.memory.size)
    (v : Int) : ∃ f, e.push? (BitVec.ofInt 16 v) = some f ∧ Stacked d c (v :: vs) f := by
  have hlength : (v :: vs).length = vs.length + 1 := rfl
  -- the two bytes below the words, counted from the old stack pointer
  have hone : e.state.sp - 1 = c.state.sp - BitVec.ofNat 16 (2 * vs.length + 1) := by
    rw [h.sp_eq]
    bv_omega
  have htwo : e.state.sp - 2 = c.state.sp - BitVec.ofNat 16 (2 * vs.length + 2) := by
    rw [h.sp_eq]
    bv_omega
  obtain ⟨f, hf, hpushed⟩ := Core.exists_push? (c := e) (BitVec.ofInt 16 v)
    (by rw [hone, h.size]; exact hmapped _ (by omega) (by omega))
    (by rw [htwo, h.size]; exact hmapped _ (by omega) (by omega))
  have hsp : f.state.sp = e.state.sp - 2 := by rw [hpushed.state]
  refine ⟨f, hf, ?_, ?_, hpushed.size.trans h.size, fun a ha => ?_⟩
  · rw [hpushed.state, htwo, h.state, hlength]
    rfl
  · rw [hsp]
    refine ⟨?_, ?_, ?_⟩
    · rw [← lowerHalf_ofInt]
      exact hpushed.low
    · have habove : e.state.sp - 2 + 1 = e.state.sp - 1 := by bv_omega
      rw [habove, ← upperHalf_ofInt]
      exact hpushed.high
    · have hback : e.state.sp - 2 + 2 = e.state.sp := by bv_omega
      rw [hback]
      -- the words below `d` do not reach around to the two new bytes
      refine h.words.of_get? fun i hi => hpushed.frame _ ?_ ?_
      · generalize e.state.sp = sp
        bv_omega
      · generalize e.state.sp = sp
        bv_omega
  · rw [hpushed.frame a, h.frame a ha]
    · rw [hone]
      exact ha _ (by omega) (by omega)
    · rw [htwo]
      exact ha _ (by omega) (by omega)

/-- The top word can be popped. -/
theorem pop (h : Stacked d c (v :: vs) e) :
    ∃ f, e.pop? = some (BitVec.ofInt 16 v, f) ∧ Stacked d c vs f := by
  obtain ⟨hlow, hhigh, hrest⟩ := h.words
  have hlength : (v :: vs).length = vs.length + 1 := rfl
  have hsp : e.state.sp + 2 = c.state.sp - BitVec.ofNat 16 (2 * vs.length) := by
    rw [h.sp_eq, hlength]
    bv_omega
  refine ⟨e.setSp (e.state.sp + 2), ?_, ?_, hrest, h.size, h.frame⟩
  · rw [Core.pop?_eq hlow hhigh, ← upperHalf_ofInt v, ← lowerHalf_ofInt v, wordOf_halves]
  · show { e.state with sp := e.state.sp + 2 } = _
    rw [hsp, h.state]

end Stacked

namespace Monitor

/-- A use of the stack: a number of any size is pushed, or the top word is popped. -/
inductive StackUse where
  | push (v : Int)
  | pop

/-- The command for a use of the stack. -/
def StackUse.command : StackUse → Command
  | .push v => .pushWord v
  | .pop => .popWord

/-- Uses of a stack that lead from the numbers `vs`, top first, to others. None pops more than has
    been pushed, and there are never more than `d` numbers. A push has nothing to answer; a pop
    answers with the number that it takes, as far as it goes into a word. -/
inductive Uses (d : Nat) : List Int → List StackUse → List Answer → List Int → Prop
  | nil (vs : List Int) : Uses d vs [] [] vs
  | push {v : Int} {vs ws : List Int} {us : List StackUse} {as : List Answer}
      (hd : vs.length < d) (h : Uses d (v :: vs) us as ws) :
      Uses d vs (.push v :: us) (.done :: as) ws
  | pop {v : Int} {vs ws : List Int} {us : List StackUse} {as : List Answer}
      (h : Uses d vs us as ws) : Uses d (v :: vs) (.pop :: us) (.number (v % 65536) :: as) ws

variable {notify : Event → Act Unit} {Calm : Desk → Prop}

theorem perform_pushWord (hnotify : Run.Attending notify Calm) {m : Machine} {t : Desk}
    (ht : Calm t) {v : Int} {c : Core} (hc : m.core.push? (BitVec.ofInt 16 v) = some c) :
    ∃ n u, Calm u ∧ n.core = c ∧ perform notify (.pushWord v) (m, t) = .ok .done (n, u) := by
  have heval : (Micro.pushWord (BitVec.ofInt 16 v)).eval m.core = some ((), c) := by
    rw [Core.eval_pushWord, hc]
    rfl
  obtain ⟨n, u, hu, hn, hrun⟩ := Run.achieves_micro hnotify _ m t () c ht heval
  refine ⟨n, u, hu, hn, ?_⟩
  simp only [perform, Bind.bind, EStateM.bind, hrun]
  rfl

theorem perform_popWord (hnotify : Run.Attending notify Calm) {m : Machine} {t : Desk}
    (ht : Calm t) {w : Word} {c : Core} (hc : m.core.pop? = some (w, c)) :
    ∃ n u, Calm u ∧ n.core = c ∧ perform notify .popWord (m, t) = .ok (.number w.toNat) (n, u) := by
  have heval : Micro.popWord.eval m.core = some (w, c) := by
    rw [Core.eval_popWord, hc]
  obtain ⟨n, u, hu, hn, hrun⟩ := Run.achieves_micro hnotify _ m t w c ht heval
  refine ⟨n, u, hu, hn, ?_⟩
  simp only [perform, Bind.bind, EStateM.bind, hrun]
  rfl

theorem mapM_cons_ok {α β : Type} {f : α → Act β} {x : α} {xs : List α} {y : β} {ys : List β}
    {p q r : Machine × Desk} (hx : f x p = .ok y q) (hxs : xs.mapM f q = .ok ys r) :
    (x :: xs).mapM f p = .ok (y :: ys) r := by
  rw [List.mapM_cons]
  simp only [Bind.bind, EStateM.bind, hx, hxs]
  rfl

/-- Commands carried out one after the other have the answers of a stack. -/
theorem perform_uses (hnotify : Run.Attending notify Calm) {d : Nat} (hmax : d ≤ 32768) {c : Core}
    (hmapped : ∀ i, 0 < i → i ≤ 2 * d → (c.state.sp - BitVec.ofNat 16 i).toNat < c.memory.size)
    {vs ws : List Int} {us : List StackUse} {as : List Answer} (h : Uses d vs us as ws)
    {m : Machine} {t : Desk} (ht : Calm t) (hm : Stacked d c vs m.core) :
    ∃ n u, Calm u ∧ us.mapM (fun x => perform notify x.command) (m, t) = .ok as (n, u) ∧
      Stacked d c ws n.core := by
  induction h generalizing m t with
  | nil vs => exact ⟨m, t, ht, rfl, hm⟩
  | @push v vs ws us as hd _ ih =>
      obtain ⟨f, hf, hstacked⟩ := hm.push hd hmax hmapped v
      obtain ⟨m', t', ht', rfl, hrun⟩ := perform_pushWord hnotify ht hf
      obtain ⟨n, u, hu, hrest, hn⟩ := ih ht' hstacked
      exact ⟨n, u, hu, mapM_cons_ok hrun hrest, hn⟩
  | @pop v vs ws us as _ ih =>
      obtain ⟨f, hf, hstacked⟩ := hm.pop
      obtain ⟨m', t', ht', rfl, hrun⟩ := perform_popWord hnotify ht hf
      obtain ⟨n, u, hu, hrest, hn⟩ := ih ht' hstacked
      have hnumber : ((BitVec.ofInt 16 v).toNat : Int) = v % 65536 := by
        rw [BitVec.toNat_ofInt]
        omega
      rw [hnumber] at hrun
      exact ⟨n, u, hu, mapM_cons_ok hrun hrest, hn⟩

/-! ## In a session -/

/-- A step leads from a machine with its watchers to another. -/
def StepsTo (notify : Event → Act Unit) (p q : Machine × Desk) : Prop :=
  ∃ s, Run.step notify p = .ok s q

/-- What a POP does to a machine `k` that has the stack pointer and the two bytes that a PUSH of the
    same pair on `m` has left: the pair is that of `m` again, and so is the stack pointer. -/
structure Restores (m k : Machine) (p : Fin 4) (n : Machine) : Prop where
  pair : n.state.pair (Field.pairOrPsw p) = m.state.pair (Field.pairOrPsw p)
  psw : p = 3 → n.state.registers.a = m.state.registers.a ∧ n.state.flags = m.state.flags
  sp : n.state.sp = m.state.sp
  pc : n.state.pc = k.state.pc + 1
  memory : n.memory = k.memory

/-- A step that is known on registers and memory. -/
theorem stepsTo_of_core (hnotify : Run.Attending notify Calm) {m : Machine} {t : Desk} {c : Core}
    (ht : Calm t) (hc : m.core.step? = some c) :
    ∃ n u, Calm u ∧ n.core = c ∧ StepsTo notify (m, t) (n, u) := by
  obtain ⟨s, n, u, hu, hn, hstep⟩ := Run.step_of_core hnotify ht hc
  exact ⟨n, u, hu, hn, s, hstep⟩

/-- What a POP does to a core that has the word of a PUSH still: the pair gets what it was. -/
theorem step?_pop_pushed {c d e : Core} {p : Fin 4}
    (hpushed : (c.goTo (c.state.pc + 1)).Pushed (c.stackPair p) d)
    (hcode : e.read? e.state.pc = some (popOpcode p)) (hsp : e.state.sp = c.state.sp - 2)
    (hlow : e.read? (c.state.sp - 2) = d.read? (c.state.sp - 2))
    (hhigh : e.read? (c.state.sp - 1) = d.read? (c.state.sp - 1)) :
    e.step? = some (((e.goTo (e.state.pc + 1)).setSp c.state.sp).setStackPair p (c.stackPair p)) :=
  Core.step?_pop hcode (hpushed.pop? hsp hlow hhigh)

theorem restores_of_core {m k n : Machine} {p : Fin 4} (hn : n.core =
    ((k.core.goTo (k.state.pc + 1)).setSp m.state.sp).setStackPair p (m.core.stackPair p)) :
    Restores m k p n := by
  have hpair : n.core.stackPair p = m.core.stackPair p := by
    rw [hn, Core.stackPair_setStackPair]
  have hstate : n.state = (((k.core.goTo (k.state.pc + 1)).setSp m.state.sp).setStackPair p
    (m.core.stackPair p)).state := congrArg Core.state hn
  have hmemory : n.memory = (((k.core.goTo (k.state.pc + 1)).setSp m.state.sp).setStackPair p
    (m.core.stackPair p)).memory := congrArg Core.memory hn
  refine ⟨?_, ?_, ?_, ?_, ?_⟩
  · rw [← Core.pair_eq_stackPair, ← Core.pair_eq_stackPair] at hpair
    exact hpair
  · rintro rfl
    rw [hstate]
    constructor
    · show upperHalf (wordOf _ _) = _
      rw [upperHalf_wordOf]
      rfl
    · show Flags.ofByte (lowerHalf (wordOf _ _)) = _
      rw [lowerHalf_wordOf, Flags.ofByte_byte]
      rfl
  · rw [hstate]
    match p with
    | 0 | 1 | 2 | 3 => rfl
  · rw [hstate]
    match p with
    | 0 | 1 | 2 | 3 => rfl
  · rw [hmemory]
    match p with
    | 0 | 1 | 2 | 3 => rfl

/-- A PUSH and what a POP of the same pair does afterwards. -/
theorem push_pop (hnotify : Run.Attending notify Calm) (m : Machine) {t : Desk} (ht : Calm t)
    (hhigh : (m.state.sp - 1).toNat < m.size) (hlow : (m.state.sp - 2).toNat < m.size) {p : Fin 4}
    (hcode : m.memory.get? m.state.pc.toNat = some (pushOpcode p)) :
    ∃ n u, Calm u ∧ StepsTo notify (m, t) (n, u) ∧
      (m.core.goTo (m.state.pc + 1)).Pushed (m.core.stackPair p) n.core ∧
      ∀ k w, Calm w → k.memory.get? k.state.pc.toNat = some (popOpcode p) →
        k.state.sp = n.state.sp →
        k.memory.get? (m.state.sp - 1).toNat = n.memory.get? (m.state.sp - 1).toNat →
        k.memory.get? (m.state.sp - 2).toNat = n.memory.get? (m.state.sp - 2).toNat →
        ∃ k' w', Calm w' ∧ StepsTo notify (k, w) (k', w') ∧ k'.core =
          ((k.core.goTo (k.state.pc + 1)).setSp m.state.sp).setStackPair p
            (m.core.stackPair p) := by
  obtain ⟨c, hc, hpushed⟩ :=
    Core.exists_push? (c := m.core.goTo (m.state.pc + 1)) (m.core.stackPair p) hhigh hlow
  have hpush : m.core.step? = some c := (Core.step?_push (c := m.core) hcode).trans hc
  obtain ⟨n, u, hu, rfl, hstep⟩ := stepsTo_of_core hnotify ht hpush
  refine ⟨n, u, hu, hstep, hpushed, fun k w hw hpop hsp hhigh' hlow' => ?_⟩
  have hsp' : k.core.state.sp = m.core.state.sp - 2 := by
    have hpushedSp : n.state.sp = m.state.sp - 2 := congrArg State.sp hpushed.state
    exact hsp.trans hpushedSp
  obtain ⟨k', w', hw', hk', hstep'⟩ :=
    stepsTo_of_core hnotify hw (step?_pop_pushed hpushed hpop hsp' hlow' hhigh')
  exact ⟨k', w', hw', hstep', hk'⟩

/-- A CALL of an address with RET, and that RET. -/
theorem call_ret (hnotify : Run.Attending notify Calm) (m : Machine) {t : Desk} (ht : Calm t)
    (hhigh : (m.state.sp - 1).toNat < m.size) (hlow : (m.state.sp - 2).toNat < m.size)
    {low high : Byte} (hcode : m.memory.get? m.state.pc.toNat = some 0xCD)
    (hone : m.memory.get? (m.state.pc + 1).toNat = some low)
    (htwo : m.memory.get? (m.state.pc + 2).toNat = some high)
    (hret : m.memory.get? (wordOf high low).toNat = some 0xC9)
    (hhigh' : m.state.sp - 1 ≠ wordOf high low) (hlow' : m.state.sp - 2 ≠ wordOf high low) :
    ∃ n u, Calm u ∧ StepsTo notify (m, t) (n, u) ∧ n.state.pc = wordOf high low ∧
      ∃ k w, Calm w ∧ StepsTo notify (n, u) (k, w) ∧
        k.state = { m.state with pc := m.state.pc + 3 } ∧ k.memory = n.memory ∧
        ∀ a, a ≠ (m.state.sp - 1).toNat → a ≠ (m.state.sp - 2).toNat →
          k.memory.get? a = m.memory.get? a := by
  obtain ⟨c, hc, hpushed⟩ :=
    Core.exists_push? (c := m.core.goTo (m.state.pc + 3)) (m.state.pc + 3) hhigh hlow
  obtain ⟨n, u, hu, hn, hstep⟩ :=
    stepsTo_of_core hnotify ht (Core.step?_call (c := m.core) hcode hone htwo hc)
  have hmemory : n.memory = c.memory := congrArg Core.memory hn
  have hstate : n.state = { m.state with pc := wordOf high low, sp := m.state.sp - 2 } := by
    have hn' : n.state = { c.state with pc := wordOf high low } := congrArg Core.state hn
    rw [hn', hpushed.state]
    rfl
  refine ⟨n, u, hu, hstep, by rw [hstate], ?_⟩
  -- the RET is not where the return address lies
  have hret' : n.core.read? n.core.state.pc = some 0xC9 := by
    show n.memory.get? n.state.pc.toNat = _
    have hne (w : Word) (hw : w ≠ wordOf high low) : (wordOf high low).toNat ≠ w.toNat :=
      fun h => hw (BitVec.eq_of_toNat_eq h.symm)
    rw [hstate, hmemory]
    exact (hpushed.frame _ (hne _ hhigh') (hne _ hlow')).trans hret
  have hsp : (n.core.goTo (n.core.state.pc + 1)).state.sp = m.state.sp - 2 := by
    show n.state.sp = _
    rw [hstate]
  have hread (a : Word) : n.core.read? a = c.read? a := by
    show n.memory.get? a.toNat = _
    rw [hmemory]
    rfl
  have hpop : (n.core.goTo (n.core.state.pc + 1)).pop? =
      some (m.state.pc + 3, (n.core.goTo (n.core.state.pc + 1)).setSp m.state.sp) :=
    hpushed.pop? hsp (hread _) (hread _)
  obtain ⟨k, w, hw, hk, hstep'⟩ := stepsTo_of_core hnotify hu (Core.step?_ret hret' hpop)
  have hkmemory : k.memory = n.memory := congrArg Core.memory hk
  refine ⟨k, w, hw, hstep', ?_, hkmemory, fun a ha ha' => ?_⟩
  · have hk' : k.state = { n.state with sp := m.state.sp, pc := m.state.pc + 3 } :=
      congrArg Core.state hk
    rw [hk', hstate]
  · rw [hkmemory, hmemory, hpushed.frame a ha ha']
    rfl

/-- **The stack in memory is a stack**, under watchers that look on. -/
theorem stack_refines_list (hnotify : Run.Attending notify Calm) (m : Machine) {t : Desk}
    (ht : Calm t) :
    -- numbers of any size that are pushed are popped in the reverse order, as far as they go into
    -- words; none of the commands fails if the memory below the stack pointer is there, wherever it
    -- wraps
    (∀ d ≤ 32768,
      (∀ i, 0 < i → i ≤ 2 * d → (m.state.sp - BitVec.ofNat 16 i).toNat < m.size) →
      ∀ us as vs, Uses d [] us as vs →
        ∃ n u, Calm u ∧ us.mapM (fun x => perform notify x.command) (m, t) = .ok as (n, u) ∧
          Stacked d m.core vs n.core) ∧
    ((m.state.sp - 1).toNat < m.size → (m.state.sp - 2).toNat < m.size →
      -- PUSH leaves a word with which POP restores the pair, later or at once
      (∀ p, m.memory.get? m.state.pc.toNat = some (pushOpcode p) →
        ∃ n u, Calm u ∧ StepsTo notify (m, t) (n, u) ∧
          (m.core.goTo (m.state.pc + 1)).Pushed (m.core.stackPair p) n.core ∧
          (∀ k w, Calm w → k.memory.get? k.state.pc.toNat = some (popOpcode p) →
            k.state.sp = n.state.sp →
            k.memory.get? (m.state.sp - 1).toNat = n.memory.get? (m.state.sp - 1).toNat →
            k.memory.get? (m.state.sp - 2).toNat = n.memory.get? (m.state.sp - 2).toNat →
            ∃ k' w', Calm w' ∧ StepsTo notify (k, w) (k', w') ∧ Restores m k p k') ∧
          (m.memory.get? (m.state.pc + 1).toNat = some (popOpcode p) →
            m.state.sp - 1 ≠ m.state.pc + 1 → m.state.sp - 2 ≠ m.state.pc + 1 →
            ∃ k w, Calm w ∧ StepsTo notify (n, u) (k, w) ∧
              k.state = { m.state with pc := m.state.pc + 2 } ∧ k.memory = n.memory)) ∧
      -- CALL leaves the address with which RET goes on behind it
      ∀ low high, m.memory.get? m.state.pc.toNat = some 0xCD →
        m.memory.get? (m.state.pc + 1).toNat = some low →
        m.memory.get? (m.state.pc + 2).toNat = some high →
        m.memory.get? (wordOf high low).toNat = some 0xC9 →
        m.state.sp - 1 ≠ wordOf high low → m.state.sp - 2 ≠ wordOf high low →
        ∃ n u, Calm u ∧ StepsTo notify (m, t) (n, u) ∧ n.state.pc = wordOf high low ∧
          ∃ k w, Calm w ∧ StepsTo notify (n, u) (k, w) ∧
            k.state = { m.state with pc := m.state.pc + 3 } ∧ k.memory = n.memory ∧
            ∀ a, a ≠ (m.state.sp - 1).toNat → a ≠ (m.state.sp - 2).toNat →
              k.memory.get? a = m.memory.get? a) := by
  refine ⟨?_, fun hhigh hlow => ⟨?_, ?_⟩⟩
  · intro d hmax hmapped us as vs h
    exact perform_uses hnotify hmax hmapped h ht (.nil d m.core)
  · intro p hcode
    obtain ⟨n, u, hu, hstep, hpushed, hpop⟩ := push_pop hnotify m ht hhigh hlow hcode
    refine ⟨n, u, hu, hstep, hpushed, ?_, ?_⟩
    · intro k w hw hcode' hsp hhigh' hlow'
      obtain ⟨k', w', hw', hstep', hk'⟩ := hpop k w hw hcode' hsp hhigh' hlow'
      exact ⟨k', w', hw', hstep', restores_of_core hk'⟩
    · intro hnext hhigh' hlow'
      have hpc : n.state.pc = m.state.pc + 1 := congrArg State.pc hpushed.state
      have hne (w : Word) (hw : w ≠ m.state.pc + 1) : (m.state.pc + 1).toNat ≠ w.toNat :=
        fun h => hw (BitVec.eq_of_toNat_eq h.symm)
      have hcode' : n.memory.get? n.state.pc.toNat = some (popOpcode p) := by
        rw [hpc]
        exact (hpushed.frame _ (hne _ hhigh') (hne _ hlow')).trans hnext
      obtain ⟨k, w, hw, hstep', hk⟩ := hpop n u hu hcode' rfl rfl rfl
      -- PUSH has changed no register, so that the pair gets what it holds
      have hsame : (n.core.goTo (n.state.pc + 1)).setSp m.state.sp =
          ⟨{ m.state with pc := m.state.pc + 2 }, n.memory⟩ := by
        have hn : n.state = { m.state with pc := m.state.pc + 1, sp := m.state.sp - 2 } :=
          hpushed.state
        have htwo : m.state.pc + 1 + 1 = m.state.pc + 2 := by
          generalize m.state.pc = pc
          bv_omega
        rw [hpc, htwo]
        show (⟨{ n.state with pc := m.state.pc + 2, sp := m.state.sp }, n.memory⟩ : Core) = _
        rw [hn]
      have hpair : m.core.stackPair p =
          Core.stackPair ⟨{ m.state with pc := m.state.pc + 2 }, n.memory⟩ p := by
        match p with
        | 0 | 1 | 2 | 3 => rfl
      rw [hsame, hpair, Core.setStackPair_self] at hk
      exact ⟨k, w, hw, hstep', congrArg Core.state hk, congrArg Core.memory hk⟩
  · intro low high hcode hone htwo hret hhigh' hlow'
    exact call_ret hnotify m ht hhigh hlow hcode hone htwo hret hhigh' hlow'

end Monitor

namespace Monitor

/-- 64 KiB of memory with the stack pointer at address 1, so that the stack wraps. -/
def wrapping : Machine where
  state := { sp := 1 }
  memory := .zeroed maxMemory

/-- Nine bytes of memory with PUSH PSW, POP PSW, a call of address 6 and RET there. The stack is at
    the end. -/
def nesting : Machine where
  state := { registers := { a := 0x80 }, flags := { s := true, c := true }, sp := 9 }
  memory := ⟨#[0xF5, 0xF1, 0xCD, 0x06, 0x00, 0x76, 0xC9, 0x00, 0x00]⟩

/-- Numbers beyond words are pushed and popped around the end of memory; and four instructions in a
    row leave A, the flags and the stack pointer as they were. -/
theorem stack_refines_list_nesting :
    (∃ n u, [.push (-2), .push 0x12345, .pop, .push 7, .pop, .pop].mapM
        (fun x : StackUse => perform (notify nestingLimit) x.command) (wrapping, attended) =
          .ok [.done, .done, .number 0x2345, .done, .number 7, .number 0xFFFE] (n, u) ∧
        n.state = wrapping.state) ∧
    ∃ p q r s, StepsTo (notify nestingLimit) (nesting, attended) p ∧
      StepsTo (notify nestingLimit) p q ∧ StepsTo (notify nestingLimit) q r ∧
      StepsTo (notify nestingLimit) r s ∧ r.1.state.pc = 6 ∧
      s.1.state = { nesting.state with pc := 5 } := by
  have hnotify : Run.Attending (notify nestingLimit) (Desk.Patient 0) := attending_notify 0 244
  have ht := patient_attended
  constructor
  · have hmapped : ∀ i, 0 < i → i ≤ 2 * 2 →
        (wrapping.state.sp - BitVec.ofNat 16 i).toNat < wrapping.size := by
      intro i _ _
      have hsize : wrapping.size = maxMemory := Memory.size_zeroed maxMemory
      rw [hsize]
      exact BitVec.isLt _
    have huses : Uses 2 [] [.push (-2), .push 0x12345, .pop, .push 7, .pop, .pop]
        [.done, .done, .number 0x2345, .done, .number 7, .number 0xFFFE] [] :=
      .push (by decide) (.push (by decide) (.pop (.push (by decide) (.pop (.pop (.nil []))))))
    obtain ⟨n, u, -, hrun, hstacked⟩ :=
      (stack_refines_list hnotify wrapping ht).1 2 (by decide) hmapped _ _ _ huses
    exact ⟨n, u, hrun, hstacked.state⟩
  · obtain ⟨-, hinstructions⟩ := stack_refines_list hnotify nesting ht
    obtain ⟨hpush, -⟩ := hinstructions (by decide) (by decide)
    obtain ⟨n, u, hu, hstep, hpushed, -, hpop⟩ := hpush 3 rfl
    obtain ⟨k, w, hw, hstep', hk, hmemory⟩ := hpop rfl (by decide) (by decide)
    -- the call is where it was
    have hget (a : Nat) (ha : a < 7) : k.memory.get? a = nesting.memory.get? a := by
      rw [hmemory]
      apply hpushed.frame a
      · exact fun h => absurd (h ▸ ha) (by decide)
      · exact fun h => absurd (h ▸ ha) (by decide)
    have hsize : k.size = 9 := by
      show k.memory.size = 9
      rw [hmemory]
      exact hpushed.size
    have hpc : k.state.pc = 2 := by rw [hk]; rfl
    have hsp : k.state.sp = 9 := by rw [hk]; rfl
    obtain ⟨-, hinstructions'⟩ := stack_refines_list hnotify k hw
    rw [hpc, hsp, hsize] at hinstructions'
    obtain ⟨-, hcall⟩ := hinstructions' (by decide) (by decide)
    obtain ⟨n', u', -, hstep₃, hpc', k', w', -, hstep₄, hk', -⟩ :=
      hcall 0x06 0x00 ((hget 2 (by decide)).trans rfl) ((hget 3 (by decide)).trans rfl)
        ((hget 4 (by decide)).trans rfl) ((hget 6 (by decide)).trans rfl) (by decide) (by decide)
    refine ⟨(n, u), (k, w), (n', u'), (k', w'), hstep, hstep', hstep₃, hstep₄, hpc', ?_⟩
    show k'.state = _
    rw [hk', hk]
    rfl

end Monitor

end Lab8085
