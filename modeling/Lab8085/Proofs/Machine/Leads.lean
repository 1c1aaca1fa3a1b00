/-
  Lab8085.Proofs.Machine.Leads

  Code followed on registers and memory.

  `Core.Leads` counts steps, none of which begins at a halt or past the memory.  Pieces of code
  are followed with it from one address to another: `Core.Brings k P Q` says that from every
  core with `P` at most `k` steps lead to one with `Q`, and pieces are put together by
  `Brings.trans`.

  What a single step does is taken from the reference interpreters.  Beside that stand the jump
  with a condition and what loops are made of, a counter that is counted down and a jump back as
  long as it is not zero.
-/
import Lab8085.Proofs.Machine.Arithmetic
import Lab8085.Proofs.Machine.Transfer

namespace Lab8085

/-- The zero flag of a result. -/
theorem Flags.ofResult_z (r : Byte) (ac c : Bool) : (ofResult r ac c).z = decide (r = 0) := by
  have hzero : r.toNat = 0 ↔ r = 0 :=
    ⟨fun h => BitVec.eq_of_toNat_eq h, fun h => congrArg BitVec.toNat h⟩
  exact decide_eq_decide.2 hzero

/-! ## Instructions of the reference interpreters -/

namespace Core

/-- A step on an opcode outside arithmetic and logic. -/
theorem step?_transfer {c : Core} {b : Byte} {i : Transfer} (hb : c.read? c.state.pc = some b)
    (hk : Field.isArithmetic b = false) (hi : Transfer.decode b = some i) :
    c.step? = i.exec (c.goTo (c.state.pc + 1)) := by
  rw [step?_eq_decoded hb (Transfer.decode_table b hk) Transfer.perform_eq_exec, hi]
  rfl

/-- A step on an opcode of arithmetic or logic. -/
theorem step?_arithmetic {c : Core} {b : Byte} {i : Arithmetic}
    (hb : c.read? c.state.pc = some b) (hk : Field.isArithmetic b = true)
    (hi : Arithmetic.decode b = some i) : c.step? = i.exec (c.goTo (c.state.pc + 1)) := by
  rw [step?_eq_decoded hb (Arithmetic.decode_table b hk) Arithmetic.perform_eq_exec, hi]
  rfl

/-- The byte behind an opcode. -/
theorem next?_behind {c : Core} {pc : Word} {b : Byte} (hb : c.read? (pc + 1) = some b) :
    (c.goTo (pc + 1)).next? = some (b, c.goTo (pc + 2)) := by
  have htwo : pc + 1 + 1 = pc + 2 := by bv_omega
  simp only [next?, goTo_pc, read?_goTo, goTo_goTo, hb, htwo]
  rfl

/-- The word behind an opcode. -/
theorem nextWord?_behind {c : Core} {pc : Word} {low high : Byte}
    (hlow : c.read? (pc + 1) = some low) (hhigh : c.read? (pc + 2) = some high) :
    (c.goTo (pc + 1)).nextWord? = some (wordOf high low, c.goTo (pc + 3)) := by
  have htwo : pc + 1 + 1 = pc + 2 := by bv_omega
  have hthree : pc + 1 + 2 = pc + 3 := by bv_omega
  simp only [nextWord?, readWord?, goTo_pc, read?_goTo, goTo_goTo, hlow, htwo, hhigh, hthree]
  rfl

/-! ## Several steps -/

/-- A number of steps that lead from one core to another. None begins at a halt or past the
    memory. -/
inductive Leads : Nat → Core → Core → Prop
  | refl (c : Core) : Leads 0 c c
  | step {k : Nat} {c d e : Core} {b : Byte} (hb : c.read? c.state.pc = some b)
      (hgoesOn : b ≠ haltOpcode) (hd : c.step? = some d) (h : Leads k d e) : Leads (k + 1) c e

theorem Leads.trans {k l : Nat} {c d e : Core} (h : Leads k c d) (h' : Leads l d e) :
    Leads (k + l) c e := by
  induction h with
  | refl c => rwa [Nat.zero_add]
  | @step k c d' e b hb hgoesOn hd _ ih =>
      have hsum : k + 1 + l = k + l + 1 := by omega
      rw [hsum]
      exact .step hb hgoesOn hd (ih h')

/-! ## Pieces of code -/

/-- From every core with `P` at most `k` steps lead to one with `Q`. -/
def Brings (k : Nat) (P Q : Core → Prop) : Prop :=
  ∀ c, P c → ∃ j ≤ k, ∃ d, Leads j c d ∧ Q d

namespace Brings

variable {k l : Nat} {P Q R : Core → Prop}

theorem of_imp (h : ∀ c, P c → Q c) : Brings 0 P Q :=
  fun c hc => ⟨0, Nat.le_refl 0, c, .refl c, h c hc⟩

theorem trans (h : Brings k P Q) (h' : Brings l Q R) : Brings (k + l) P R := by
  intro c hc
  obtain ⟨i, hi, d, hd, hq⟩ := h c hc
  obtain ⟨j, hj, e, he, hr⟩ := h' d hq
  exact ⟨i + j, Nat.add_le_add hi hj, e, hd.trans he, hr⟩

theorem mono (h : Brings k P Q) (hk : k ≤ l) : Brings l P Q := by
  intro c hc
  obtain ⟨j, hj, d, hd, hq⟩ := h c hc
  exact ⟨j, Nat.le_trans hj hk, d, hd, hq⟩

end Brings

/-! ## One instruction -/

variable {c d : Core} {pc : Word} {b : Byte}

theorem Leads.transfer {i : Transfer} (hpc : c.state.pc = pc) (hb : c.read? pc = some b)
    (hgoesOn : b ≠ haltOpcode) (hk : Field.isArithmetic b = false)
    (hi : Transfer.decode b = some i) (hd : i.exec (c.goTo (pc + 1)) = some d) : Leads 1 c d := by
  subst hpc
  exact .step hb hgoesOn ((step?_transfer hb hk hi).trans hd) (.refl d)

theorem Leads.arithmetic {i : Arithmetic} (hpc : c.state.pc = pc) (hb : c.read? pc = some b)
    (hgoesOn : b ≠ haltOpcode) (hk : Field.isArithmetic b = true)
    (hi : Arithmetic.decode b = some i) (hd : i.exec (c.goTo (pc + 1)) = some d) : Leads 1 c d := by
  subst hpc
  exact .step hb hgoesOn ((step?_arithmetic hb hk hi).trans hd) (.refl d)

/-- The opcode of the jump with a condition. -/
def jumpOpcode (k : Fin 8) : Byte :=
  BitVec.ofNat 8 (0xC2 + 8 * k)

theorem leads_jump {k : Fin 8} {low high : Byte} (hpc : c.state.pc = pc)
    (hb : c.read? pc = some (jumpOpcode k)) (hlow : c.read? (pc + 1) = some low)
    (hhigh : c.read? (pc + 2) = some high) :
    Leads 1 c (c.goTo (if c.state.flags.meets k then wordOf high low else pc + 3)) := by
  have hopcode : jumpOpcode k ≠ haltOpcode ∧ Field.isArithmetic (jumpOpcode k) = false ∧
      Transfer.decode (jumpOpcode k) = some (.jump (some k)) := by
    match k with
    | 0 | 1 | 2 | 3 | 4 | 5 | 6 | 7 => exact ⟨by decide, rfl, rfl⟩
  refine .transfer hpc hb hopcode.1 hopcode.2.1 hopcode.2.2 ?_
  rw [Transfer.exec, nextWord?_behind hlow hhigh]
  show some (if c.state.flags.meets k then (c.goTo (pc + 3)).goTo (wordOf high low)
    else c.goTo (pc + 3)) = _
  split <;> rfl

/-- The opcode of DCR for the register of a field. -/
def dcrOpcode (r : Fin 8) : Byte :=
  BitVec.ofNat 8 (0x05 + 8 * r)

theorem leads_dcr {r : Fin 8} {v : Byte} (hpc : c.state.pc = pc)
    (hb : c.read? pc = some (dcrOpcode r)) (hv : (c.goTo (pc + 1)).byte? r = some v)
    (hd : (c.goTo (pc + 1)).setByte? r (v - 1) = some d) :
    Leads 1 c (d.setFlags (.ofResult (v - 1) (v.toNat % 16 < 1) c.state.flags.c)) := by
  have hopcode : dcrOpcode r ≠ haltOpcode ∧ Field.isArithmetic (dcrOpcode r) = true ∧
      Arithmetic.decode (dcrOpcode r) = some (.dcr r) := by
    match r with
    | 0 | 1 | 2 | 3 | 4 | 5 | 6 | 7 => exact ⟨by decide, rfl, rfl⟩
  have hdifference : BitVec.ofInt 8 ((v.toNat : Int) - 1) = v - 1 := (sub_ofNat_eq_ofInt v 1).symm
  refine .arithmetic hpc hb hopcode.1 hopcode.2.1 hopcode.2.2 ?_
  simp only [Arithmetic.exec, hv, Option.bind_eq_bind, Option.bind_some, hdifference, hd]
  rfl

/-- A counter is counted down, and the code goes back as long as it is not zero. -/
theorem leads_countdown {r : Fin 8} {v low high : Byte} (hpc : c.state.pc = pc)
    (hb : c.read? pc = some (dcrOpcode r)) (hv : (c.goTo (pc + 1)).byte? r = some v)
    (hd : (c.goTo (pc + 1)).setByte? r (v - 1) = some d) (hdpc : d.state.pc = pc + 1)
    (hjump : d.read? (pc + 1) = some (jumpOpcode 0)) (hlow : d.read? (pc + 2) = some low)
    (hhigh : d.read? (pc + 3) = some high) :
    ∃ f, Leads 2 c ((d.setFlags f).goTo (if v - 1 = 0 then pc + 4 else wordOf high low)) := by
  let f := Flags.ofResult (v - 1) (v.toNat % 16 < 1) c.state.flags.c
  have hcounted : Leads 1 c (d.setFlags f) := leads_dcr hpc hb hv hd
  have htwo : pc + 1 + 1 = pc + 2 := by bv_omega
  have hthree : pc + 1 + 2 = pc + 3 := by bv_omega
  have hfour : pc + 1 + 3 = pc + 4 := by bv_omega
  have hjumped : Leads 1 (d.setFlags f)
      ((d.setFlags f).goTo (if f.meets 0 then wordOf high low else pc + 1 + 3)) :=
    leads_jump (c := d.setFlags f) hdpc hjump (by rw [htwo]; exact hlow)
      (by rw [hthree]; exact hhigh)
  have hmeets : f.meets 0 = !decide (v - 1 = 0) := congrArg Bool.not (Flags.ofResult_z _ _ _)
  have htarget : (if f.meets 0 then wordOf high low else pc + 1 + 3) =
      if v - 1 = 0 then pc + 4 else wordOf high low := by
    rw [hmeets, hfour]
    by_cases hzero : v - 1 = 0
    · rw [decide_eq_true hzero, if_pos hzero]
      rfl
    · rw [decide_eq_false hzero, if_neg hzero]
      rfl
  refine ⟨f, ?_⟩
  rw [← htarget]
  exact hcounted.trans hjumped

end Core

end Lab8085
