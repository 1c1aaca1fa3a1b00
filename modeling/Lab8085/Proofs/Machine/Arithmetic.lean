/-
  Lab8085.Proofs.Machine.Arithmetic

  The arithmetic, logic and rotation instructions against a reference interpreter.

  The interpreter reckons with numbers: sums and differences that are cut to eight or
  sixteen bits at the end, carries as comparisons with 16, 256 and 65536.  The machine
  sets its flags one by one in the middle of an operation; `eval_addWith`,
  `eval_subtractWith`, `eval_logic`, `eval_adjust` and `eval_setResultFlags` say what
  comes of that, and `perform_eq_exec` puts them together for all states.
-/
import Lab8085.Proofs.Machine.Fields

namespace Lab8085

/-! ## Results and their flags -/

/-- Even parity: no bits are left over when ones are taken away in pairs. -/
def evenOnes (b : Byte) : Bool :=
  !(b.getLsbD 0 ^^ b.getLsbD 1 ^^ b.getLsbD 2 ^^ b.getLsbD 3 ^^
    b.getLsbD 4 ^^ b.getLsbD 5 ^^ b.getLsbD 6 ^^ b.getLsbD 7)

/-- Sign, zero and parity of a result, with the auxiliary carry and the carry. -/
def Flags.ofResult (r : Byte) (ac c : Bool) : Flags where
  s := 128 ≤ r.toNat
  z := r.toNat = 0
  ac := ac
  p := evenOnes r
  c := c

namespace Core

/-- The core with other flags. -/
def setFlags (c : Core) (f : Flags) : Core :=
  { c with state.flags := f }

/-- The core with another carry. -/
def setCarry (c : Core) (v : Bool) : Core :=
  { c with state.flags.c := v }

end Core

/-! ## The reference interpreter -/

/-- The instructions of arithmetic, logic and rotation, with their fields. An operation on the
    accumulator without a source takes the byte after the opcode. -/
inductive Arithmetic where
  | accumulate (op : Fin 8) (s : Option (Fin 8))
  | inr (d : Fin 8) | dcr (d : Fin 8)
  | inx (p : Fin 4) | dcx (p : Fin 4) | dad (p : Fin 4)
  | rlc | rrc | ral | rar | daa | cma | stc | cmc

namespace Arithmetic

/-- The instruction of an opcode, by bit patterns. -/
def decode (b : Byte) : Option Arithmetic :=
  let d := Field.target b
  let p := Field.pair b
  if b &&& 0xC0 = 0x80 then some (.accumulate d (some (Field.source b)))   -- 10ooosss
  else if b &&& 0xC7 = 0xC6 then some (.accumulate d none)                 -- 11ooo110
  else if b &&& 0xC7 = 0x04 then some (.inr d)                             -- 00ddd100
  else if b &&& 0xC7 = 0x05 then some (.dcr d)                             -- 00ddd101
  else if b &&& 0xCF = 0x03 then some (.inx p)                             -- 00pp0011
  else if b &&& 0xCF = 0x0B then some (.dcx p)                             -- 00pp1011
  else if b &&& 0xCF = 0x09 then some (.dad p)                             -- 00pp1001
  else if b = 0x07 then some .rlc
  else if b = 0x0F then some .rrc
  else if b = 0x17 then some .ral
  else if b = 0x1F then some .rar
  else if b = 0x27 then some .daa
  else if b = 0x2F then some .cma
  else if b = 0x37 then some .stc
  else if b = 0x3F then some .cmc
  else none

/-- The accumulator and the flags after an operation on `a` and `v` with carry `c`: ADD, ADC, SUB,
    SBB, ANA, XRA, ORA, CMP. -/
def accumulated (op : Fin 8) (a v : Byte) (c : Bool) : Byte × Flags :=
  let x := a.toNat
  let y := v.toNat
  let k := c.toNat
  let difference : Byte := BitVec.ofInt 8 (x - y)
  match op with
  | 0 =>
      let sum := BitVec.ofNat 8 (x + y)
      (sum, .ofResult sum (16 ≤ x % 16 + y % 16) (256 ≤ x + y))
  | 1 =>
      let sum := BitVec.ofNat 8 (x + y + k)
      (sum, .ofResult sum (16 ≤ x % 16 + y % 16 + k) false)
  | 2 => (difference, .ofResult difference (x % 16 < y % 16) (x < y))
  | 3 =>
      let r : Byte := BitVec.ofInt 8 (x - y - k)
      (r, .ofResult r (x % 16 < y % 16 + k) false)
  | 4 => (a &&& v, .ofResult (a &&& v) true false)
  | 5 => (a ^^^ v, .ofResult (a ^^^ v) false false)
  | 6 => (a ||| v, .ofResult (a ||| v) false false)
  -- a comparison keeps the carry when both sides are equal
  | 7 => (a, .ofResult difference (x % 16 < y % 16) (if x = y then c else x < y))

/-- The core after an operation on the accumulator. -/
def accumulatedCore (op : Fin 8) (v : Byte) (c : Core) : Core :=
  let r := accumulated op c.state.registers.a v c.state.flags.c
  (c.setA r.1).setFlags r.2

/-- What the decimal adjustment adds to the accumulator. -/
def correction (a : Nat) (ac c : Bool) : Nat :=
  (if 9 < a % 16 ∨ ac then 6 else 0) + if 0x99 < a ∨ c then 0x60 else 0

/-- What an instruction does; the program counter is past its opcode. -/
@[simp] def exec (c : Core) (i : Arithmetic) : Option Core :=
  let a := c.state.registers.a.toNat
  let f := c.state.flags
  match i with
  | .accumulate op (some s) => do
      let v ← c.byte? s
      return accumulatedCore op v c
  | .accumulate op none => do
      let (v, c) ← c.next?
      return accumulatedCore op v c
  | .inr d => do
      let v ← c.byte? d
      let r := BitVec.ofNat 8 (v.toNat + 1)
      return (← c.setByte? d r).setFlags (.ofResult r (16 ≤ v.toNat % 16 + 1) f.c)
  | .dcr d => do
      let v ← c.byte? d
      let r := BitVec.ofInt 8 (v.toNat - 1)
      return (← c.setByte? d r).setFlags (.ofResult r (v.toNat % 16 < 1) f.c)
  | .inx p => return c.setPair p (BitVec.ofNat 16 ((c.pair p).toNat + 1))
  | .dcx p => return c.setPair p (BitVec.ofInt 16 ((c.pair p).toNat - 1))
  | .dad p =>
      let sum := c.hl.toNat + (c.pair p).toNat
      return (c.setHl (BitVec.ofNat 16 sum)).setCarry (65536 ≤ sum)
  | .rlc => return (c.setA (BitVec.ofNat 8 (2 * a + a / 128))).setCarry (128 ≤ a)
  | .rrc => return (c.setA (BitVec.ofNat 8 (a / 2 + 128 * (a % 2)))).setCarry (a % 2 = 1)
  | .ral => return (c.setA (BitVec.ofNat 8 (2 * a + f.c.toNat))).setCarry (128 ≤ a)
  | .rar => return (c.setA (BitVec.ofNat 8 (a / 2 + 128 * f.c.toNat))).setCarry (a % 2 = 1)
  | .daa =>
      let k := correction a f.ac f.c
      let r := BitVec.ofNat 8 (a + k)
      return (c.setA r).setFlags (.ofResult r (16 ≤ a % 16 + k % 16) (0x99 < a ∨ f.c))
  | .cma => return c.setA (BitVec.ofNat 8 (255 - a))
  | .stc => return c.setCarry true
  | .cmc => return c.setCarry (!f.c)

/-- One step: the opcode at the program counter is decoded and carried out. -/
def step (c : Core) : Option Core := do
  let b ← c.read? c.state.pc
  let i ← decode b
  i.exec (c.goTo (c.state.pc + 1))

/-! ## The table has these instructions -/

/-- The action of an operation on the accumulator. -/
def operation : Fin 8 → Action
  | 0 => .add | 1 => .addCarry | 2 => .subtract | 3 => .subtractBorrow
  | 4 => .and | 5 => .xor | 6 => .or | 7 => .compare

/-- The form and the action that an instruction has in the table. -/
def meaning : Arithmetic → Form × Action
  | .accumulate op (some s) => (.builtIn (.place (Field.place s)), operation op)
  | .accumulate op none => (.byte, operation op)
  | .inr d => (.builtIn (.place (Field.place d)), .increment)
  | .dcr d => (.builtIn (.place (Field.place d)), .decrement)
  | .inx p => (.builtIn (.pair (Field.pairOrSp p)), .incrementPair)
  | .dcx p => (.builtIn (.pair (Field.pairOrSp p)), .decrementPair)
  | .dad p => (.builtIn (.pair (Field.pairOrSp p)), .addPair)
  | .rlc => (.builtIn .absent, .rotateLeft)
  | .rrc => (.builtIn .absent, .rotateRight)
  | .ral => (.builtIn .absent, .rotateLeftCarry)
  | .rar => (.builtIn .absent, .rotateRightCarry)
  | .daa => (.builtIn .absent, .decimalAdjust)
  | .cma => (.builtIn .absent, .complement)
  | .stc => (.builtIn .absent, .setCarry)
  | .cmc => (.builtIn .absent, .complementCarry)

/-- The bit patterns and the table agree on every opcode of arithmetic and logic. -/
theorem decode_table : ∀ b : Byte, Field.isArithmetic b = true →
    (Catalog.standard.opcode? b.toNat).map (fun e => (Form.ofEntry e, e.descriptor.action)) =
      (decode b).map meaning := by
  decide +kernel

end Arithmetic

/-! ## Carries and results as the machine has them -/

theorem evenParity_eq_evenOnes : ∀ b : Byte, evenParity b = evenOnes b := by
  decide +kernel

theorem msb_eq_le (r : Byte) : r.msb = decide (128 ≤ r.toNat) := by
  rw [BitVec.msb_eq_decide]

theorem halfCarry_eq (x y k : Nat) : halfCarry x y k = decide (16 ≤ x % 16 + y % 16 + k) := by
  rw [halfCarry, decide_eq_decide]
  omega

theorem halfBorrow_eq (x y k : Nat) : halfBorrow x y k = decide (x % 16 < y % 16 + k) := by
  rw [halfBorrow, decide_eq_decide]
  omega

/-- A sum of bit vectors is the sum of their numbers, cut to the width. -/
theorem add_ofNat_eq_ofNat {w : Nat} (x : BitVec w) (n : Nat) :
    x + BitVec.ofNat w n = BitVec.ofNat w (x.toNat + n) := by
  rw [BitVec.ofNat_add, BitVec.ofNat_toNat, BitVec.setWidth_eq]

/-- A difference of bit vectors is the difference of their numbers, cut to the width. -/
theorem sub_ofNat_eq_ofInt {w : Nat} (x : BitVec w) (n : Nat) :
    x - BitVec.ofNat w n = BitVec.ofInt w (x.toNat - n) := by
  rw [Int.sub_eq_add_neg, BitVec.ofInt_add, BitVec.ofInt_neg, BitVec.ofInt_natCast,
    BitVec.ofInt_natCast, BitVec.ofNat_toNat, BitVec.setWidth_eq, BitVec.sub_eq_add_neg]

namespace Action

/-- The flags of a result are those of its sign, its value and its ones. -/
@[simp] theorem eval_setResultFlags (r : Byte) (c : Core) :
    (setResultFlags r).eval c =
      some ((), c.setFlags (.ofResult r c.state.flags.ac c.state.flags.c)) := by
  have hz : (r == 0) = decide (r.toNat = 0) := by
    rw [Bool.eq_iff_iff, beq_iff_eq, decide_eq_true_iff, BitVec.toNat_eq]
    rfl
  simp only [setResultFlags, Micro.eval_bind, Micro.eval_setFlag, Option.bind_some,
    evenParity_eq_evenOnes, msb_eq_le, hz]
  rfl

/-- A sum goes to the accumulator, its carries to AC and C. -/
@[simp] theorem eval_addWith (v : Byte) (k : Nat) (c : Core) :
    (addWith v k).eval c =
      let a := c.state.registers.a.toNat
      let sum := BitVec.ofNat 8 (a + v.toNat + k)
      some ((), (c.setA sum).setFlags
        (.ofResult sum (16 ≤ a % 16 + v.toNat % 16 + k) (256 ≤ a + v.toNat + k))) := by
  simp only [addWith, Micro.eval_bind, Micro.eval_register, Micro.eval_setFlag,
    Micro.eval_setRegister, Option.bind_some, eval_setResultFlags, Registers.get, halfCarry_eq]
  rfl

/-- A difference goes to the accumulator, its borrows to AC and C. -/
@[simp] theorem eval_subtractWith (v : Byte) (k : Nat) (c : Core) :
    (subtractWith v k true).eval c =
      let a := c.state.registers.a.toNat
      let r : Byte := BitVec.ofInt 8 (a - (v.toNat + k : Nat))
      some ((), (c.setA r).setFlags
        (.ofResult r (a % 16 < v.toNat % 16 + k) (a < v.toNat + k))) := by
  simp only [subtractWith, Micro.eval_bind, Micro.eval_register, Micro.eval_setFlag,
    Micro.eval_setRegister, Option.bind_some, eval_setResultFlags, Registers.get, halfBorrow_eq,
    sub_ofNat_eq_ofInt, Bool.true_or, if_true]
  rfl

/-- Without keeping the difference the accumulator stays, and so does the carry between equals. -/
@[simp] theorem eval_subtractWith_false (v : Byte) (c : Core) :
    (subtractWith v 0 false).eval c =
      let a := c.state.registers.a.toNat
      some ((), c.setFlags (.ofResult (BitVec.ofInt 8 (a - v.toNat)) (a % 16 < v.toNat % 16)
        (if a = v.toNat then c.state.flags.c else a < v.toNat))) := by
  simp only [subtractWith, Micro.eval_bind, Micro.eval_register, Option.bind_some, Registers.get,
    halfBorrow_eq, sub_ofNat_eq_ofInt, Bool.false_or, Micro.eval_setFlag, Nat.add_zero]
  by_cases h : c.state.registers.a.toNat = v.toNat
  · simp [h]
    rfl
  · simp [h]
    rfl

/-- The result of a logic operation goes to the accumulator; the carry is off. -/
@[simp] theorem eval_logic (r : Byte) (ac : Bool) (c : Core) :
    (logic r ac).eval c = some ((), (c.setA r).setFlags (.ofResult r ac false)) := by
  simp only [logic, Micro.eval_bind, Micro.eval_setRegister, Micro.eval_setFlag, Option.bind_some,
    eval_setResultFlags]
  rfl

@[simp] theorem eval_carryBit (c : Core) : carryBit.eval c = some (c.state.flags.c.toNat, c) := rfl

end Action

namespace Arithmetic

open Lab8085.Core

/-- An operation on the accumulator does what the interpreter says with its operand. -/
theorem eval_operation (op : Fin 8) (x : Operand) (c : Core) :
    ((operation op).run x).eval c =
      (x.load.eval c).map fun q => ((), accumulatedCore op q.1 q.2) := by
  cases h : x.load.eval c with
  | none =>
      match op with
      | 0 | 1 | 2 | 3 | 4 | 5 | 6 | 7 => simp [operation, Action.run, h]
  | some q =>
      -- with a carry taken in, the carry is turned off after everything else
      have hoff (r : Byte) (ac k : Bool) (d : Core) :
          (d.setFlags (.ofResult r ac k)).change (.flag .c false) =
            d.setFlags (.ofResult r ac false) := rfl
      have hkeep : q.2.setA q.2.state.registers.a = q.2 := rfl
      match op with
      | 0 => simp [operation, Action.run, h, accumulatedCore, accumulated]
      | 1 => simp [operation, Action.run, h, accumulatedCore, accumulated, hoff]
      | 2 => simp [operation, Action.run, h, accumulatedCore, accumulated]
      | 3 => simp [operation, Action.run, h, accumulatedCore, accumulated, hoff, Int.sub_sub]
      | 4 => simp [operation, Action.run, h, accumulatedCore, accumulated, Registers.get]
      | 5 => simp [operation, Action.run, h, accumulatedCore, accumulated, Registers.get]
      | 6 => simp [operation, Action.run, h, accumulatedCore, accumulated, Registers.get]
      | 7 => simp [operation, Action.run, h, accumulatedCore, accumulated, hkeep]

variable (c : Core)

theorem perform_accumulate (op : Fin 8) (s : Option (Fin 8)) :
    (meaning (.accumulate op s)).1.perform (operation op) c = exec c (.accumulate op s) := by
  cases s with
  | none =>
      simp only [meaning, Form.perform, exec, eval_operation, Operand.load]
      rfl
  | some s =>
      simp only [meaning, Form.perform, exec, eval_operation, Operand.load, eval_load]
      cases c.byte? s <;> rfl

/-- Storing a byte leaves the flags alone. -/
theorem flags_of_setByte? {c e : Core} {d : Fin 8} {v : Byte} (h : c.setByte? d v = some e) :
    e.state.flags = c.state.flags := by
  match d with
  | 6 => rw [state_of_write? h]
  | 0 | 1 | 2 | 3 | 4 | 5 | 7 =>
      obtain rfl := Option.some.inj h
      rfl

/-- Counting puts another byte in a place and sets the flags of that byte; the carry stays. -/
theorem map_eval_count (d : Fin 8) (g : Byte → Byte) (ac : Byte → Bool) :
    Option.map Prod.snd (Micro.eval (do
      let v ← (Field.place d).load
      (Field.place d).store (g v)
      Micro.setFlag .ac (ac v)
      Action.setResultFlags (g v)) c) = do
        let v ← c.byte? d
        return (← c.setByte? d (g v)).setFlags (.ofResult (g v) (ac v) c.state.flags.c) := by
  simp only [Micro.eval_bind, eval_load, Option.bind_map, Option.map_bind, Option.bind_eq_bind]
  refine Option.bind_congr fun v _ => ?_
  simp only [Function.comp_def, eval_store, Option.bind_map, Option.map_bind]
  refine Option.bind_congr fun e he => ?_
  -- the carry that stays is that of before the byte was stored
  rw [← flags_of_setByte? he]
  simp only [Micro.eval_setFlag, Action.eval_setResultFlags, Option.map_some, Option.bind_some]
  rfl

theorem perform_inr (d : Fin 8) :
    (Form.builtIn (.place (Field.place d))).perform .increment c = exec c (.inr d) := by
  have hv (v : Byte) : v + 1 = BitVec.ofNat 8 (v.toNat + 1) := add_ofNat_eq_ofNat v 1
  have hc (v : Byte) : halfCarry v.toNat 1 0 = decide (16 ≤ v.toNat % 16 + 1) :=
    halfCarry_eq v.toNat 1 0
  have h := map_eval_count c d (fun v => v + 1) fun v => halfCarry v.toNat 1 0
  simp only [hv, hc] at h
  simp only [Form.perform, Action.run, exec, hv, hc]
  exact h

theorem perform_dcr (d : Fin 8) :
    (Form.builtIn (.place (Field.place d))).perform .decrement c = exec c (.dcr d) := by
  have hv (v : Byte) : v - 1 = BitVec.ofInt 8 (v.toNat - 1) := sub_ofNat_eq_ofInt v 1
  have hc (v : Byte) : halfBorrow v.toNat 1 0 = decide (v.toNat % 16 < 1) :=
    halfBorrow_eq v.toNat 1 0
  have h := map_eval_count c d (fun v => v - 1) fun v => halfBorrow v.toNat 1 0
  simp only [hv, hc] at h
  simp only [Form.perform, Action.run, exec, hv, hc]
  exact h

theorem perform_inx (p : Fin 4) :
    (Form.builtIn (.pair (Field.pairOrSp p))).perform .incrementPair c = exec c (.inx p) := by
  have hw (w : Word) : w + 1 = BitVec.ofNat 16 (w.toNat + 1) := add_ofNat_eq_ofNat w 1
  simp only [Form.perform, Action.run, exec, Micro.eval_bind, Micro.eval_pair, pair_eq, hw,
    Option.bind_some, eval_setPair]
  rfl

theorem perform_dcx (p : Fin 4) :
    (Form.builtIn (.pair (Field.pairOrSp p))).perform .decrementPair c = exec c (.dcx p) := by
  have hw (w : Word) : w - 1 = BitVec.ofInt 16 (w.toNat - 1) := sub_ofNat_eq_ofInt w 1
  simp only [Form.perform, Action.run, exec, Micro.eval_bind, Micro.eval_pair, pair_eq, hw,
    Option.bind_some, eval_setPair]
  rfl

theorem perform_dad (p : Fin 4) :
    (Form.builtIn (.pair (Field.pairOrSp p))).perform .addPair c = exec c (.dad p) := by
  have hw (x y : Word) : x + y = BitVec.ofNat 16 (x.toNat + y.toNat) := by
    rw [← add_ofNat_eq_ofNat, BitVec.ofNat_toNat, BitVec.setWidth_eq]
  simp only [Form.perform, Action.run, exec, Micro.eval_bind, Micro.eval_pair, Micro.eval_setFlag,
    pair_h_eq, pair_eq, eval_setPair_h, hw, Option.bind_some]
  rfl

/-- The bits of the decimal correction do not overlap, so that they add up. -/
theorem toNat_correction (a : Nat) (ac c : Bool) :
    ((if decide (a % 16 > 9) || ac then (0x06 : Byte) else 0) |||
      (if decide (a > 0x99) || c then 0x60 else 0)).toNat = correction a ac c := by
  have hbits (low high : Bool) : ((if low then (0x06 : Byte) else 0) |||
      (if high then 0x60 else 0)).toNat = (if low then 6 else 0) + if high then 0x60 else 0 := by
    cases low <;> cases high <;> rfl
  rw [hbits, correction]
  simp only [Bool.or_eq_true, decide_eq_true_iff]

theorem perform_daa : (Form.builtIn .absent).perform .decimalAdjust c = exec c .daa := by
  have hadd (k : Byte) : c.state.registers.a + k =
      BitVec.ofNat 8 (c.state.registers.a.toNat + k.toNat) := by
    rw [← add_ofNat_eq_ofNat, BitVec.ofNat_toNat, BitVec.setWidth_eq]
  have hcarry (x y : Nat) : halfCarry x y 0 = decide (16 ≤ x % 16 + y % 16) := halfCarry_eq x y 0
  have hhigh : (decide (c.state.registers.a.toNat > 0x99) || c.state.flags.c) =
      decide (0x99 < c.state.registers.a.toNat ∨ c.state.flags.c) := by
    rw [Bool.eq_iff_iff, Bool.or_eq_true, decide_eq_true_iff, decide_eq_true_iff]
  simp only [Form.perform, Action.run, Action.adjust, exec, Micro.eval_bind, Micro.eval_state,
    Micro.eval_setFlag, Micro.eval_setRegister, Action.eval_setResultFlags, Option.bind_some, hadd,
    toNat_correction, hcarry]
  rw [hhigh]
  rfl

/-! ## Rotations -/

/-- Rotations and shifts of a byte in numbers; `k` is what is shifted in. -/
theorem rotations_eq : ∀ (a : Byte) (k : Bool),
    a.rotateLeft 1 = BitVec.ofNat 8 (2 * a.toNat + a.toNat / 128) ∧
      a.rotateRight 1 = BitVec.ofNat 8 (a.toNat / 2 + 128 * (a.toNat % 2)) ∧
      a <<< 1 ||| BitVec.ofNat 8 k.toNat = BitVec.ofNat 8 (2 * a.toNat + k.toNat) ∧
      a >>> 1 ||| BitVec.ofNat 8 k.toNat <<< 7 = BitVec.ofNat 8 (a.toNat / 2 + 128 * k.toNat) := by
  decide +kernel

theorem getLsbD_zero_eq (a : Byte) : a.getLsbD 0 = decide (a.toNat % 2 = 1) := by
  rw [BitVec.getLsbD, Nat.testBit_zero]

theorem not_eq_ofNat (a : Byte) : ~~~a = BitVec.ofNat 8 (255 - a.toNat) := by
  have ha := a.isLt
  apply BitVec.eq_of_toNat_eq
  rw [BitVec.toNat_not, BitVec.toNat_ofNat]
  omega

/-- Every microprogram does what the interpreter says, wherever it can be carried out. -/
theorem perform_eq_exec (i : Arithmetic) : i.meaning.1.perform i.meaning.2 c = i.exec c := by
  cases i with
  | accumulate op s =>
      rw [← perform_accumulate]
      cases s <;> rfl
  | inr d => exact perform_inr c d
  | dcr d => exact perform_dcr c d
  | inx p => exact perform_inx c p
  | dcx p => exact perform_dcx c p
  | dad p => exact perform_dad c p
  | rlc =>
      obtain ⟨hr, -, -, -⟩ := rotations_eq c.state.registers.a c.state.flags.c
      rw [exec, ← hr, ← msb_eq_le]
      rfl
  | rrc =>
      obtain ⟨-, hr, -, -⟩ := rotations_eq c.state.registers.a c.state.flags.c
      rw [exec, ← hr, ← getLsbD_zero_eq]
      rfl
  | ral =>
      obtain ⟨-, -, hr, -⟩ := rotations_eq c.state.registers.a c.state.flags.c
      rw [exec, ← hr, ← msb_eq_le]
      rfl
  | rar =>
      obtain ⟨-, -, -, hr⟩ := rotations_eq c.state.registers.a c.state.flags.c
      rw [exec, ← hr, ← getLsbD_zero_eq]
      rfl
  | daa => exact perform_daa c
  | cma =>
      rw [exec, ← not_eq_ofNat]
      rfl
  | stc => rfl
  | cmc => rfl

end Arithmetic

/-! ## Steps -/

/-- On an opcode of arithmetic or logic a machine steps as the interpreter does: it returns exactly
    when the interpreter has a result, with the interpreter's registers, flags, program counter,
    stack pointer, mask and memory. -/
theorem Machine.step_eq_arithmetic {m : Machine} {b : Byte}
    (hb : m.memory.get? m.state.pc.toNat = some b) (hk : Field.isArithmetic b = true) :
    m.stepped? = Arithmetic.step m.core := by
  have hread : m.core.read? m.core.state.pc = some b := hb
  have hdecode := Arithmetic.decode_table b hk
  rw [stepped?_eq, Core.step?_eq_decoded hread hdecode Arithmetic.perform_eq_exec, Arithmetic.step, hread]
  rfl

/-- One byte of memory with SBB B; the borrow makes B one more than a byte can be. -/
def Machine.borrowing : Machine where
  state := { registers := { a := 0x10, b := 0xFF }, flags := { c := true } }
  memory := ⟨#[0x98]⟩

theorem Machine.step_borrowing :
    borrowing.stepped? =
      some ⟨{ registers := { a := 0x10, b := 0xFF }, flags := { ac := true }, pc := 1 },
        ⟨#[0x98]⟩⟩ :=
  (step_eq_arithmetic (m := borrowing) (b := 0x98) (by decide) (by decide)).trans (by decide)

end Lab8085
