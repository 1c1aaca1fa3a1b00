/-
  Lab8085.Proofs.Sorting.Loops

  The loops of the sorting program, on registers and memory.

  The code is followed piece by piece (`Core.Brings`).  What is kept between passes is `Between`:
  the outer counter in B, and a memory that is the loaded one but for the bytes to be sorted.  In
  the course of a pass the inner counter in C and the byte that H and L point to come to that
  (`Stands`).

  The inner loop is an induction on the bytes ahead and the outer one on the passes that are
  left.  Between equal bytes the comparison leaves the carry as it was, so either of the two
  jumps behind it may be the one that is taken.
-/
import Lab8085.Proofs.Machine.Placing
import Lab8085.Proofs.Machine.Stack
import Lab8085.Proofs.Sorting.Passes
import Lab8085.Proofs.Sorting.Source

namespace Lab8085

/-! ## Where the sorting program stands -/

namespace Sorting

open Lab8085.Core

/-- The address of the bytes to be sorted. -/
def dataAddress : Nat := 0x3000

/-- All of memory is there, with the code of the sorting program at address 0. -/
structure Ready (outer inner : Byte) (base : Memory) : Prop where
  size : base.size = maxMemory
  code : ∀ a < (sortCode outer inner).length, base.get? a = (sortCode outer inner)[a]?

/-- The program counter is at `pc` and B is `b`, and memory is `base` but for the bytes `l` to be
    sorted. -/
structure Between (base : Memory) (pc : Word) (b : Byte) (l : List Byte) (k : Core) : Prop where
  pc : k.state.pc = pc
  b : k.state.registers.b = b
  memory : k.memory = base.overlay dataAddress l
  fits : dataAddress + l.length ≤ maxMemory

/-- In the course of a pass C is `c`, and H and L point to the byte with index `i`. -/
structure Stands (base : Memory) (pc : Word) (b c : Byte) (i : Nat) (l : List Byte)
    (k : Core) : Prop extends Between base pc b l k where
  c : k.state.registers.c = c
  hl : k.hl = BitVec.ofNat 16 (dataAddress + i)

variable {outer inner : Byte} {base : Memory} {pc : Word} {b c : Byte} {i : Nat} {l : List Byte}
  {k : Core}

theorem Stands.goTo (h : Stands base pc b c i l k) (a : Word) : Stands base a b c i l (k.goTo a) :=
  ⟨⟨rfl, h.b, h.memory, h.fits⟩, h.c, h.hl⟩

/-- The code stays where it is. -/
theorem Between.fetch (hbase : Ready outer inner base) (h : Between base pc b l k) {a : Word}
    {x : Byte} (hx : (sortCode outer inner)[a.toNat]? = some x) : k.read? a = some x := by
  have ha : a.toNat < (sortCode outer inner).length := (List.getElem?_eq_some_iff.1 hx).1
  have hbelow : a.toNat < dataAddress := Nat.lt_trans ha (by decide : 30 < 0x3000)
  have hfits := h.fits
  rw [Core.read?, h.memory, Memory.get?_overlay (by rwa [hbase.size]), if_pos hbelow,
    hbase.code _ ha, hx]

/-- The address of a byte to be sorted. -/
theorem toNat_address (hi : dataAddress + i < maxMemory) :
    (BitVec.ofNat 16 (dataAddress + i)).toNat = dataAddress + i := by
  rw [BitVec.toNat_ofNat]
  exact Nat.mod_eq_of_lt hi

/-- The byte that H and L point to. -/
theorem Stands.read?_hl (hbase : Ready outer inner base) (h : Stands base pc b c i l k) {x : Byte}
    (hx : l[i]? = some x) : k.read? k.hl = some x := by
  have hi : i < l.length := (List.getElem?_eq_some_iff.1 hx).1
  have hfits := h.fits
  rw [h.hl, Core.read?, toNat_address (by omega), h.memory,
    Memory.get?_overlay (by rwa [hbase.size]), if_neg (by omega), Nat.add_sub_cancel_left, hx]
  rfl

/-- A byte is put where H and L point to. -/
theorem Stands.write?_hl (hbase : Ready outer inner base) (h : Stands base pc b c i l k)
    (hi : i < l.length) (v : Byte) :
    k.write? k.hl v = some { k with memory := base.overlay dataAddress (l.set i v) } := by
  have hfits := h.fits
  have haddress : k.hl.toNat = dataAddress + i := by rw [h.hl, toNat_address (by omega)]
  have hinside : dataAddress + i < base.size := by
    rw [hbase.size]
    omega
  rw [Core.write?, haddress, h.memory, Memory.size_overlay, if_pos hinside,
    Memory.put_overlay hi (by rwa [hbase.size])]

/-- H and L are counted up. -/
theorem hl_next (h : k.hl = BitVec.ofNat 16 (dataAddress + i)) (a : Word) :
    ((k.goTo a).setHl (BitVec.ofNat 16 (k.hl.toNat + 1))).hl =
      BitVec.ofNat 16 (dataAddress + (i + 1)) := by
  show wordOf (upperHalf _) (lowerHalf _) = _
  rw [wordOf_halves, ← add_ofNat_eq_ofNat, h, ← BitVec.ofNat_add, Nat.add_assoc]

/-- H and L are counted down. -/
theorem hl_previous (h : k.hl = BitVec.ofNat 16 (dataAddress + (i + 1))) (a : Word) :
    ((k.goTo a).setHl (BitVec.ofInt 16 (k.hl.toNat - 1))).hl =
      BitVec.ofNat 16 (dataAddress + i) := by
  show wordOf (upperHalf _) (lowerHalf _) = _
  have hdifference := sub_ofNat_eq_ofInt k.hl 1
  rw [wordOf_halves, ← Int.natCast_one, ← hdifference, h, ← Nat.add_assoc, BitVec.ofNat_add,
    BitVec.add_sub_cancel]

/-! ## Two neighbours -/

/-- What a comparison of `x` with `y` leaves: `x` is in A, and one of carry and zero is on unless
    `y` is less. -/
structure Compared (x y : Byte) (k : Core) : Prop where
  a : k.state.registers.a = x
  flags : (k.state.flags.c || k.state.flags.z) = !decide (y < x)

/-- The flags of a comparison, whatever the carry was before. -/
theorem accumulated_compare (x y : Byte) (v : Bool) :
    ((Arithmetic.accumulated 7 x y v).2.c || (Arithmetic.accumulated 7 x y v).2.z) =
      !decide (y < x) := by
  have hzero : (Arithmetic.accumulated 7 x y v).2.z = decide (x.toNat = y.toNat) := by
    have hx := x.isLt
    have hy := y.isLt
    refine decide_eq_decide.2 ?_
    rw [BitVec.toNat_ofInt]
    omega
  have hcarry : (Arithmetic.accumulated 7 x y v).2.c =
      if x.toNat = y.toNat then v else decide (x.toNat < y.toNat) := rfl
  have hless : decide (y < x) = decide (y.toNat < x.toNat) := decide_eq_decide.2 BitVec.lt_def
  rw [hcarry, hzero, hless]
  rcases Nat.lt_trichotomy x.toNat y.toNat with hlt | heq | hgt
  · rw [if_neg (Nat.ne_of_lt hlt), decide_eq_true hlt, decide_eq_false (Nat.lt_asymm hlt)]
    rfl
  · rw [decide_eq_true heq, heq, decide_eq_false (Nat.lt_irrefl _), Bool.or_true]
    rfl
  · rw [if_neg (Nat.ne_of_gt hgt), decide_eq_false (Nat.lt_asymm hgt),
      decide_eq_false (Nat.ne_of_gt hgt), decide_eq_true hgt]
    rfl

variable {x y : Byte}

/-- BACK: a byte is compared with the next one. -/
theorem brings_compare (hbase : Ready outer inner base) (hx : l[i]? = some x)
    (hy : l[i + 1]? = some y) :
    Brings 3 (Stands base 0x07 b c i l)
      fun k => Stands base 0x0A b c (i + 1) l k ∧ Compared x y k := by
  intro k hk
  -- MOV A, M
  let k₁ := (k.goTo 0x08).setA x
  have h₁ : Leads 1 k k₁ := by
    refine .transfer (i := .mov 7 6) hk.pc (hk.fetch hbase rfl) (by decide) rfl rfl ?_
    show (k.read? k.hl).bind _ = _
    rw [hk.read?_hl hbase hx]
    rfl
  have hk₁ : Stands base 0x08 b c i l k₁ := ⟨⟨rfl, hk.b, hk.memory, hk.fits⟩, hk.c, hk.hl⟩
  -- INX H
  let k₂ := (k₁.goTo 0x09).setHl (BitVec.ofNat 16 (k₁.hl.toNat + 1))
  have h₂ : Leads 1 k₁ k₂ :=
    .arithmetic (i := .inx 2) rfl (hk₁.fetch hbase rfl) (by decide) rfl rfl rfl
  have hk₂ : Stands base 0x09 b c (i + 1) l k₂ :=
    ⟨⟨rfl, hk.b, hk.memory, hk.fits⟩, hk.c, hl_next hk₁.hl 0x09⟩
  -- CMP M
  let k₃ := Arithmetic.accumulatedCore 7 y (k₂.goTo 0x0A)
  have h₃ : Leads 1 k₂ k₃ := by
    refine .arithmetic (i := .accumulate 7 (some 6)) rfl (hk₂.fetch hbase rfl) (by decide)
      rfl rfl ?_
    show (k₂.read? k₂.hl).bind _ = _
    rw [hk₂.read?_hl hbase hy]
    rfl
  have hk₃ : Stands base 0x0A b c (i + 1) l k₃ :=
    ⟨⟨rfl, hk.b, hk.memory, hk.fits⟩, hk.c, hk₂.hl⟩
  exact ⟨3, Nat.le_refl 3, k₃, (h₁.trans h₂).trans h₃, hk₃, rfl,
    accumulated_compare x y k.state.flags.c⟩

/-- The two jumps behind the comparison skip the exchange unless the next byte is less. -/
theorem brings_test (hbase : Ready outer inner base) :
    Brings 2 (fun k => Stands base 0x0A b c i l k ∧ Compared x y k)
      fun k => Stands base (if y < x then 0x10 else 0x15) b c i l k ∧ k.state.registers.a = x := by
  rintro k ⟨hk, ha, hflags⟩
  -- JC SKIP, and JZ SKIP if that is not taken
  have hcarry : Leads 1 k (k.goTo (if k.state.flags.c then 0x15 else 0x0D)) :=
    leads_jump (k := 3) hk.pc (hk.fetch hbase rfl) (hk.fetch hbase rfl) (hk.fetch hbase rfl)
  have hk₁ := hk.goTo 0x0D
  have hzero : Leads 1 (k.goTo 0x0D) (k.goTo (if k.state.flags.z then 0x15 else 0x10)) :=
    leads_jump (k := 1) rfl (hk₁.fetch hbase rfl) (hk₁.fetch hbase rfl) (hk₁.fetch hbase rfl)
  cases hc : k.state.flags.c with
  | true =>
      rw [hc, Bool.true_or, Bool.true_eq, Bool.not_eq_true', decide_eq_false_iff_not] at hflags
      rw [if_pos hc] at hcarry
      rw [if_neg hflags]
      exact ⟨1, by decide, _, hcarry, hk.goTo 0x15, ha⟩
  | false =>
      rw [hc, Bool.false_or] at hflags
      rw [if_neg (Bool.not_eq_true _ ▸ hc)] at hcarry
      have htarget : (if k.state.flags.z then 0x15 else 0x10 : Word) =
          if y < x then 0x10 else 0x15 := by
        rw [hflags]
        by_cases hless : y < x
        · rw [decide_eq_true hless, if_pos hless]
          rfl
        · rw [decide_eq_false hless, if_neg hless]
          rfl
      rw [htarget] at hzero
      exact ⟨2, Nat.le_refl 2, _, hcarry.trans hzero, hk.goTo _, ha⟩

/-- The byte in A and the byte that H and L point to are exchanged: A goes there, and what was there
    goes to the place before. -/
theorem brings_exchange (hbase : Ready outer inner base) (hy : l[i + 1]? = some y) :
    Brings 5 (fun k => Stands base 0x10 b c (i + 1) l k ∧ k.state.registers.a = x)
      (Stands base 0x15 b c (i + 1) ((l.set (i + 1) x).set i y)) := by
  rintro k ⟨hk, ha⟩
  have hi : i + 1 < l.length := (List.getElem?_eq_some_iff.1 hy).1
  -- MOV D, M
  let k₁ : Core := { k.goTo 0x11 with state.registers.d := y }
  have h₁ : Leads 1 k k₁ := by
    refine .transfer (i := .mov 2 6) hk.pc (hk.fetch hbase rfl) (by decide) rfl rfl ?_
    show (k.read? k.hl).bind _ = _
    rw [hk.read?_hl hbase hy]
    rfl
  have hk₁ : Stands base 0x11 b c (i + 1) l k₁ := ⟨⟨rfl, hk.b, hk.memory, hk.fits⟩, hk.c, hk.hl⟩
  -- MOV M, A
  let l₂ := l.set (i + 1) x
  let k₂ : Core := { k₁.goTo 0x12 with memory := base.overlay dataAddress l₂ }
  have h₂ : Leads 1 k₁ k₂ := by
    refine .transfer (i := .mov 6 7) rfl (hk₁.fetch hbase rfl) (by decide) rfl rfl ?_
    show (k₁.goTo 0x12).write? (k₁.goTo 0x12).hl k.state.registers.a = _
    rw [(hk₁.goTo 0x12).write?_hl hbase hi, ha]
  have hk₂ : Stands base 0x12 b c (i + 1) l₂ k₂ :=
    ⟨⟨rfl, hk.b, rfl, by rw [List.length_set]; exact hk.fits⟩, hk.c, hk.hl⟩
  -- DCX H
  let k₃ := (k₂.goTo 0x13).setHl (BitVec.ofInt 16 (k₂.hl.toNat - 1))
  have h₃ : Leads 1 k₂ k₃ :=
    .arithmetic (i := .dcx 2) rfl (hk₂.fetch hbase rfl) (by decide) rfl rfl rfl
  have hk₃ : Stands base 0x13 b c i l₂ k₃ :=
    ⟨⟨rfl, hk.b, rfl, hk₂.fits⟩, hk.c, hl_previous hk₂.hl 0x13⟩
  -- MOV M, D
  let k₄ : Core := { k₃.goTo 0x14 with memory := base.overlay dataAddress (l₂.set i y) }
  have h₄ : Leads 1 k₃ k₄ := by
    refine .transfer (i := .mov 6 2) rfl (hk₃.fetch hbase rfl) (by decide) rfl rfl ?_
    show (k₃.goTo 0x14).write? (k₃.goTo 0x14).hl y = _
    rw [(hk₃.goTo 0x14).write?_hl hbase (by rw [List.length_set]; omega)]
  have hk₄ : Stands base 0x14 b c i (l₂.set i y) k₄ :=
    ⟨⟨rfl, hk.b, rfl, by rw [List.length_set]; exact hk₂.fits⟩, hk.c, hk₃.hl⟩
  -- INX H
  let k₅ := (k₄.goTo 0x15).setHl (BitVec.ofNat 16 (k₄.hl.toNat + 1))
  have h₅ : Leads 1 k₄ k₅ :=
    .arithmetic (i := .inx 2) rfl (hk₄.fetch hbase rfl) (by decide) rfl rfl rfl
  have hk₅ : Stands base 0x15 b c (i + 1) (l₂.set i y) k₅ :=
    ⟨⟨rfl, hk.b, rfl, hk₄.fits⟩, hk.c, hl_next hk₄.hl 0x15⟩
  exact ⟨5, Nat.le_refl 5, k₅, (((h₁.trans h₂).trans h₃).trans h₄).trans h₅, hk₅⟩

/-- From BACK to SKIP two neighbours are put in order. -/
theorem brings_sorted_pair (hbase : Ready outer inner base) (done : List Byte) (x y : Byte)
    (ys : List Byte) :
    Brings 10 (Stands base 0x07 b c done.length (done ++ x :: y :: ys))
      (Stands base 0x15 b c (done.length + 1)
        (done ++ (if y < x then y else x) :: (if y < x then x else y) :: ys)) := by
  have hx : (done ++ x :: y :: ys)[done.length]? = some x := by
    rw [List.getElem?_append_right (Nat.le_refl _), Nat.sub_self]
    rfl
  have hy : (done ++ x :: y :: ys)[done.length + 1]? = some y := by
    rw [List.getElem?_append_right (Nat.le_add_right _ 1), Nat.add_sub_cancel_left]
    rfl
  have hcompared := (brings_compare (b := b) (c := c) hbase hx hy).trans (brings_test hbase)
  by_cases hless : y < x
  · simp only [if_pos hless] at hcompared ⊢
    have hset : ((done ++ x :: y :: ys).set (done.length + 1) x).set done.length y =
        done ++ y :: x :: ys := by
      rw [List.set_append_right _ _ (Nat.le_add_right _ 1), Nat.add_sub_cancel_left,
        List.set_append_right _ _ (Nat.le_refl _), Nat.sub_self]
      rfl
    have hexchanged := hcompared.trans (brings_exchange hbase hy)
    rwa [hset] at hexchanged
  · simp only [if_neg hless] at hcompared ⊢
    exact (hcompared.trans (.of_imp fun k hk => hk.1)).mono (by decide)

/-! ## The loops -/

/-- A counter below 256 is counted down, and it is zero where its number is. -/
theorem counter_pred {j : Nat} (hj : j < 256) :
    (BitVec.ofNat 8 (j + 1) - 1 : Byte) = BitVec.ofNat 8 j ∧
      ((BitVec.ofNat 8 j : Byte) = 0 ↔ j = 0) := by
  constructor
  · rw [BitVec.ofNat_add]
    exact BitVec.add_sub_cancel _ _
  · rw [BitVec.toNat_eq, BitVec.toNat_ofNat, Nat.mod_eq_of_lt hj]
    rfl

/-- SKIP: the inner counter is counted down. -/
theorem brings_skip (hbase : Ready outer inner base) {j : Nat} (hj : j < 256) :
    Brings 2 (Stands base 0x15 b (BitVec.ofNat 8 (j + 1)) i l)
      (Stands base (if j = 0 then 0x19 else 0x07) b (BitVec.ofNat 8 j) i l) := by
  intro k hk
  obtain ⟨hpred, hzero⟩ := counter_pred hj
  obtain ⟨f, h⟩ := leads_countdown (r := 1)
    (d := { k.goTo 0x16 with state.registers.c := BitVec.ofNat 8 (j + 1) - 1 })
    hk.pc (hk.fetch hbase rfl) (congrArg some hk.c) rfl rfl (hk.fetch hbase rfl)
    (hk.fetch hbase rfl) (hk.fetch hbase rfl)
  simp only [hpred, hzero] at h
  exact ⟨2, Nat.le_refl 2, _, h, ⟨rfl, hk.b, hk.memory, hk.fits⟩, rfl, hk.hl⟩

/-- The outer counter is counted down. -/
theorem brings_again (hbase : Ready outer inner base) {j : Nat} (hj : j < 256) :
    Brings 2 (Between base 0x19 (BitVec.ofNat 8 (j + 1)) l)
      (Between base (if j = 0 then 0x1D else 0x02) (BitVec.ofNat 8 j) l) := by
  intro k hk
  obtain ⟨hpred, hzero⟩ := counter_pred hj
  obtain ⟨f, h⟩ := leads_countdown (r := 0)
    (d := { k.goTo 0x1A with state.registers.b := BitVec.ofNat 8 (j + 1) - 1 })
    hk.pc (hk.fetch hbase rfl) (congrArg some hk.b) rfl rfl (hk.fetch hbase rfl)
    (hk.fetch hbase rfl) (hk.fetch hbase rfl)
  simp only [hpred, hzero] at h
  exact ⟨2, Nat.le_refl 2, _, h, rfl, rfl, hk.memory, hk.fits⟩

/-- The inner loop carries a byte over those ahead, of which there are as many as the counter
    says. -/
theorem brings_carry (hbase : Ready outer inner base) {ys : List Byte} (hne : ys ≠ [])
    (hmax : ys.length < 256) (done : List Byte) (x : Byte) :
    Brings (12 * ys.length)
      (Stands base 0x07 b (BitVec.ofNat 8 ys.length) done.length (done ++ x :: ys))
      (Between base 0x19 b (done ++ carry x ys)) := by
  induction ys generalizing done x with
  | nil => exact absurd rfl hne
  | cons y ys ih =>
      have hlength : (y :: ys).length = ys.length + 1 := rfl
      have hpair := (brings_sorted_pair hbase done x y ys).trans
        (brings_skip (b := b) hbase (j := ys.length) (by omega))
      rw [carry_cons]
      generalize (if y < x then y else x) = low at hpair ⊢
      generalize (if y < x then x else y) = high at hpair ⊢
      by_cases hys : ys = []
      · subst hys
        exact hpair.trans (.of_imp fun k hk => hk.toBetween)
      · have hloop := ih hys (by omega) (done ++ [low]) high
        have hindex : (done ++ [low]).length = done.length + 1 := by
          rw [List.length_append, List.length_singleton]
        have hnonzero : ys.length ≠ 0 := fun h => hys (List.eq_nil_of_length_eq_zero h)
        rw [if_neg hnonzero] at hpair
        rw [hindex, List.append_assoc, List.append_assoc, List.singleton_append,
          List.singleton_append] at hloop
        exact (hpair.trans hloop).mono (by omega)

/-- START: H and L point to the first byte and the inner counter is set. -/
theorem brings_start (hbase : Ready outer inner base) :
    Brings 2 (Between base 0x02 b l) (Stands base 0x07 b inner 0 l) := by
  intro k hk
  -- LXI H
  let k₁ := (k.goTo 0x05).setHl 0x3000
  have h₁ : Leads 1 k k₁ := by
    refine .transfer (i := .lxi 2) hk.pc (hk.fetch hbase rfl) (by decide) rfl rfl ?_
    rw [Transfer.exec, nextWord?_behind (hk.fetch hbase rfl) (hk.fetch hbase rfl)]
    rfl
  have hk₁ : Between base 0x05 b l k₁ := ⟨rfl, hk.b, hk.memory, hk.fits⟩
  -- MVI C
  let k₂ : Core := { k₁.goTo 0x07 with state.registers.c := inner }
  have h₂ : Leads 1 k₁ k₂ := by
    refine .transfer (i := .mvi 1) rfl (hk₁.fetch hbase rfl) (by decide) rfl rfl ?_
    rw [Transfer.exec, next?_behind (hk₁.fetch hbase rfl)]
    rfl
  have hk₂ : Stands base 0x07 b inner 0 l k₂ := ⟨⟨rfl, hk.b, hk.memory, hk.fits⟩, rfl, rfl⟩
  exact ⟨2, Nat.le_refl 2, k₂, h₁.trans h₂, hk₂⟩

variable {n : Nat} (hmin : 2 ≤ n) (hmax : n ≤ 256)

include hmin hmax

/-- A pass over all bytes, after which the outer counter is counted down. -/
theorem brings_pass (hbase : Ready outer (BitVec.ofNat 8 (n - 1)) base) (hl : l.length = n)
    {j : Nat} (hj : j < 256) :
    Brings (12 * (n - 1) + 4) (Between base 0x02 (BitVec.ofNat 8 (j + 1)) l)
      (Between base (if j = 0 then 0x1D else 0x02) (BitVec.ofNat 8 j) (pass l)) := by
  subst hl
  match l, hmin with
  | x :: y :: ys, _ =>
      have hlength : (x :: y :: ys).length = (y :: ys).length + 1 := rfl
      have hahead : (y :: ys).length < 256 := by omega
      have hcarried := brings_carry (b := BitVec.ofNat 8 (j + 1)) hbase (List.cons_ne_nil y ys)
        hahead [] x
      exact (((brings_start hbase).trans hcarried).trans (brings_again hbase hj)).mono (by omega)

/-- The outer loop makes as many passes as its counter says. -/
theorem brings_passes (hbase : Ready outer (BitVec.ofNat 8 (n - 1)) base) (hl : l.length = n)
    {j : Nat} (hj : j < 256) :
    Brings ((j + 1) * (12 * (n - 1) + 4)) (Between base 0x02 (BitVec.ofNat 8 (j + 1)) l)
      (Between base 0x1D 0 (pass^[j + 1] l)) := by
  induction j generalizing l with
  | zero => exact (brings_pass hmin hmax hbase hl hj).mono (by omega)
  | succ j ih =>
      have hpass := brings_pass hmin hmax hbase hl hj
      rw [if_neg (Nat.succ_ne_zero j)] at hpass
      have hlength : (pass l).length = n := (pass_perm l).length_eq.trans hl
      have hrest := ih hlength (by omega)
      rw [Function.iterate_succ_apply, Nat.succ_mul]
      exact (hpass.trans hrest).mono (by omega)

/-- From its beginning to its halt the program puts the bytes in order. -/
theorem brings_sorted (hbase : Ready (BitVec.ofNat 8 (n - 1)) (BitVec.ofNat 8 (n - 1)) base)
    (hl : l.length = n) :
    Brings (1 + (n - 1) * (12 * (n - 1) + 4)) (Between base 0x00 b l)
      (Between base 0x1D 0 (pass^[n - 1] l)) := by
  have hset : Brings 1 (Between base 0x00 b l) (Between base 0x02 (BitVec.ofNat 8 (n - 1)) l) := by
    intro k hk
    -- MVI B
    let k₁ : Core := { k.goTo 0x02 with state.registers.b := BitVec.ofNat 8 (n - 1) }
    have h₁ : Leads 1 k k₁ := by
      refine .transfer (i := .mvi 0) hk.pc (hk.fetch hbase rfl) (by decide) rfl rfl ?_
      rw [Transfer.exec, next?_behind (hk.fetch hbase rfl)]
      rfl
    exact ⟨1, Nat.le_refl 1, k₁, h₁, rfl, rfl, hk.memory, hk.fits⟩
  obtain ⟨j, rfl⟩ : ∃ j, n = j + 2 := ⟨n - 2, by omega⟩
  exact hset.trans (brings_passes hmin hmax hbase hl (by omega))

end Sorting

end Lab8085
