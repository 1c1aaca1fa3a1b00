/-
  Lab8085.Proofs.Machine.Decimal

  Decimal numbers added and adjusted.

  A decimal byte has one digit in each half.  Its sum with another is binary: a half that has
  come to ten or more is six short of its decimal carry, and the adjustment adds these sixes.
  It is told of the lower half by the half carry or by what is left in that half, and of the
  upper one by the carry or by what is left in the byte.  As long as the addition keeps its
  carry this is exact (`ones_iff`, `tens_iff`).

  An addition with the carry clears the carry that it makes.  Where the binary sum passes a byte
  what is left is at most 33h, and nothing tells the adjustment of the hundred
  (`not_told_of_lost`); so there, and only there, the result is wrong.
-/
import Lab8085.Proofs.Machine.Attended
import Mathlib.Tactic.SplitIfs

namespace Lab8085

/-! ## Decimal bytes -/

/-- Two decimal digits, one in each half of a byte. -/
structure IsDecimal (b : Byte) : Prop where
  tens : b.toNat / 16 < 10
  ones : b.toNat % 16 < 10

/-- The number of two decimal digits. -/
def decimal (b : Byte) : Nat :=
  10 * (b.toNat / 16) + b.toNat % 16

/-- A number below 100 in two decimal digits. -/
def decimalByte (n : Nat) : Byte :=
  BitVec.ofNat 8 (16 * (n / 10) + n % 10)

/-- The accumulator has the last two digits of a number, and the carry says whether there are
    more. -/
structure State.ShowsDecimal (s : State) (n : Nat) : Prop where
  digits : s.registers.a = decimalByte (n % 100)
  carry : s.flags.c = decide (100 ≤ n)

/-! ## The sum of two decimal bytes -/

namespace IsDecimal

variable {a v : Byte} {k : Nat}

/-- The lower digits, and one more for a carry, have come to ten exactly when the half carry of
    the sum or what is left in its lower half says so. -/
theorem ones_iff (ha : IsDecimal a) (hv : IsDecimal v) (hk : k ≤ 1) :
    9 < (a.toNat + v.toNat + k) % 256 % 16 ∨ 16 ≤ a.toNat % 16 + v.toNat % 16 + k ↔
      10 ≤ a.toNat % 16 + v.toNat % 16 + k := by
  have ha₀ := ha.ones
  have hv₀ := hv.ones
  omega

/-- The numbers, and one more for a carry, have come to a hundred exactly when the carry of the
    sum or what is left of it says so. -/
theorem tens_iff (ha : IsDecimal a) (hv : IsDecimal v) (hk : k ≤ 1) :
    0x99 < (a.toNat + v.toNat + k) % 256 ∨ 256 ≤ a.toNat + v.toNat + k ↔
      100 ≤ decimal a + decimal v + k := by
  have ha₁ := ha.tens
  have ha₀ := ha.ones
  have hv₁ := hv.tens
  have hv₀ := hv.ones
  unfold decimal
  omega

/-- Without the carry nothing tells of a sum that has passed a byte, though the numbers have come
    to a hundred. -/
theorem not_told_of_lost (ha : IsDecimal a) (hv : IsDecimal v) (hk : k ≤ 1)
    (hpast : 0xFF < a.toNat + v.toNat + k) :
    ¬0x99 < (a.toNat + v.toNat + k) % 256 ∧ 100 ≤ decimal a + decimal v + k := by
  have htens := tens_iff ha hv hk
  have ha₁ := ha.tens
  have ha₀ := ha.ones
  have hv₁ := hv.tens
  have hv₀ := hv.ones
  constructor
  · omega
  · exact htens.1 (.inr hpast)

/-- The sixes make two decimal digits out of a binary sum; `t` and `u` are what the upper and the
    lower digits come to. -/
theorem sixes {t u : Nat} (ht : t ≤ 18) (hu : u ≤ 19) :
    (16 * ((10 * t + u) % 100 / 10) + (10 * t + u) % 100 % 10) % 256 =
      ((16 * t + u) % 256 +
        ((if 10 ≤ u then 6 else 0) + if 100 ≤ 10 * t + u then 0x60 else 0)) % 256 := by
  have hones : (10 * t + u) % 100 % 10 = u - if 10 ≤ u then 10 else 0 := by
    split_ifs <;> omega
  have htens : (10 * t + u) % 100 / 10 =
      (t + if 10 ≤ u then 1 else 0) - if 100 ≤ 10 * t + u then 10 else 0 := by
    split_ifs <;> omega
  rw [hones, htens]
  -- a digit that is ten too large is sixteen too large in its half
  split_ifs <;> omega

theorem decimalByte_eq (ha : IsDecimal a) (hv : IsDecimal v) (hk : k ≤ 1) :
    decimalByte ((decimal a + decimal v + k) % 100) =
      BitVec.ofNat 8 ((a.toNat + v.toNat + k) % 256 +
        ((if 10 ≤ a.toNat % 16 + v.toNat % 16 + k then 6 else 0) +
          if 100 ≤ decimal a + decimal v + k then 0x60 else 0)) := by
  let t := a.toNat / 16 + v.toNat / 16
  let u := a.toNat % 16 + v.toNat % 16 + k
  have ht : t ≤ 18 := by
    have ha₁ := ha.tens
    have hv₁ := hv.tens
    omega
  have hu : u ≤ 19 := by
    have ha₀ := ha.ones
    have hv₀ := hv.ones
    omega
  have hdecimal : decimal a + decimal v + k = 10 * t + u := by
    unfold decimal
    omega
  have hsum : a.toNat + v.toNat + k = 16 * t + u := by omega
  apply BitVec.eq_of_toNat_eq
  rw [decimalByte, BitVec.toNat_ofNat, BitVec.toNat_ofNat, hdecimal, hsum]
  exact sixes ht hu

end IsDecimal

/-! ## The adjustment -/

/-- The accumulator and the carries after the bytes `a` and `v` and a carry `k` have been added;
    the carry of the sum may have been kept or not. -/
structure Core.HasSum (c : Core) (a v : Byte) (k : Nat) (kept : Bool) : Prop where
  sum : c.state.registers.a = BitVec.ofNat 8 (a.toNat + v.toNat + k)
  halfCarry : c.state.flags.ac = decide (16 ≤ a.toNat % 16 + v.toNat % 16 + k)
  carry : c.state.flags.c = (kept && decide (0xFF < a.toNat + v.toNat + k))

namespace Core.HasSum

variable {c d : Core} {a v : Byte} {k : Nat} {kept : Bool}

/-- The adjustment sets the carry if what is left of the sum is above 99h, or if its carry was
    kept. -/
theorem carry_of_daa (h : c.HasSum a v k kept) (hd : Arithmetic.exec c .daa = some d) :
    d.state.flags.c = decide (0x99 < (a.toNat + v.toNat + k) % 256 ∨
      kept = true ∧ 0xFF < a.toNat + v.toNat + k) := by
  obtain rfl := Option.some.inj hd
  show decide (0x99 < c.state.registers.a.toNat ∨ c.state.flags.c = true) = _
  simp only [h.sum, h.carry, BitVec.toNat_ofNat, Bool.and_eq_true, decide_eq_true_iff]

/-- A sum whose carry was not lost is made decimal. -/
theorem showsDecimal (h : c.HasSum a v k kept) (ha : IsDecimal a) (hv : IsDecimal v)
    (hk : k ≤ 1) (hkept : kept = true ∨ a.toNat + v.toNat + k ≤ 0xFF)
    (hd : Arithmetic.exec c .daa = some d) :
    d.state.ShowsDecimal (decimal a + decimal v + k) := by
  have htold : 0x99 < (a.toNat + v.toNat + k) % 256 ∨
      kept = true ∧ 0xFF < a.toNat + v.toNat + k ↔ 100 ≤ decimal a + decimal v + k := by
    rw [← IsDecimal.tens_iff ha hv hk]
    refine or_congr_right ⟨And.right, fun hpast => ⟨?_, hpast⟩⟩
    exact hkept.resolve_right (Nat.not_le.2 hpast)
  -- both halves are adjusted exactly where the digits have come to ten
  refine ⟨?_, (h.carry_of_daa hd).trans (decide_eq_decide.2 htold)⟩
  obtain rfl := Option.some.inj hd
  show BitVec.ofNat 8 (c.state.registers.a.toNat + Arithmetic.correction
    c.state.registers.a.toNat c.state.flags.ac c.state.flags.c) = _
  rw [IsDecimal.decimalByte_eq ha hv hk, h.sum, h.halfCarry, h.carry, BitVec.toNat_ofNat,
    Arithmetic.correction]
  simp only [Bool.and_eq_true, decide_eq_true_iff, IsDecimal.ones_iff ha hv hk, htold]

/-- A sum whose carry was lost is not made decimal: the hundred is missing. -/
theorem not_showsDecimal (h : c.HasSum a v k false) (ha : IsDecimal a) (hv : IsDecimal v)
    (hk : k ≤ 1) (hpast : 0xFF < a.toNat + v.toNat + k)
    (hd : Arithmetic.exec c .daa = some d) :
    ¬d.state.ShowsDecimal (decimal a + decimal v + k) := by
  intro hshows
  obtain ⟨hnot, hhundred⟩ := IsDecimal.not_told_of_lost ha hv hk hpast
  have hclear : d.state.flags.c = false := by
    rw [h.carry_of_daa hd, decide_eq_false_iff_not]
    rintro (hleft | ⟨hkept, -⟩)
    · exact hnot hleft
    · cases hkept
  have hset : d.state.flags.c = true := by
    rw [hshows.carry, decide_eq_true hhundred]
  rw [hclear] at hset
  cases hset

end Core.HasSum

/-! ## Additions -/

namespace Core

/-- The operation that adds to the accumulator, with the carry or without it. -/
def addition : Bool → Fin 8
  | false => ⟨0, by decide⟩
  | true => ⟨1, by decide⟩

/-- The opcode of an addition of what a field names. -/
def addOpcode (withCarry : Bool) (s : Fin 8) : Byte :=
  BitVec.ofNat 8 (0x80 + 8 * addition withCarry + s)

/-- The opcode of an addition of the byte behind it. -/
def addImmediateOpcode (withCarry : Bool) : Byte :=
  BitVec.ofNat 8 (0xC6 + 8 * addition withCarry)

theorem decode_addOpcode : ∀ (withCarry : Bool) (s : Fin 8),
    addOpcode withCarry s ≠ haltOpcode ∧ Field.isArithmetic (addOpcode withCarry s) = true ∧
      Arithmetic.decode (addOpcode withCarry s) =
        some (.accumulate (addition withCarry) (some s)) := by
  intro withCarry s
  cases withCarry <;> match s with
    | 0 | 1 | 2 | 3 | 4 | 5 | 6 | 7 => exact ⟨by decide, rfl, rfl⟩

theorem decode_addImmediateOpcode : ∀ withCarry : Bool,
    addImmediateOpcode withCarry ≠ haltOpcode ∧
      Field.isArithmetic (addImmediateOpcode withCarry) = true ∧
      Arithmetic.decode (addImmediateOpcode withCarry) =
        some (.accumulate (addition withCarry) none)
  | false | true => ⟨by decide, rfl, rfl⟩

/-- The opcode of the decimal adjustment. -/
def daaOpcode : Byte :=
  0x27

/-- The next instruction adds the byte `v` to the accumulator. It is so many bytes long. -/
inductive Adds (c : Core) (withCarry : Bool) (v : Byte) : Word → Prop
  | source (s : Fin 8) (hcode : c.read? c.state.pc = some (addOpcode withCarry s))
      (hv : c.byte? s = some v) : Adds c withCarry v 1
  | immediate (hcode : c.read? c.state.pc = some (addImmediateOpcode withCarry))
      (hv : c.read? (c.state.pc + 1) = some v) : Adds c withCarry v 2

/-- The carry that an addition takes in. -/
def carryIn (c : Core) (withCarry : Bool) : Nat :=
  (withCarry && c.state.flags.c).toNat

variable {c : Core} {withCarry : Bool} {v : Byte} {length : Word}

/-- An addition without the carry keeps the carry that it makes, one with the carry does not. -/
theorem hasSum_accumulatedCore (c : Core) (withCarry : Bool) (v : Byte) :
    (Arithmetic.accumulatedCore (addition withCarry) v c).HasSum c.state.registers.a v
      (c.carryIn withCarry) !withCarry := by
  cases withCarry
  · exact ⟨rfl, rfl, rfl⟩
  · exact ⟨rfl, rfl, rfl⟩

/-- An addition is one step, to the sum and behind the instruction. -/
theorem Adds.leads (h : c.Adds withCarry v length) :
    Leads 1 c (Arithmetic.accumulatedCore (addition withCarry) v
      (c.goTo (c.state.pc + length))) := by
  cases h with
  | source s hcode hv =>
      obtain ⟨hgoesOn, hkind, hdecode⟩ := decode_addOpcode withCarry s
      have hbyte : (c.goTo (c.state.pc + 1)).byte? s = some v := by
        rw [← hv]
        match s with
        | 0 | 1 | 2 | 3 | 4 | 5 | 6 | 7 => rfl
      refine .arithmetic rfl hcode hgoesOn hkind hdecode ?_
      simp only [Arithmetic.exec, hbyte, Option.bind_eq_bind, Option.bind_some]
      rfl
  | immediate hcode hv =>
      obtain ⟨hgoesOn, hkind, hdecode⟩ := decode_addImmediateOpcode withCarry
      refine .arithmetic rfl hcode hgoesOn hkind hdecode ?_
      simp only [Arithmetic.exec, next?_behind hv, Option.bind_eq_bind, Option.bind_some]
      rfl

/-- The decimal adjustment is one step. -/
theorem leads_daa {pc : Word} (hpc : c.state.pc = pc) (hcode : c.read? pc = some daaOpcode) :
    ∃ d, Arithmetic.exec (c.goTo (pc + 1)) .daa = some d ∧ Leads 1 c d :=
  ⟨_, rfl, .arithmetic hpc hcode (by decide) rfl rfl rfl⟩

/-- An addition and the adjustment behind it. -/
theorem Adds.leads_adjusted (h : c.Adds withCarry v length)
    (hdaa : c.read? (c.state.pc + length) = some daaOpcode) :
    ∃ e d, e.HasSum c.state.registers.a v (c.carryIn withCarry) (!withCarry) ∧
      Arithmetic.exec e .daa = some d ∧ Leads 2 c d := by
  let added := Arithmetic.accumulatedCore (addition withCarry) v (c.goTo (c.state.pc + length))
  have hsum : added.HasSum c.state.registers.a v (c.carryIn withCarry) !withCarry :=
    hasSum_accumulatedCore (c.goTo (c.state.pc + length)) withCarry v
  have hpc : added.state.pc = c.state.pc + length := rfl
  obtain ⟨d, hd, hleads⟩ := leads_daa (c := added) hpc hdaa
  exact ⟨added.goTo (c.state.pc + length + 1), d, ⟨hsum.sum, hsum.halfCarry, hsum.carry⟩, hd,
    h.leads.trans hleads⟩

end Core

/-! ## Two steps of a machine -/

/-- Under watchers that look on, an addition of two decimal bytes and the adjustment behind it are
    two steps. Without the carry they leave the decimal sum. With it they leave the decimal sum
    exactly when the binary sum is a byte. -/
theorem Run.walks_decimal_sum {ε σ : Type} {notify : Event → Run ε σ Unit} {Calm : σ → Prop}
    (hnotify : Attending notify Calm) {m : Machine} {t : σ} {withCarry : Bool} {v : Byte}
    {length : Word} (ht : Calm t) (hadd : m.core.Adds withCarry v length)
    (hdaa : m.core.read? (m.state.pc + length) = some Core.daaOpcode)
    (ha : IsDecimal m.state.registers.a) (hv : IsDecimal v) :
    ∃ xs n u, Calm u ∧ Walks notify (m, t) 2 xs (n, u) ∧
      (withCarry = false →
        n.state.ShowsDecimal (decimal m.state.registers.a + decimal v)) ∧
      (withCarry = true →
        (n.state.ShowsDecimal (decimal m.state.registers.a + decimal v + m.state.flags.c.toNat) ↔
          m.state.registers.a.toNat + v.toNat + m.state.flags.c.toNat ≤ 0xFF)) := by
  obtain ⟨e, d, hsum, hd, hleads⟩ := hadd.leads_adjusted hdaa
  obtain ⟨xs, n, u, hu, hn, hwalks⟩ := walks_of_leads hnotify ht hleads
  have hstate : n.state = d.state := congrArg Core.state hn
  refine ⟨xs, n, u, hu, hwalks, ?_, ?_⟩
  · rintro rfl
    rw [hstate]
    exact hsum.showsDecimal ha hv (Nat.zero_le 1) (.inl rfl) hd
  · rintro rfl
    have hk : m.state.flags.c.toNat ≤ 1 := Bool.toNat_le _
    rw [hstate]
    constructor
    · intro hshows
      by_contra hpast
      exact hsum.not_showsDecimal ha hv hk (Nat.not_le.1 hpast) hd hshows
    · intro hfits
      exact hsum.showsDecimal ha hv hk (.inr hfits) hd

/-- ADD B with 58 and 67, and DAA. -/
def Machine.addingDecimals : Machine where
  state := { registers := { a := 0x58, b := 0x67 } }
  memory := ⟨#[0x80, 0x27]⟩

/-- ACI with 99, 99 and a carry, and DAA. -/
def Machine.losingHundred : Machine where
  state := { registers := { a := 0x99 }, flags := { c := true } }
  memory := ⟨#[0xCE, 0x99, 0x27]⟩

theorem Run.attending_unwatched {ε σ : Type} :
    Attending (ε := ε) (σ := σ) Machine.unwatched fun _ => True :=
  fun _ _ t _ => ⟨t, trivial, rfl⟩

/-- 58 and 67 are 125; 99, 99 and a carry are not found to be 199. -/
theorem Run.walks_decimal_sum_losing :
    (∃ xs n u, Walks (ε := Empty) Machine.unwatched (Machine.addingDecimals, ()) 2 xs (n, u) ∧
        n.state.ShowsDecimal 125) ∧
      ∃ xs n u, Walks (ε := Empty) Machine.unwatched (Machine.losingHundred, ()) 2 xs (n, u) ∧
        ¬n.state.ShowsDecimal 199 := by
  have hadd : Machine.addingDecimals.core.Adds false 0x67 1 := .source 0 rfl rfl
  have haci : Machine.losingHundred.core.Adds true 0x99 2 := .immediate rfl rfl
  have hkept := walks_decimal_sum (ε := Empty) attending_unwatched (t := ()) trivial hadd rfl
    ⟨by decide, by decide⟩ ⟨by decide, by decide⟩
  have hlost := walks_decimal_sum (ε := Empty) attending_unwatched (t := ()) trivial haci rfl
    ⟨by decide, by decide⟩ ⟨by decide, by decide⟩
  obtain ⟨xs, n, u, -, hwalks, hshows, -⟩ := hkept
  obtain ⟨ys, l, w, -, hwalks', -, hiff⟩ := hlost
  refine ⟨⟨xs, n, u, hwalks, hshows rfl⟩, ys, l, w, hwalks', fun hshows' => ?_⟩
  have hfits : 0x99 + 0x99 + 1 ≤ 0xFF := (hiff rfl).1 hshows'
  exact absurd hfits (by decide)

end Lab8085
