/-
  Lab8085.Proofs.Sorting.Passes

  Bubble sort of a list of bytes.

  A pass carries the greatest byte that it has met to the end.  So after `j` passes the last
  `j` bytes are in order and none before them is greater (`Settled`): a pass brings the greatest
  of the others to them and leaves them alone.  One pass fewer than there are bytes is enough.
-/
import Lab8085.Word
import Mathlib.Logic.Function.Iterate

namespace Lab8085.Sorting

/-- What a pass makes of the byte that it carries and those behind it: of two neighbours the lesser
    stays and the greater is carried on. -/
def carry (x : Byte) : List Byte → List Byte
  | [] => [x]
  | y :: ys => if y < x then y :: carry x ys else x :: carry y ys

/-- One pass over a list. -/
def pass : List Byte → List Byte
  | [] => []
  | x :: xs => carry x xs

theorem carry_cons (x y : Byte) (ys : List Byte) : carry x (y :: ys) =
    (if y < x then y else x) :: carry (if y < x then x else y) ys := by
  rw [carry]
  split <;> rfl

/-! ## Permutations -/

theorem carry_perm (x : Byte) (ys : List Byte) : (carry x ys).Perm (x :: ys) := by
  induction ys generalizing x with
  | nil => exact .refl _
  | cons y ys ih =>
      rw [carry]
      split
      · exact ((ih x).cons y).trans (.swap x y ys)
      · exact (ih y).cons x

theorem pass_perm (l : List Byte) : (pass l).Perm l := by
  cases l with
  | nil => exact .refl _
  | cons x xs => exact carry_perm x xs

theorem passes_perm (k : Nat) (l : List Byte) : (pass^[k] l).Perm l := by
  induction k generalizing l with
  | zero => exact .refl _
  | succ k ih =>
      rw [Function.iterate_succ_apply]
      exact (ih (pass l)).trans (pass_perm l)

/-! ## The end of a pass -/

/-- What is carried to the end is as great as all before it. -/
theorem carry_last (x : Byte) (ys : List Byte) :
    ∃ as m, carry x ys = as ++ [m] ∧ x ≤ m ∧ ∀ a ∈ as, a ≤ m := by
  induction ys generalizing x with
  | nil => exact ⟨[], x, rfl, BitVec.le_refl x, fun a ha => absurd ha List.not_mem_nil⟩
  | cons y ys ih =>
      rw [carry]
      split
      · next hlt =>
          obtain ⟨as, m, hm, hx, has⟩ := ih x
          refine ⟨y :: as, m, by rw [hm, List.cons_append], hx, fun a ha => ?_⟩
          rcases List.mem_cons.1 ha with rfl | ha
          · exact BitVec.le_trans (BitVec.le_of_lt hlt) hx
          · exact has a ha
      · next hle =>
          obtain ⟨as, m, hm, hy, has⟩ := ih y
          have hxm : x ≤ m := BitVec.le_trans (BitVec.not_lt.1 hle) hy
          refine ⟨x :: as, m, by rw [hm, List.cons_append], hxm, fun a ha => ?_⟩
          rcases List.mem_cons.1 ha with rfl | ha
          · exact hxm
          · exact has a ha

/-- Bytes in order stay as they are. -/
theorem carry_of_sorted {x : Byte} {zs : List Byte} (h : (x :: zs).Pairwise (· ≤ ·)) :
    carry x zs = x :: zs := by
  induction zs generalizing x with
  | nil => rfl
  | cons z zs ih =>
      obtain ⟨hx, hrest⟩ := List.pairwise_cons.1 h
      have hle : ¬z < x := BitVec.not_lt.2 (hx z List.mem_cons_self)
      rw [carry, if_neg hle, ih hrest]

/-- Bytes in order at the end stay as they are, if none before them is greater. -/
theorem carry_append {x : Byte} {ys zs : List Byte} (hzs : zs.Pairwise (· ≤ ·))
    (hle : ∀ a ∈ x :: ys, ∀ z ∈ zs, a ≤ z) : carry x (ys ++ zs) = carry x ys ++ zs := by
  induction ys generalizing x with
  | nil => exact carry_of_sorted (List.pairwise_cons.2 ⟨hle x List.mem_cons_self, hzs⟩)
  | cons y ys ih =>
      have hx := hle x List.mem_cons_self
      have hrest : ∀ a ∈ y :: ys, ∀ z ∈ zs, a ≤ z := fun a ha => hle a (List.mem_cons_of_mem x ha)
      rw [List.cons_append, carry, carry]
      split
      · have hcarried : ∀ a ∈ x :: ys, ∀ z ∈ zs, a ≤ z := by
          intro a ha
          rcases List.mem_cons.1 ha with rfl | ha
          · exact hx
          · exact hrest a (List.mem_cons_of_mem y ha)
        rw [ih hcarried, List.cons_append]
      · rw [ih hrest, List.cons_append]

/-! ## Passes -/

/-- The last `j` bytes are in order, and none before them is greater. -/
def Settled (j : Nat) (l : List Byte) : Prop :=
  ∃ as zs, l = as ++ zs ∧ zs.length = j ∧ zs.Pairwise (· ≤ ·) ∧ ∀ a ∈ as, ∀ z ∈ zs, a ≤ z

theorem settled_zero (l : List Byte) : Settled 0 l :=
  ⟨l, [], (List.append_nil l).symm, rfl, .nil, fun _ _ _ hz => absurd hz List.not_mem_nil⟩

/-- A pass settles one more byte. -/
theorem Settled.pass {j : Nat} {l : List Byte} (h : Settled j l) (hj : j < l.length) :
    Settled (j + 1) (pass l) := by
  obtain ⟨as, zs, rfl, hlength, hzs, hle⟩ := h
  cases as with
  | nil =>
      rw [List.nil_append, hlength] at hj
      exact absurd hj (Nat.lt_irrefl j)
  | cons x ys =>
      obtain ⟨bs, m, hm, -, hbs⟩ := carry_last x ys
      -- the bytes before the settled ones are those of the pass over them
      have hmem : ∀ a ∈ bs ++ [m], ∀ z ∈ zs, a ≤ z := by
        intro a ha
        rw [← hm] at ha
        exact hle a ((carry_perm x ys).mem_iff.1 ha)
      have hlast := hmem m (List.mem_append_right bs (List.mem_singleton_self m))
      refine ⟨bs, m :: zs, ?_, by rw [List.length_cons, hlength],
        List.pairwise_cons.2 ⟨hlast, hzs⟩, fun a ha z hz => ?_⟩
      · show carry x (ys ++ zs) = _
        rw [carry_append hzs hle, hm, List.append_assoc, List.singleton_append]
      · rcases List.mem_cons.1 hz with rfl | hz
        · exact hbs a ha
        · exact hmem a (List.mem_append_left _ ha) z hz

theorem Settled.passes {j : Nat} {l : List Byte} (h : Settled j l) (k : Nat)
    (hk : j + k ≤ l.length) : Settled (j + k) (Sorting.pass^[k] l) := by
  induction k generalizing j l with
  | zero => exact h
  | succ k ih =>
      have hlength : (Sorting.pass l).length = l.length := (pass_perm l).length_eq
      have hsum : j + (k + 1) = j + 1 + k := by omega
      rw [hsum, Function.iterate_succ_apply]
      exact ih (h.pass (by omega)) (by omega)

/-- One pass fewer than there are bytes puts them in order. -/
theorem sorted_passes (l : List Byte) : (pass^[l.length - 1] l).Pairwise (· ≤ ·) := by
  cases hl : l with
  | nil => exact .nil
  | cons x xs =>
      rw [← hl]
      have hpos : 0 < l.length := by rw [hl]; exact Nat.succ_pos _
      obtain ⟨as, zs, happend, hlength, hzs, hle⟩ :=
        (settled_zero l).passes (l.length - 1) (by omega)
      -- one byte is left before the settled ones
      have hone : as.length ≤ 1 := by
        have htotal := (passes_perm (l.length - 1) l).length_eq
        rw [happend, List.length_append, hlength] at htotal
        omega
      rw [happend]
      match as, hone with
      | [], _ => exact hzs
      | [a], _ => exact List.pairwise_cons.2 ⟨hle a (List.mem_singleton_self a), hzs⟩

end Lab8085.Sorting
