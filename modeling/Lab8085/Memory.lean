/-
  Lab8085.Memory

  Memory chips: a fixed number of byte cells, all zero at first. Cells are named by
  offsets from the chip's first cell.
-/
import Lab8085.Word

namespace Lab8085

/-- The cells of a chip. -/
structure Memory where
  cells : Array Byte
  deriving DecidableEq, Inhabited

namespace Memory

/-- A chip with `n` cells that hold zero. -/
def zeroed (n : Nat) : Memory :=
  ⟨Array.replicate n 0⟩

def size (m : Memory) : Nat :=
  m.cells.size

/-- The byte at an offset, if there is such a cell. -/
def get? (m : Memory) (offset : Nat) : Option Byte :=
  m.cells[offset]?

/-- The chip with a byte put into a cell; a chip without that cell stays as it is. -/
def put (m : Memory) (offset : Nat) (b : Byte) : Memory :=
  ⟨m.cells.setIfInBounds offset b⟩

/-- Whether a number is the offset of a cell. -/
def has (m : Memory) (offset : Int) : Bool :=
  0 ≤ offset && offset < m.size

/-- The runs of cells that do not hold zero: offset of the first and the bytes. -/
def nonzeroRuns (m : Memory) : List (Nat × List Byte) :=
  let (_, runs) := m.cells.foldr
    (fun b (above, runs) =>
      let k := above - 1
      if b = 0 then (k, runs)
      else match runs with
        | (first, bs) :: rest => if first = above then (k, (k, b :: bs) :: rest)
            else (k, (k, [b]) :: runs)
        | [] => (k, [(k, [b])]))
    (m.size, [])
  runs

/-! ## Small laws -/

@[simp] theorem size_zeroed (n : Nat) : (zeroed n).size = n := by
  simp [zeroed, size]

@[simp] theorem size_put (m : Memory) (k : Nat) (b : Byte) : (m.put k b).size = m.size := by
  simp [put, size]

theorem get?_put (m : Memory) (k j : Nat) (b : Byte) :
    (m.put k b).get? j = if j = k ∧ k < m.size then some b else m.get? j := by
  simp only [put, get?, size, Array.getElem?_setIfInBounds]
  by_cases h : k = j
  · subst h
    by_cases hk : k < m.cells.size
    · simp [hk]
    · simp [hk]
  · have : j ≠ k := fun e => h e.symm
    simp [h, this]

theorem get?_isSome {m : Memory} {k : Nat} : (m.get? k).isSome ↔ k < m.size := by
  simp [get?, size]

end Memory

end Lab8085
