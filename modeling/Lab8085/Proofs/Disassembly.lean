/-
  Lab8085.Proofs.Disassembly

  The bytes behind a row of a disassembly.

  The disassembler is given a memory as a function from addresses to bytes.  An instruction
  that it finds is an opcode of the catalog with the bytes from there on, all of them
  present; what a range holds can be told byte by byte.
-/
import Lab8085.Disassembly

namespace Lab8085

namespace Disassembly

variable {peek peek' : Int → Option Byte} {address : Int}

/-! ## Bytes of a range -/

theorem peekBytes_succ (peek : Int → Option Byte) (address : Int) (n : Nat) :
    peekBytes peek address (n + 1) =
      (peek address).bind fun b => (peekBytes peek (address + 1) n).map (b :: ·) := by
  rw [peekBytes]
  cases peek address with
  | none => rfl
  | some b => cases peekBytes peek (address + 1) n <;> rfl

/-- The bytes of a range depend on that range alone. -/
theorem peekBytes_congr {n : Nat}
    (h : ∀ x, address ≤ x → x < address + n → peek x = peek' x) :
    peekBytes peek address n = peekBytes peek' address n := by
  induction n generalizing address with
  | zero => rfl
  | succ n ih =>
      rw [peekBytes_succ, peekBytes_succ, h address (by omega) (by omega),
        ih fun x hlow hhigh => h x (by omega) (by omega)]

/-- A range is missing with any of its bytes. -/
theorem peekBytes_none {n : Nat} {x : Int} (hlow : address ≤ x) (hhigh : x < address + n)
    (h : peek x = none) : peekBytes peek address n = none := by
  induction n generalizing address with
  | zero => omega
  | succ n ih =>
      rw [peekBytes_succ]
      by_cases hx : x = address
      · rw [← hx, h, Option.bind_none]
      · rw [ih (by omega) (by omega)]
        exact Option.bind_fun_none _

/-- The bytes of a range, one by one. -/
theorem get_of_peekBytes {n : Nat} {bs : List Byte} (h : peekBytes peek address n = some bs) :
    bs.length = n ∧ ∀ i (hi : i < bs.length), peek (address + i) = some bs[i] := by
  induction n generalizing address bs with
  | zero =>
      cases h
      exact ⟨rfl, fun i hi => absurd hi (Nat.not_lt_zero i)⟩
  | succ n ih =>
      rw [peekBytes_succ] at h
      simp only [Option.bind_eq_some_iff, Option.map_eq_some_iff] at h
      obtain ⟨b, hb, cs, hcs, rfl⟩ := h
      obtain ⟨hlength, hget⟩ := ih hcs
      refine ⟨congrArg (· + 1) hlength, fun i hi => ?_⟩
      cases i with
      | zero =>
          rw [Int.natCast_zero, Int.add_zero, hb]
          rfl
      | succ i =>
          have hnext : address + (i + 1 : Nat) = address + 1 + i := by omega
          rw [hnext, hget i (by simpa using hi)]
          rfl

/-! ## Rows -/

theorem contentAt_none (h : peek address = none) : contentAt peek address = .missing := by
  rw [contentAt, h]

theorem contentAt_data {b : Byte} (h : peek address = some b)
    (hb : Catalog.standard.opcode? b.toNat = none) : contentAt peek address = .data b := by
  simp only [contentAt, h, hb]

/-- At an opcode there is an instruction, unless one of its bytes is missing. -/
theorem contentAt_opcode {b : Byte} {e : Entry} (h : peek address = some b)
    (he : Catalog.standard.opcode? b.toNat = some e) :
    contentAt peek address =
      (peekBytes peek (address + 1) e.descriptor.kind.extraBytes).elim .missing fun bs =>
        .instruction (b :: bs) (Operation.ofBytes e bs) := by
  simp only [contentAt, h, he]
  cases peekBytes peek (address + 1) e.descriptor.kind.extraBytes <;> rfl

/-- An instruction that is found at an address: its opcode is in the catalog, and as many bytes
    follow as the opcode asks for. -/
theorem contentAt_instruction {bs : List Byte} {o : Operation}
    (h : contentAt peek address = .instruction bs o) :
    ∃ b e operands, bs = b :: operands ∧ Catalog.standard.opcode? b.toNat = some e ∧
      o = Operation.ofBytes e operands ∧ operands.length = e.descriptor.kind.extraBytes ∧
      peekBytes peek address (operands.length + 1) = some bs := by
  cases hb : peek address with
  | none =>
      rw [contentAt_none hb] at h
      cases h
  | some b =>
      cases he : Catalog.standard.opcode? b.toNat with
      | none =>
          rw [contentAt_data hb he] at h
          cases h
      | some e =>
          rw [contentAt_opcode hb he] at h
          cases hbytes : peekBytes peek (address + 1) e.descriptor.kind.extraBytes with
          | none =>
              rw [hbytes] at h
              cases h
          | some operands =>
              rw [hbytes] at h
              cases h
              obtain ⟨hlength, -⟩ := get_of_peekBytes hbytes
              refine ⟨b, e, operands, rfl, he, rfl, hlength, ?_⟩
              rw [peekBytes_succ, hb, hlength, hbytes]
              rfl

/-- An instruction has as many bytes as its opcode asks for. -/
theorem length_of_contentAt {bs : List Byte} {o : Operation}
    (h : contentAt peek address = .instruction bs o) : bs.length = o.length := by
  obtain ⟨b, e, operands, rfl, -, rfl, hlength, -⟩ := contentAt_instruction h
  rw [List.length_cons, hlength, Nat.add_comm]
  rfl

/-- A disassembly of one address is the row there. -/
theorem rows_one (h : address < 0x10000) : rows peek address 1 = [rowAt peek address] := by
  have hstop : min (address + 1) 0x10000 = address + 1 := by omega
  have hfuel : (address + 1 - address).toNat = 1 := by omega
  simp only [rows, hstop, hfuel, rowsFrom, if_pos (Int.lt_succ address)]

end Disassembly

end Lab8085
