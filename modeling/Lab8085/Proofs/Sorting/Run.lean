/-
  Lab8085.Proofs.Sorting.Run

  The sorting program in a session: assembled, loaded and run.

  The bytes to be sorted may be placed before the program is loaded or after; the machine is the
  same.  From there the code is followed on registers and memory (`Sorting.brings_sorted`), and
  watchers that look on change nothing about that.  The number of steps is bounded, so that the
  run ends.
-/
import Lab8085.Proofs.Sorting.Loops

namespace Lab8085

namespace Sorting

/-- The most steps that the program needs for `n` bytes. -/
def stepBound (n : Nat) : Nat :=
  1 + (n - 1) * (12 * (n - 1) + 4)

theorem stepBound_le_patience {n : Nat} (h : n ≤ 256) : stepBound n ≤ Monitor.patience := by
  have hmul : (n - 1) * (12 * (n - 1) + 4) ≤ 255 * (12 * 255 + 4) :=
    Nat.mul_le_mul (by omega) (by omega)
  rw [stepBound, Monitor.patience]
  omega

/-- The code is in place after it has been loaded. -/
theorem ready_overlay {base : Memory} (hsize : base.size = maxMemory) (outer inner : Byte) :
    Ready outer inner (base.overlay 0 (sortCode outer inner)) := by
  refine ⟨(Memory.size_overlay _ _ _).trans hsize, fun a ha => ?_⟩
  have hfits : 0 + (sortCode outer inner).length ≤ base.size := by
    rw [hsize]
    exact (by decide : 0 + 30 ≤ maxMemory)
  rw [Memory.get?_overlay hfits, if_neg (Nat.not_lt_zero a), Nat.sub_zero,
    List.getElem?_eq_getElem ha]
  rfl

/-- A run from the loaded program on. -/
theorem walks_sorted {ε σ : Type} {notify : Event → Run ε σ Unit} {Calm : σ → Prop}
    (hnotify : Run.Attending notify Calm) {m : Machine} {t : σ} (ht : Calm t) {base : Memory}
    {data : List Byte} (hmin : 2 ≤ data.length) (hmax : data.length ≤ 256)
    (hbase : Ready (BitVec.ofNat 8 (data.length - 1)) (BitVec.ofNat 8 (data.length - 1)) base)
    (hpc : m.state.pc = 0) (hmemory : m.memory = base.overlay dataAddress data) :
    ∃ k xs n u, k ≤ stepBound data.length ∧ Calm u ∧
      Between base 0x1D 0 (pass^[data.length - 1] data) n.core ∧
      Run.Walks notify (m, t) k xs (n, u) := by
  have hfits : dataAddress + data.length ≤ maxMemory := by
    rw [dataAddress, maxMemory]
    omega
  have hm : Between base 0x00 m.state.registers.b data m.core := ⟨hpc, rfl, hmemory, hfits⟩
  obtain ⟨k, hk, c, hleads, hc⟩ := brings_sorted hmin hmax hbase rfl m.core hm
  obtain ⟨xs, n, u, hu, rfl, hwalks⟩ := Run.walks_of_leads hnotify ht hleads
  exact ⟨k, xs, n, u, hk, hu, hc, hwalks⟩

end Sorting

namespace Monitor

open Sorting

variable {notify : Event → Act Unit} {Calm : Desk → Prop}

/-- **The sorting program sorts** any bytes from 3000h on, of which there are from 2 to 256, on a
    machine with all of memory that starts at address 0, and under watchers that look on. -/
theorem sortSource_sorts (hnotify : Run.Attending notify Calm) {m : Machine} {t : Desk}
    (ht : Calm t) (hsize : m.size = maxMemory) (hpc : m.state.pc = 0) (data : List Byte)
    (hmin : 2 ≤ data.length) (hmax : data.length ≤ 256) :
    -- there is a numeral for the counters, and any will do
    (∃ counter, Numeral counter (data.length - 1)) ∧
    ∀ outer inner, Numeral outer (data.length - 1) → Numeral inner (data.length - 1) →
      let load := perform notify (.loadSource (sortSource outer inner) (.int 0))
      let place := perform notify (.place (.int 0x3000) (data.map fun b => .int b.toNat))
      ∃ x n,
        -- the bytes are placed before or after the source is loaded
        (place *> load) (m, t) = .ok (.assembly x) (n, t) ∧
        (load <* place) (m, t) = .ok (.assembly x) (n, t) ∧
        ∃ k u sorted, Calm u ∧
          -- the run ends at the halt
          (∀ fuel, stepBound data.length ≤ fuel →
            Run.toEnd notify fuel (n, t) = .ok true (k, u)) ∧
          perform notify .run (n, t) = .ok .done (k, u) ∧
          k.state.pc = 0x1D ∧ k.memory.get? 0x1D = some haltOpcode ∧ k.state.registers.b = 0 ∧
          -- the bytes are in order, and the rest of memory is as it was
          sorted.Perm data ∧ sorted.Pairwise (· ≤ ·) ∧
          k.bytesAt 0x3000 data.length = .ok sorted ∧
          ∀ a, a < 0x3000 ∨ 0x3000 + data.length ≤ a → k.memory.get? a = n.memory.get? a := by
  refine ⟨exists_numeral (by omega), fun outer inner houter hinner => ?_⟩
  let counter : Byte := BitVec.ofNat 8 (data.length - 1)
  let code := sortCode counter counter
  let base := m.memory.overlay 0 code
  let n : Machine := { m with memory := base.overlay dataAddress data }
  have hsource : Assembly.compile (sortSource outer inner) (0 : Nat) =
      .ok (sortAssembly counter counter) := compile_sortSource houter hinner
  have hbase : Ready counter counter base := ready_overlay hsize counter counter
  have hdata : dataAddress + data.length ≤ maxMemory := by
    rw [dataAddress, maxMemory]
    omega
  obtain ⟨hplaceLoad, hloadPlace⟩ := perform_load_place notify m t hsource
    (by decide : 0 + 30 ≤ 0x3000) (hdata.trans_eq hsize.symm)
  obtain ⟨k, xs, p, u, hk, hu, hp, hwalks⟩ :=
    walks_sorted hnotify (m := n) ht hmin hmax hbase hpc rfl
  have hhalt : p.memory.get? 0x1D = some haltOpcode := hp.fetch hbase (a := 0x1D) rfl
  have hend : p.AtEnd := by
    have hpc' : p.state.pc = 0x1D := hp.pc
    refine .inr ?_
    rw [Machine.AtHalt, hpc']
    exact hhalt
  have hrun : ∀ fuel, stepBound data.length ≤ fuel →
      Run.toEnd notify fuel (n, t) = .ok true (p, u) :=
    fun fuel hfuel => Run.toEnd_of_walks_end hwalks hend (Nat.le_trans hk hfuel)
  have hperm := passes_perm (data.length - 1) data
  have hsorted : dataAddress + (pass^[data.length - 1] data).length ≤ base.size := by
    rw [hperm.length_eq, hbase.size]
    exact hdata
  refine ⟨sortAssembly counter counter, n, hplaceLoad, hloadPlace, p, u,
    pass^[data.length - 1] data, hu, hrun, ?_, hp.pc, hhalt, hp.b, hperm, sorted_passes data, ?_,
    fun a ha => ?_⟩
  · simp only [perform, Bind.bind, EStateM.bind, hrun patience (stepBound_le_patience hmax)]
    rfl
  · have hbytes := Machine.bytesAt_overlay hp.memory hsorted
    rw [hperm.length_eq] at hbytes
    exact hbytes
  · have hmemory : p.memory = base.overlay dataAddress (pass^[data.length - 1] data) := hp.memory
    have hn : n.memory = base.overlay dataAddress data := rfl
    rw [hmemory, hn, Memory.get?_overlay_outside hsorted (by rwa [hperm.length_eq]),
      Memory.get?_overlay_outside (hdata.trans_eq hbase.size.symm) ha]

end Monitor

namespace Monitor

open Sorting

/-- The source for ten bytes, its counters written in two ways. -/
def sourceOfTen : String :=
  "MVI B, 09\nSTART:\nLXI H, 3000H\nMVI C, 09H\nBACK:\nMOV A, M\nINX H\nCMP M\nJC SKIP\n" ++
  "JZ SKIP\nMOV D, M\nMOV M, A\nDCX H\nMOV M, D\nINX H\nSKIP:\nDCR C\nJNZ BACK\nDCR B\n" ++
  "JNZ START\nHLT\n"

/-- Ten bytes on both sides of 80h. -/
def tenBytes : List Byte :=
  [0x12, 0x01, 0x05, 0xAD, 0x03, 0x56, 0x1A, 0xD2, 0x00, 0x44]

/-- Ten bytes that are placed after the source has been loaded. -/
theorem sortSource_sorts_ten :
    let load := perform (notify nestingLimit) (.loadSource sourceOfTen (.int 0))
    let place := perform (notify nestingLimit)
      (.place (.int 0x3000) (tenBytes.map fun b => .int b.toNat))
    ∃ x n k u,
      (load <* place) (Machine.ofSize maxMemory, attended) = .ok (.assembly x) (n, attended) ∧
      perform (notify nestingLimit) .run (n, attended) = .ok .done (k, u) ∧
      k.state.pc = 0x1D ∧ k.state.registers.b = 0 ∧ k.bytesAt 0x3000 10 =
        .ok [0x00, 0x01, 0x03, 0x05, 0x12, 0x1A, 0x44, 0x56, 0xAD, 0xD2] := by
  have hnotify : Run.Attending (notify nestingLimit) (Desk.Patient 0) := attending_notify 0 244
  have hsize : (Machine.ofSize maxMemory).size = maxMemory := Memory.size_zeroed maxMemory
  have hsource : sortSource "09" "09H" = sourceOfTen := by decide +kernel
  obtain ⟨-, hsorts⟩ := sortSource_sorts hnotify patient_attended hsize rfl tenBytes (by decide)
    (by decide)
  have houter : Numeral "09" 9 := ⟨Text.forall_mem_of_all (by decide), by decide +kernel⟩
  have hinner : Numeral "09H" 9 := ⟨Text.forall_mem_of_all (by decide), by decide +kernel⟩
  obtain ⟨x, n, -, hload, k, u, sorted, -, -, hrun, hpc, -, hb, hperm, hsorted, hbytes, -⟩ :=
    hsorts "09" "09H" houter hinner
  rw [hsource] at hload
  -- there is only one way to put them in order
  have hten : sorted = [0x00, 0x01, 0x03, 0x05, 0x12, 0x1A, 0x44, 0x56, 0xAD, 0xD2] := by
    refine List.Perm.eq_of_pairwise (fun a b _ _ h h' => BitVec.le_antisymm h h') hsorted
      (by decide) (hperm.trans ?_)
    decide
  exact ⟨x, n, k, u, hload, hrun, hpc, hb, hten ▸ hbytes⟩

end Monitor

end Lab8085
