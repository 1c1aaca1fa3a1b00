/-
  Lab8085.Proofs.Machine.WellFormed

  What stays true of a machine, whatever is done with it.

  Registers and memory cells are bytes and words by their types.  What has to be kept is the
  size of the memory and the range of the numbers in the log (`Machine.Fits`): an access
  has a byte for its data, a byte for a port, or the address of an installed cell.  A run
  that `Maintains` this does so also where it fails halfway, and may tell something of its
  result; such runs can be put together, so it is enough to look at each request once.
-/
import Lab8085.Proofs.Machine.Dependence

namespace Lab8085

/-! ## Logs and machines that fit -/

/-- The numbers of an access are in range for a memory with `n` bytes. -/
structure Access.Fits (n : Nat) (x : Access) : Prop where
  data : 0 ≤ x.data ∧ x.data ≤ 0xFF
  memory : x.isMemory = true → 0 ≤ x.address ∧ x.address < n
  port : x.isMemory = false → 0 ≤ x.address ∧ x.address ≤ 0xFF

/-- A memory access with data of a byte. -/
theorem Access.fits_memory {n a : Nat} {k : AccessKind} (b : Byte)
    (hk : (Access.mk k a b.toNat).isMemory = true) (h : a < n) :
    (Access.mk k a b.toNat).Fits n := by
  have hb : (b.toNat : Int) ≤ 0xFF := Int.ofNat_le.2 (Nat.le_of_lt_succ b.isLt)
  refine ⟨⟨Int.natCast_nonneg _, hb⟩, fun _ => ⟨Int.natCast_nonneg a, Int.ofNat_lt.2 h⟩,
    fun hp => ?_⟩
  rw [hk] at hp
  cases hp

/-- A port access with data of a byte. -/
theorem Access.fits_port {k : AccessKind} (n : Nat) (port b : Byte)
    (hk : (Access.mk k port.toNat b.toNat).isMemory = false) :
    (Access.mk k port.toNat b.toNat).Fits n := by
  have hbyte : ∀ v : Byte, (0 : Int) ≤ v.toNat ∧ (v.toNat : Int) ≤ 0xFF := fun v =>
    ⟨Int.natCast_nonneg _, Int.ofNat_le.2 (Nat.le_of_lt_succ v.isLt)⟩
  refine ⟨hbyte b, fun hm => ?_, fun _ => hbyte port⟩
  rw [hk] at hm
  cases hm

/-- The accesses of a snapshot are in range. -/
def Snapshot.Fits (n : Nat) (x : Snapshot) : Prop :=
  ∀ a ∈ x.accesses, a.Fits n

namespace Machine

/-- A machine with `n` bytes of memory and a log whose numbers are in range. -/
structure Fits (n : Nat) (m : Machine) : Prop where
  size : m.memory.size = n
  log : ∀ x ∈ m.log.toList, x.Fits n

/-- All numbers of a machine with `n` bytes of memory are in range. -/
structure WellFormed (n : Nat) (m : Machine) : Prop where
  registers : ∀ r, (m.state.registers.get r).toNat ≤ 0xFF
  mask : m.state.mask.toNat ≤ 0xFF
  pc : m.state.pc.toNat ≤ 0xFFFF
  sp : m.state.sp.toNat ≤ 0xFFFF
  installed : ∀ a : Int, 0 ≤ a → a < n → ∃ b, m.peek? a = some b ∧ b.toNat ≤ 0xFF
  absent : ∀ a : Int, ¬(0 ≤ a ∧ a < n) → m.peek? a = none
  log : ∀ x ∈ m.log.toList, x.Fits n

variable {n : Nat} {m : Machine}

theorem Fits.wellFormed (h : m.Fits n) : m.WellFormed n := by
  refine ⟨fun r => Nat.le_of_lt_succ (m.state.registers.get r).isLt,
    Nat.le_of_lt_succ m.state.mask.isLt, Nat.le_of_lt_succ m.state.pc.isLt,
    Nat.le_of_lt_succ m.state.sp.isLt, fun a hpos hend => ?_, fun a ha => ?_, h.log⟩
  · have hin : a.toNat < m.memory.size := by
      rw [h.size]
      omega
    obtain ⟨b, hb⟩ := Option.isSome_iff_exists.1 (Memory.get?_isSome.2 hin)
    refine ⟨b, ?_, Nat.le_of_lt_succ b.isLt⟩
    rw [peek?, if_pos hpos, hb]
  · rw [peek?]
    split
    · have hout : ¬a.toNat < m.memory.size := by
        rw [h.size]
        omega
      exact Option.not_isSome_iff_eq_none.1 (mt Memory.get?_isSome.1 hout)
    · rfl

theorem fits_ofSize (n : Nat) : (ofSize n).Fits n :=
  ⟨Memory.size_zeroed n, fun _ h => absurd h List.not_mem_nil⟩

/-- A machine fits where its memory is as large and its log the same. -/
theorem Fits.of_eq {m' : Machine} (h : m.Fits n) (hsize : m'.memory.size = m.memory.size)
    (hlog : m'.log = m.log) : m'.Fits n :=
  ⟨hsize.trans h.size, by rw [hlog]; exact h.log⟩

theorem Fits.record {k : AccessKind} {a d : Nat} (h : m.Fits n) (hx : (Access.mk k a d).Fits n) :
    (m.record k a d).Fits n := by
  refine ⟨h.size, fun x hmem => ?_⟩
  simp only [Machine.record, Array.toList_push, List.mem_append, List.mem_singleton] at hmem
  rcases hmem with hmem | rfl
  · exact h.log x hmem
  · exact hx

end Machine

/-! ## Runs that keep a machine in range -/

namespace Run

variable {ε σ α β : Type}

/-- A run keeps the machine in range and a property of the watchers, whether it returns or fails;
    what it returns is as told. -/
def Maintains (n : Nat) (J : σ → Prop) (r : Run ε σ α) (post : α → Prop) : Prop :=
  ∀ s, s.1.Fits n → J s.2 →
    ((rest (r s)).1.Fits n ∧ J (rest (r s)).2) ∧ ∀ x s', r s = .ok x s' → post x

variable {n : Nat} {J : σ → Prop} {p : α → Prop} {q : β → Prop}

theorem Maintains.pure {x : α} (h : p x) : Maintains n J (Pure.pure x : Run ε σ α) p := by
  intro s hm ht
  refine ⟨⟨hm, ht⟩, fun y s' hy => ?_⟩
  cases hy
  exact h

theorem Maintains.throw (e : Fault ε) : Maintains n J (MonadExcept.throw e : Run ε σ α) p :=
  fun _ hm ht => ⟨⟨hm, ht⟩, nofun⟩

theorem Maintains.bind {r : Run ε σ α} {f : α → Run ε σ β} (hr : Maintains n J r p)
    (hf : ∀ x, p x → Maintains n J (f x) q) : Maintains n J (r >>= f) q := by
  intro s hm ht
  obtain ⟨⟨hm', ht'⟩, hpost⟩ := hr s hm ht
  cases h : r s with
  | error e s' =>
      rw [bind_of_error h]
      rw [h] at hm' ht'
      exact ⟨⟨hm', ht'⟩, nofun⟩
  | ok x s' =>
      rw [bind_of_ok h]
      rw [h] at hm' ht'
      exact hf x (hpost x s' h) s' hm' ht'

theorem Maintains.ite {c : Prop} [Decidable c] {r r' : Run ε σ α} (hr : Maintains n J r p)
    (hr' : Maintains n J r' p) : Maintains n J (if c then r else r') p := by
  split
  · exact hr
  · exact hr'

theorem maintains_machine : Maintains n J (machine : Run ε σ Machine) fun m => m.Fits n := by
  intro s hm ht
  refine ⟨⟨hm, ht⟩, fun x s' h => ?_⟩
  cases h
  exact hm

theorem maintains_state : Maintains n J (state : Run ε σ State) fun _ => True :=
  fun _ hm ht => ⟨⟨hm, ht⟩, fun _ _ _ => trivial⟩

theorem maintains_watchers : Maintains n J (watchers : Run ε σ σ) J := by
  intro s hm ht
  refine ⟨⟨hm, ht⟩, fun x s' h => ?_⟩
  cases h
  exact ht

theorem maintains_modifyMachine {f : Machine → Machine} (hf : ∀ m, m.Fits n → (f m).Fits n) :
    Maintains n J (modifyMachine f : Run ε σ Unit) fun _ => True :=
  fun s hm ht => ⟨⟨hf s.1 hm, ht⟩, fun _ _ _ => trivial⟩

theorem maintains_modifyWatchers {f : σ → σ} (hf : ∀ t, J t → J (f t)) :
    Maintains n J (modifyWatchers f : Run ε σ Unit) fun _ => True :=
  fun s hm ht => ⟨⟨hm, hf s.2 ht⟩, fun _ _ _ => trivial⟩

theorem maintains_takeLog :
    Maintains n J (takeLog : Run ε σ (List Access)) fun xs => ∀ x ∈ xs, x.Fits n := by
  intro s hm ht
  refine ⟨⟨⟨hm.size, fun _ h => absurd h List.not_mem_nil⟩, ht⟩, fun xs s' h => ?_⟩
  cases h
  exact hm.log

theorem maintains_readMemory (a : Word) :
    Maintains n J (readMemory a : Run ε σ Byte) fun _ => True := by
  intro s hm ht
  refine ⟨?_, fun _ _ _ => trivial⟩
  rw [readMemory]
  cases h : s.1.memory.get? a.toNat with
  | none => exact ⟨hm, ht⟩
  | some b =>
      have hin := Memory.get?_isSome.1 (Option.isSome_of_eq_some h)
      rw [hm.size] at hin
      exact ⟨hm.record (Access.fits_memory b rfl hin), ht⟩

theorem maintains_writeMemory (a : Word) (v : Byte) :
    Maintains n J (writeMemory a v : Run ε σ Unit) fun _ => True := by
  intro s hm ht
  refine ⟨?_, fun _ _ _ => trivial⟩
  rw [writeMemory]
  split
  · rename_i hin
    rw [hm.size] at hin
    have hput : ({ s.1 with memory := s.1.memory.put a.toNat v } : Machine).Fits n :=
      hm.of_eq (Memory.size_put _ _ _) rfl
    exact ⟨hput.record (Access.fits_memory v rfl hin), ht⟩
  · exact ⟨hm, ht⟩

theorem maintains_readPort (port : Byte) :
    Maintains n J (readPort port : Run ε σ Byte) fun _ => True :=
  fun _ hm ht => ⟨⟨hm.record (Access.fits_port n port 0 rfl), ht⟩, fun _ _ _ => trivial⟩

theorem maintains_writePort (port v : Byte) :
    Maintains n J (writePort port v : Run ε σ Unit) fun _ => True :=
  fun _ hm ht => ⟨⟨hm.record (Access.fits_port n port v rfl), ht⟩, fun _ _ _ => trivial⟩

/-! ## Instructions and steps -/

/-- Whoever is told of events keeps the machine in range. -/
def Watched (n : Nat) (J : σ → Prop) (notify : Event → Run ε σ Unit) : Prop :=
  ∀ e, Maintains n J (notify e) fun _ => True

variable {notify : Event → Run ε σ Unit}

theorem maintains_assign (hw : Watched n J notify) (c : Change) :
    Maintains n J (assign notify c) fun _ => True := by
  intro s hm ht
  rw [assign]
  split
  · exact ⟨⟨hm, ht⟩, fun _ _ _ => trivial⟩
  · exact hw (.changed c) (s.1.change c, s.2) (hm.of_eq rfl rfl) ht

theorem maintains_request (hw : Watched n J notify) (r : Micro.Request) :
    Maintains n J (r.run notify) fun _ => True := by
  cases r with
  | state => exact maintains_state
  | assign c => exact maintains_assign hw c
  | read a => exact maintains_readMemory a
  | write a v => exact maintains_writeMemory a v
  | input port => exact maintains_readPort port
  | output port v => exact maintains_writePort port v
  | halted => exact hw .halted

/-- Every microprogram keeps the machine in range. -/
theorem maintains_micro (hw : Watched n J notify) (p : Micro α) :
    Maintains n J (p.run notify) fun _ => True := by
  induction p with
  | done x => exact .pure trivial
  | ask r next ih => exact (maintains_request hw r).bind fun x _ => ih x

theorem maintains_clearLog : Maintains n J (clearLog : Run ε σ Unit) fun _ => True :=
  maintains_modifyMachine fun _ hm => ⟨hm.size, fun _ h => absurd h List.not_mem_nil⟩

theorem maintains_snapshot (start : Word) (o : Operation) :
    Maintains n J (snapshot start o : Run ε σ Snapshot) fun x => x.Fits n := by
  refine maintains_takeLog.bind fun xs hxs => ?_
  refine (maintains_modifyMachine (f := fun m => { m with steps := m.steps + 1 })
    fun _ hm => hm.of_eq rfl rfl).bind fun _ _ => ?_
  exact maintains_machine.bind fun _ _ => .pure hxs

/-- A step keeps the machine in range, and its snapshot is. -/
theorem maintains_step (hw : Watched n J notify) :
    Maintains n J (step notify) fun x => x.Fits n := by
  refine maintains_clearLog.bind fun _ _ => maintains_state.bind fun s _ =>
    (maintains_micro hw _).bind fun b _ => ?_
  cases Catalog.standard.opcode? b.toNat with
  | none => exact maintains_state.bind fun _ _ => .throw _
  | some e =>
      exact (maintains_micro hw _).bind fun _ _ => (maintains_micro hw _).bind fun _ _ =>
        maintains_snapshot _ _

theorem maintains_atEnd : Maintains n J (atEnd : Run ε σ Bool) fun _ => True :=
  fun _ hm ht => ⟨⟨hm, ht⟩, fun _ _ _ => trivial⟩

/-- A run of steps keeps the machine in range, however long it is. -/
theorem maintains_toEnd (hw : Watched n J notify) (fuel : Nat) :
    Maintains n J (toEnd notify fuel) fun _ => True := by
  induction fuel with
  | zero => exact maintains_atEnd
  | succ fuel ih =>
      refine maintains_atEnd.bind fun b _ => ?_
      cases b with
      | true => exact .pure trivial
      | false => exact (maintains_step hw).bind fun _ _ => ih

/-- The accesses of attempts to make a step are in range, whether they return or fail. -/
theorem attempts_fit (hw : Watched n J notify) (k : Nat) {s : Machine × σ} (hm : s.1.Fits n)
    (ht : J s.2) : ∀ a ∈ attempts notify k s, ∀ x ∈ a.accesses, x.Fits n := by
  induction k generalizing s with
  | zero => exact fun a h => absurd h List.not_mem_nil
  | succ k ih =>
      obtain ⟨⟨hm', ht'⟩, hpost⟩ := maintains_step hw s hm ht
      intro a ha
      rcases List.mem_cons.1 ha with rfl | ha
      · cases h : step notify s with
        | ok x s' => exact hpost x s' h
        | error f s' =>
            rw [h] at hm'
            exact hm'.log
      · exact ih hm' ht' a ha

end Run

end Lab8085
