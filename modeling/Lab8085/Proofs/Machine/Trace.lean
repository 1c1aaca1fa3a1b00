/-
  Lab8085.Proofs.Machine.Trace

  The log of a step is a sound and complete trace of the memory.

  A run is `Traced` when what it adds to the log replays what it does to the memory and
  all reads in it tell the truth.  Every request to the machine is traced, so by
  induction every microprogram is, and with them every step, whether it returns or
  fails halfway.  Watchers take part: they may be anything that is traced itself, which
  is to say that they go to the memory over the bus or not at all.
-/
import Lab8085.Machine.Trial
import Lab8085.Monitor.Session
import Lab8085.Proofs.Machine.Quiet

namespace Lab8085

/-! ## Replaying a log -/

/-- What an access does to a memory: a write puts its byte in, others leave it as it is. -/
def Memory.access (m : Memory) (x : Access) : Memory :=
  match x.kind with
  | .write => m.put x.address.toNat (BitVec.ofInt 8 x.data)
  | _ => m

namespace Memory

/-- A memory after some accesses, first to last. -/
def replay (m : Memory) (xs : List Access) : Memory :=
  xs.foldl access m

/-- A read that tells what the memory holds at its address. -/
def Shows (m : Memory) (x : Access) : Prop :=
  ∃ (a : Nat) (b : Byte), x = ⟨.read, a, b.toNat⟩ ∧ m.get? a = some b

/-- Every read of a list tells what the memory holds when its turn has come. -/
def Truthful : Memory → List Access → Prop
  | _, [] => True
  | m, x :: xs => (x.kind = .read → m.Shows x) ∧ (m.access x).Truthful xs

@[simp] theorem replay_append (m : Memory) (xs ys : List Access) :
    m.replay (xs ++ ys) = (m.replay xs).replay ys :=
  List.foldl_append

theorem truthful_append {m : Memory} {xs ys : List Access} (hx : m.Truthful xs)
    (hy : (m.replay xs).Truthful ys) : m.Truthful (xs ++ ys) := by
  induction xs generalizing m with
  | nil => exact hy
  | cons x xs ih =>
      obtain ⟨hshow, hxs⟩ := hx
      exact ⟨hshow, ih hxs hy⟩

/-- Accesses that lead from one memory to another and tell the truth on the way. -/
structure Traces (m : Memory) (xs : List Access) (n : Memory) : Prop where
  replayed : m.replay xs = n
  truthful : m.Truthful xs

theorem Traces.nil (m : Memory) : m.Traces [] m :=
  ⟨rfl, trivial⟩

theorem Traces.append {m n k : Memory} {xs ys : List Access} (hx : m.Traces xs n)
    (hy : n.Traces ys k) : m.Traces (xs ++ ys) k := by
  obtain ⟨rfl, hxs⟩ := hx
  obtain ⟨rfl, hys⟩ := hy
  exact ⟨replay_append m xs ys, truthful_append hxs hys⟩

theorem traces_read {m : Memory} {a : Nat} {b : Byte} (h : m.get? a = some b) :
    m.Traces [⟨.read, a, b.toNat⟩] m :=
  ⟨rfl, fun _ => ⟨a, b, rfl, h⟩, trivial⟩

theorem traces_write (m : Memory) (a : Nat) (b : Byte) :
    m.Traces [⟨.write, a, b.toNat⟩] (m.put a b) := by
  refine ⟨?_, nofun, trivial⟩
  change m.put (a : Int).toNat (BitVec.ofInt 8 (b.toNat : Int)) = m.put a b
  rw [Int.toNat_natCast, BitVec.ofInt_natCast, BitVec.ofNat_toNat, BitVec.setWidth_eq]

/-- Accesses to ports leave the memory alone. -/
theorem traces_port (m : Memory) {x : Access} (hr : x.kind ≠ .read) (hw : x.kind ≠ .write) :
    m.Traces [x] m := by
  refine ⟨?_, fun h => absurd h hr, trivial⟩
  change m.access x = m
  rw [access]
  split
  · exact absurd (by assumption) hw
  · rfl

end Memory

/-! ## Traced runs -/

namespace Run

variable {ε σ α β : Type}

/-- The machine that a run leaves behind, whether it returns or fails. -/
def left : EStateM.Result (Fault ε) (Machine × σ) α → Machine
  | .ok _ s => s.1
  | .error _ s => s.1

/-- What a run adds to the log traces what it does to the memory. -/
def Traced (r : Run ε σ α) : Prop :=
  ∀ s, ∃ xs, (left (r s)).log.toList = s.1.log.toList ++ xs ∧
    s.1.memory.Traces xs (left (r s)).memory

/-- A run that touches neither the log nor the memory. -/
theorem Traced.of_same {r : Run ε σ α}
    (h : ∀ s, (left (r s)).log = s.1.log ∧ (left (r s)).memory = s.1.memory) : Traced r := by
  intro s
  obtain ⟨hlog, hmem⟩ := h s
  refine ⟨[], ?_, ?_⟩
  · rw [hlog, List.append_nil]
  · rw [hmem]
    exact .nil _

theorem Traced.pure (x : α) : Traced (Pure.pure x : Run ε σ α) :=
  .of_same fun _ => ⟨rfl, rfl⟩

theorem Traced.throw (e : Fault ε) : Traced (MonadExcept.throw e : Run ε σ α) :=
  .of_same fun _ => ⟨rfl, rfl⟩

theorem Traced.bind {r : Run ε σ α} {f : α → Run ε σ β} (hr : Traced r)
    (hf : ∀ x, Traced (f x)) : Traced (r >>= f) := by
  intro s
  obtain ⟨xs, hlog, hmem⟩ := hr s
  simp only [Bind.bind, EStateM.bind]
  cases h : r s with
  | error e s' =>
      rw [h] at hlog hmem
      exact ⟨xs, hlog, hmem⟩
  | ok x s' =>
      -- the second run begins with the log and the memory that the first one left
      rw [h] at hlog hmem
      obtain ⟨ys, hlog', hmem'⟩ := hf x s'
      refine ⟨xs ++ ys, ?_, hmem.append hmem'⟩
      rw [hlog', ← List.append_assoc]
      exact congrArg (· ++ ys) hlog

theorem traced_state : Traced (state : Run ε σ State) :=
  .of_same fun _ => ⟨rfl, rfl⟩

theorem traced_readMemory (a : Word) : Traced (readMemory a : Run ε σ Byte) := by
  intro s
  rw [readMemory]
  cases h : s.1.memory.get? a.toNat with
  | none => exact ⟨[], by simp [left], .nil _⟩
  | some b => exact ⟨_, by simp [left, Machine.record], Memory.traces_read h⟩

theorem traced_writeMemory (a : Word) (v : Byte) : Traced (writeMemory a v : Run ε σ Unit) := by
  intro s
  rw [writeMemory]
  split
  · exact ⟨_, by simp [left, Machine.record], Memory.traces_write _ _ _⟩
  · exact ⟨[], by simp [left], .nil _⟩

theorem traced_readPort (port : Byte) : Traced (readPort port : Run ε σ Byte) :=
  fun _ => ⟨[⟨.portIn, port.toNat, 0⟩], by simp [left, readPort, Machine.record],
    Memory.traces_port _ nofun nofun⟩

theorem traced_writePort (port v : Byte) : Traced (writePort port v : Run ε σ Unit) :=
  fun _ => ⟨[⟨.portOut, port.toNat, v.toNat⟩], by simp [left, writePort, Machine.record],
    Memory.traces_port _ nofun nofun⟩

variable {notify : Event → Run ε σ Unit}

/-- A change of the state is no access; what its watchers do is traced. -/
theorem traced_assign (hw : ∀ e, Traced (notify e)) (c : Change) : Traced (assign notify c) := by
  intro s
  rw [assign]
  split
  · exact ⟨[], by simp [left], .nil _⟩
  · exact hw (.changed c) (s.1.change c, s.2)

theorem traced_request (hw : ∀ e, Traced (notify e)) (r : Micro.Request) :
    Traced (r.run notify) := by
  cases r with
  | state => exact traced_state
  | assign c => exact traced_assign hw c
  | read a => exact traced_readMemory a
  | write a v => exact traced_writeMemory a v
  | input port => exact traced_readPort port
  | output port v => exact traced_writePort port v
  | halted => exact hw .halted

/-- One microprogram after another. -/
theorem run_bind (p : Micro α) (f : α → Micro β) :
    (p >>= f).run notify = p.run notify >>= fun x => (f x).run notify := by
  induction p with
  | done x => rfl
  | ask r next ih =>
      rw [Micro.ask_bind, Micro.run_ask, Micro.run_ask, bind_assoc]
      congr 1
      funext x
      exact ih x

/-- Every microprogram is traced. -/
theorem traced_micro (hw : ∀ e, Traced (notify e)) (p : Micro α) : Traced (p.run notify) := by
  induction p with
  | done x => exact .pure x
  | ask r next ih => exact (traced_request hw r).bind ih

end Run

/-! ## Steps -/

namespace Run

variable {ε σ : Type} {notify : Event → Run ε σ Unit}

/-- A step up to its snapshot: where it started and what it did. -/
def instruction (notify : Event → Run ε σ Unit) : Run ε σ (Word × Operation) := do
  let start := (← state).pc
  let opcode ← Micro.fetch.run notify
  match Catalog.standard.opcode? opcode.toNat with
  | none => throw (.unknownOpcode opcode ((← state).pc - 1))
  | some e =>
    let bytes ← (Micro.fetchBytes e.descriptor.kind.extraBytes).run notify
    (e.effect bytes).run notify
    return (start, Operation.ofBytes e bytes)

theorem step_eq_instruction (notify : Event → Run ε σ Unit) :
    step notify = (clearLog >>= fun _ => instruction notify >>= fun p => snapshot p.1 p.2) := by
  rw [step, instruction]
  simp only [bind_assoc]
  congr 1
  funext _
  congr 1
  funext s
  congr 1
  funext b
  cases Catalog.standard.opcode? b.toNat with
  | none => rfl
  | some e => simp

/-- An instruction from a machine on is a fetch, and then the known instruction that it finds. -/
theorem instruction_eq (m : Machine) (notify : Event → Run ε σ Unit) (t : σ) :
    instruction notify (m, t) = (Micro.fetch.run notify >>= fun b =>
      match Catalog.standard.opcode? b.toNat with
      | none => state >>= fun s => throw (.unknownOpcode b (s.pc - 1))
      | some e =>
        (Micro.fetchBytes e.descriptor.kind.extraBytes).run notify >>= fun bytes =>
          (e.effect bytes).run notify >>= fun _ =>
            pure (m.state.pc, Operation.ofBytes e bytes)) (m, t) := rfl

theorem traced_instruction (hw : ∀ e, Traced (notify e)) : Traced (instruction notify) := by
  refine traced_state.bind fun s => (traced_micro hw _).bind fun b => ?_
  cases Catalog.standard.opcode? b.toNat with
  | none => exact traced_state.bind fun _ => .throw _
  | some e =>
      exact (traced_micro hw _).bind fun _ => (traced_micro hw _).bind fun _ => .pure _

/-- The accesses of a step: those of its snapshot, or those in the log where it failed. -/
def stepLog : EStateM.Result (Fault ε) (Machine × σ) Snapshot → List Access
  | .ok s _ => s.accesses
  | .error _ s => s.1.log.toList

theorem snapshot_eq (start : Word) (o : Operation) (s : Machine × σ) :
    (snapshot start o : Run ε σ Snapshot) s =
      .ok ⟨s.1.state, o, s.1.steps + 1,
          { s.1 with log := #[], steps := s.1.steps + 1 }.symbolInfo start o, s.1.log.toList⟩
        ({ s.1 with log := #[], steps := s.1.steps + 1 }, s.2) := rfl

/-- A step is its instruction, begun with an empty log, and a snapshot where that returns. -/
theorem step_cases (notify : Event → Run ε σ Unit) (s : Machine × σ) :
    (∃ p s', instruction notify ({ s.1 with log := #[] }, s.2) = .ok p s' ∧
      step notify s = snapshot p.1 p.2 s') ∨
    ∃ e s', instruction notify ({ s.1 with log := #[] }, s.2) = .error e s' ∧
      step notify s = .error e s' := by
  have hstep : step notify s = (instruction notify >>= fun p => snapshot p.1 p.2)
      ({ s.1 with log := #[] }, s.2) := by
    rw [step_eq_instruction]
    rfl
  rw [hstep]
  simp only [Bind.bind, EStateM.bind]
  cases instruction notify ({ s.1 with log := #[] }, s.2) with
  | ok p s' => exact .inl ⟨p, s', rfl, rfl⟩
  | error e s' => exact .inr ⟨e, s', rfl, rfl⟩

/-- The accesses of a step are those of its instruction; the step fails where the instruction
    does. -/
theorem step_outcome (notify : Event → Run ε σ Unit) (s : Machine × σ) :
    let i := instruction notify ({ s.1 with log := #[] }, s.2)
    let r := step notify s
    stepLog r = (left i).log.toList ∧ (left r).memory = (left i).memory ∧
      ((∃ e s, i = .error e s) → ∃ e s, r = .error e s) := by
  rcases step_cases notify s with ⟨p, s', hi, hr⟩ | ⟨e, s', hi, hr⟩
  · rw [hi, hr, snapshot_eq]
    refine ⟨rfl, rfl, ?_⟩
    rintro ⟨e, t, h⟩
    cases h
  · rw [hi, hr]
    exact ⟨rfl, rfl, fun _ => ⟨e, s', rfl⟩⟩

/-- A step that returns takes the log with it. -/
theorem log_of_step {s s' : Machine × σ} {x : Snapshot} (h : step notify s = .ok x s') :
    s'.1.log = #[] := by
  rcases step_cases notify s with ⟨p, t, -, hr⟩ | ⟨e, t, -, hr⟩
  · rw [hr, snapshot_eq] at h
    cases h
    rfl
  · rw [hr] at h
    cases h

end Run

/-! ## The bytes of an instruction -/

/-- How many bytes belong to an opcode besides itself; an unknown one has none. -/
def operandBytes (b : Byte) : Nat :=
  match Catalog.standard.opcode? b.toNat with
  | none => 0
  | some e => e.descriptor.kind.extraBytes

/-- The address after some more, counted from the next one. -/
theorem next_add_ofNat (a : Word) (k : Nat) :
    a + 1 + BitVec.ofNat 16 k = a + BitVec.ofNat 16 (k + 1) := by
  rw [BitVec.add_assoc, Nat.add_comm k, BitVec.ofNat_add]
  rfl

namespace Memory

/-- Reads of consecutive addresses, as far as there is memory. -/
def readsFrom (m : Memory) (a : Word) : Nat → List Access
  | 0 => []
  | n + 1 =>
    match m.get? a.toNat with
    | none => []
    | some b => ⟨.read, a.toNat, b.toNat⟩ :: m.readsFrom (a + 1) n

/-- Reads of the opcode at an address and of the bytes that belong to it. -/
def instructionReads (m : Memory) (a : Word) : List Access :=
  match m.get? a.toNat with
  | none => []
  | some b => ⟨.read, a.toNat, b.toNat⟩ :: m.readsFrom (a + 1) (operandBytes b)

end Memory

namespace Run

variable {ε σ α β : Type} {notify : Event → Run ε σ Unit}

/-- A run that leaves the machine alone. It may work on the state of the watchers, and it may
    fail. -/
def Observes (r : Run ε σ α) : Prop :=
  ∀ s, left (r s) = s.1

/-- A run that never fails. -/
def Returns (r : Run ε σ α) : Prop :=
  ∀ s, ∃ x s', r s = .ok x s'

theorem Observes.traced {r : Run ε σ α} (h : Observes r) : Traced r := by
  refine .of_same fun s => ?_
  rw [h s]
  exact ⟨rfl, rfl⟩

/-- The machine after the byte at its program counter is fetched. -/
def fetched (m : Machine) (b : Byte) : Machine :=
  (m.record .read m.state.pc.toNat b.toNat).change (.pc (m.state.pc + 1))

theorem log_fetched (m : Machine) (b : Byte) :
    (fetched m b).log.toList = m.log.toList ++ [⟨.read, m.state.pc.toNat, b.toNat⟩] := by
  simp [fetched, Machine.record, Machine.change]

/-- A fetch where there is no memory fails at once. -/
theorem fetch_unmapped {s : Machine × σ} (h : s.1.memory.get? s.1.state.pc.toNat = none) :
    ∃ e, Micro.fetch.run notify s = .error e s := by
  refine ⟨.outsideMemory s.1.state.pc .read, ?_⟩
  simp only [Micro.fetch, Micro.run, Micro.Request.run, Micro.state, Micro.read, Bind.bind,
    Micro.bind, EStateM.bind, state, readMemory, h]

/-- Under observers a change of the state is made and nothing else, also where a watcher fails. -/
theorem left_assign (hw : ∀ e, Observes (notify e)) (c : Change) (s : Machine × σ) :
    left (assign notify c s) = s.1.change c := by
  rw [assign]
  split
  · rename_i h
    rw [Machine.change, State.apply_of_holds h]
    rfl
  · exact hw (.changed c) (s.1.change c, s.2)

theorem returns_assign (hr : ∀ e, Returns (notify e)) (c : Change) : Returns (assign notify c) := by
  intro s
  rw [assign]
  split
  · exact ⟨(), s, rfl⟩
  · exact hr (.changed c) (s.1.change c, s.2)

/-- A fetch under observers reads one byte, and the program counter moves on; it fails only with a
    watcher. -/
theorem fetch_observed (hw : ∀ e, Observes (notify e)) {s : Machine × σ} {b : Byte}
    (h : s.1.memory.get? s.1.state.pc.toNat = some b) :
    (∃ t, Micro.fetch.run notify s = .ok b (fetched s.1 b, t)) ∨
      (∃ e t, Micro.fetch.run notify s = .error e (fetched s.1 b, t)) ∧
        ¬∀ e, Returns (notify e) := by
  have hleft := left_assign hw (.pc (s.1.state.pc + 1))
    (s.1.record .read s.1.state.pc.toNat b.toNat, s.2)
  have hrun : Micro.fetch.run notify s =
      (assign notify (.pc (s.1.state.pc + 1)) >>= fun _ => pure b)
        (s.1.record .read s.1.state.pc.toNat b.toNat, s.2) := by
    simp only [Micro.fetch, Micro.run, Micro.Request.run, Micro.state, Micro.read, Micro.setPc,
      Micro.assign, Micro.bind, Bind.bind, EStateM.bind, state, readMemory, h]
    rfl
  rw [hrun]
  simp only [Bind.bind, EStateM.bind]
  cases hres : assign notify (.pc (s.1.state.pc + 1))
      (s.1.record .read s.1.state.pc.toNat b.toNat, s.2) with
  | ok x s' =>
      rw [hres] at hleft
      exact .inl ⟨s'.2, by rw [fetched, ← hleft]; rfl⟩
  | error e s' =>
      rw [hres] at hleft
      -- only a watcher can have failed here
      refine .inr ⟨⟨e, s'.2, by rw [fetched, ← hleft]; rfl⟩, fun hr => ?_⟩
      obtain ⟨x, s'', hok⟩ := returns_assign hr (.pc (s.1.state.pc + 1))
        (s.1.record .read s.1.state.pc.toNat b.toNat, s.2)
      rw [hok] at hres
      cases hres

/-- A run that begins with a fetch fails for want of memory, goes on past the byte, or fails with a
    watcher after it. -/
theorem fetch_then (hw : ∀ e, Observes (notify e)) (f : Byte → Run ε σ α) (s : Machine × σ) :
    let r := (Micro.fetch.run notify >>= f) s
    (s.1.memory.get? s.1.state.pc.toNat = none ∧ ∃ e, r = .error e s) ∨
      ∃ b, s.1.memory.get? s.1.state.pc.toNat = some b ∧
        ((∃ t, r = f b (fetched s.1 b, t)) ∨
          (∃ e t, r = .error e (fetched s.1 b, t)) ∧ ¬∀ e, Returns (notify e)) := by
  simp only [Bind.bind, EStateM.bind]
  cases hget : s.1.memory.get? s.1.state.pc.toNat with
  | none =>
      obtain ⟨e, he⟩ := @fetch_unmapped _ _ notify s hget
      exact .inl ⟨rfl, e, by rw [he]⟩
  | some b =>
      refine .inr ⟨b, rfl, ?_⟩
      rcases fetch_observed hw hget with ⟨t, ht⟩ | ⟨⟨e, t, he⟩, hfail⟩
      · exact .inl ⟨t, by rw [ht]⟩
      · exact .inr ⟨⟨e, t, by rw [he]⟩, hfail⟩

/-- Fetches under observers read one byte after the other. All are read where the run returns, and
    where it fails without a watcher those up to the end of memory. -/
theorem fetchBytes_observed (hw : ∀ e, Observes (notify e)) (n : Nat) (s : Machine × σ) :
    let r := (Micro.fetchBytes n).run notify s
    let xs := s.1.memory.readsFrom s.1.state.pc n
    ∃ ys, (left r).log.toList = s.1.log.toList ++ ys ∧ ys <+: xs ∧
      ((∀ e, Returns (notify e)) ∨ (∃ bs s', r = .ok bs s') → ys = xs) := by
  induction n generalizing s with
  | zero => exact ⟨[], (List.append_nil _).symm, List.prefix_rfl, fun _ => rfl⟩
  | succ n ih =>
      have hrun : (Micro.fetchBytes (n + 1)).run notify =
          (Micro.fetch.run notify >>= fun b => (Micro.fetchBytes n).run notify >>= fun bs =>
            pure (b :: bs)) := by
        rw [Micro.fetchBytes, run_bind]
        congr 1
        funext b
        exact run_bind _ _
      rw [hrun, Memory.readsFrom]
      rcases fetch_then hw (fun b => (Micro.fetchBytes n).run notify >>= fun bs => pure (b :: bs)) s
        with ⟨hget, e, he⟩ | ⟨b, hget, ⟨t, ht⟩ | ⟨⟨e, t, he⟩, hfail⟩⟩
      · rw [he, hget]
        exact ⟨[], (List.append_nil _).symm, List.prefix_rfl, fun _ => rfl⟩
      -- one byte is read, and the others from the next address on
      · obtain ⟨ys, hlog, hpre, hall⟩ := ih (fetched s.1 b, t)
        have hleft : left (((Micro.fetchBytes n).run notify >>= fun bs => pure (b :: bs))
            (fetched s.1 b, t)) = left ((Micro.fetchBytes n).run notify (fetched s.1 b, t)) := by
          simp only [Bind.bind, EStateM.bind]
          cases (Micro.fetchBytes n).run notify (fetched s.1 b, t) <;> rfl
        rw [ht, hget]
        refine ⟨⟨.read, s.1.state.pc.toNat, b.toNat⟩ :: ys, ?_, ?_, fun h => ?_⟩
        · rw [hleft, hlog, log_fetched, List.append_assoc, List.singleton_append]
        · exact (List.prefix_cons_inj _).2 hpre
        · refine congrArg (_ :: ·) (hall (h.imp_right fun ⟨bs, s', hok⟩ => ?_))
          simp only [Bind.bind, EStateM.bind] at hok
          split at hok
          · exact ⟨_, _, by assumption⟩
          · cases hok
      · rw [he, hget]
        refine ⟨[⟨.read, s.1.state.pc.toNat, b.toNat⟩], log_fetched s.1 b,
          List.prefix_append [_] _, ?_⟩
        rintro (hret | ⟨bs, s', hok⟩)
        · exact absurd hret hfail
        · cases hok

/-- Under observers an instruction logs the reads of its own bytes first. Where a watcher fails it
    may have got to a part of them only. -/
theorem instruction_observed (hw : ∀ e, Observes (notify e)) (s : Machine × σ) :
    let r := instruction notify s
    let xs := s.1.memory.instructionReads s.1.state.pc
    ∃ ys, (left r).log.toList = s.1.log.toList ++ ys ∧
      (xs <+: ys ∨ (∃ e s', r = .error e s') ∧ ys <+: xs) ∧
      ((∀ e, Returns (notify e)) → xs <+: ys) := by
  have hrun := instruction_eq s.1 notify s.2
  rw [hrun, Memory.instructionReads]
  rcases fetch_then hw _ s with ⟨hget, e, he⟩ | ⟨b, hget, ⟨t, ht⟩ | ⟨⟨e, t, he⟩, hfail⟩⟩
  · rw [he, hget]
    exact ⟨[], (List.append_nil _).symm, .inl List.prefix_rfl, fun _ => List.prefix_rfl⟩
  · rw [ht, hget]
    cases hcode : Catalog.standard.opcode? b.toNat with
    | none =>
        have hbytes : operandBytes b = 0 := by rw [operandBytes, hcode]
        simp only [hbytes, Memory.readsFrom]
        exact ⟨_, log_fetched s.1 b, .inl List.prefix_rfl, fun _ => List.prefix_rfl⟩
    | some e =>
        have hbytes : operandBytes b = e.descriptor.kind.extraBytes := by rw [operandBytes, hcode]
        obtain ⟨zs, hlog, hpre, hall⟩ :=
          fetchBytes_observed hw e.descriptor.kind.extraBytes (fetched s.1 b, t)
        rw [log_fetched, List.append_assoc, List.singleton_append] at hlog
        simp only [hbytes, Bind.bind, EStateM.bind]
        cases hres : (Micro.fetchBytes e.descriptor.kind.extraBytes).run notify
            (fetched s.1 b, t) with
        | error e' s' =>
            rw [hres] at hlog hall
            refine ⟨_, hlog, .inr ⟨⟨e', s', rfl⟩, (List.prefix_cons_inj _).2 hpre⟩, fun hret => ?_⟩
            rw [hall (.inl hret)]
            exact List.prefix_rfl
        | ok bytes s' =>
            rw [hres] at hlog hall
            -- what follows the fetches only adds to the log
            have hw' := fun e => (hw e).traced
            obtain ⟨ws, hlog', -⟩ := ((traced_micro hw' (e.effect bytes)).bind fun _ =>
              .pure (s.1.state.pc, Operation.ofBytes e bytes)) s'
            have hxs : (⟨.read, s.1.state.pc.toNat, b.toNat⟩ :: s.1.memory.readsFrom
                (s.1.state.pc + 1) e.descriptor.kind.extraBytes) <+:
                  ⟨.read, s.1.state.pc.toNat, b.toNat⟩ :: zs ++ ws := by
              rw [hall (.inr ⟨bytes, s', rfl⟩)]
              exact List.prefix_append _ _
            refine ⟨_, ?_, .inl hxs, fun _ => hxs⟩
            rw [← List.append_assoc, ← hlog]
            exact hlog'
  · rw [he, hget]
    exact ⟨[⟨.read, s.1.state.pc.toNat, b.toNat⟩], log_fetched s.1 b,
      .inr ⟨⟨e, _, rfl⟩, List.prefix_append [_] _⟩, fun hret => absurd hret hfail⟩

end Run

/-! ## Memory besides the bus -/

/-- Placing values is not logged. -/
theorem Machine.log_placeGiven (m : Machine) (address : Value) (places : Nat) (vs : List Value) :
    (m.placeGiven address places vs).1.log = m.log := by
  induction vs generalizing m places with
  | nil => rfl
  | cons v vs ih =>
      rw [placeGiven]
      split
      · split
        · split
          · exact ih _ _
          · rfl
        · rfl
      · rfl

namespace Monitor

/-- The commands that look at memory or change it without the bus: bytes are placed or shown, as
    numbers or as instructions. -/
def Command.isOffBus : Command → Bool
  | .place .. | .bytes .. | .disassemble .. => true
  | _ => false

/-- A command off the bus leaves the log as it is. -/
theorem log_perform_of_isOffBus (notify : Event → Act Unit) {c : Command} (hc : c.isOffBus = true)
    (s : Machine × Desk) : (Run.left (perform notify c s)).log = s.1.log := by
  cases c with
  | place address vs =>
      have hlog := s.1.log_placeGiven address 0 vs
      simp only [perform, Bind.bind, EStateM.bind, place]
      cases h : s.1.placeGiven address 0 vs with
      | mk m e =>
          rw [h] at hlog
          cases e <;> exact hlog
  | bytes address length =>
      simp only [perform, Bind.bind, EStateM.bind, Run.machine]
      cases s.1.bytesGiven address length.toNat <;> rfl
  | disassemble address length =>
      simp only [perform, Bind.bind, EStateM.bind, Run.machine]
      cases s.1.disassembleGiven address length <;> rfl
  | _ => cases hc

end Monitor

/-! ## Runs of steps -/

namespace Run

variable {ε σ : Type} {notify : Event → Run ε σ Unit}

/-- Steps that return, with the accesses of their snapshots. Before each step and at the end
    anything may happen that leaves the memory as it is. -/
inductive Steps (notify : Event → Run ε σ Unit) :
    Machine × σ → List (List Access) → Machine × σ → Prop where
  | done {s s' : Machine × σ} (h : s'.1.memory = s.1.memory) : Steps notify s [] s'
  | step {s a b s' : Machine × σ} {x : Snapshot} {xss : List (List Access)}
      (h : a.1.memory = s.1.memory) (hx : Run.step notify a = .ok x b)
      (hxs : Steps notify b xss s') : Steps notify s (x.accesses :: xss) s'

/-- The accesses of a step trace what it does to the memory, whether it returns or fails. -/
theorem traces_step (hw : ∀ e, Traced (notify e)) (s : Machine × σ) :
    s.1.memory.Traces (stepLog (step notify s)) (left (step notify s)).memory := by
  obtain ⟨hlog, hmem, -⟩ := step_outcome notify s
  obtain ⟨xs, hxs, htraces⟩ := traced_instruction hw ({ s.1 with log := #[] }, s.2)
  rw [hlog, hmem, hxs]
  exact htraces

/-- The accesses of all snapshots together trace what the steps do to the memory. -/
theorem Steps.traces (hw : ∀ e, Traced (notify e)) {s s' : Machine × σ}
    {xss : List (List Access)} (h : Steps notify s xss s') :
    s.1.memory.Traces xss.flatten s'.1.memory := by
  induction h with
  | done h =>
      rw [h]
      exact .nil _
  | @step s a b s' x xss h hx hxs ih =>
      have hstep := traces_step hw a
      rw [hx, h] at hstep
      exact hstep.append ih

/-- The log of a step is a sound and complete trace of the memory. -/
theorem step_log (hw : ∀ e, Traced (notify e)) (m : Machine) (t : σ) :
    let r := step notify (m, t)
    let xs := stepLog r
    let reads := m.memory.instructionReads m.state.pc
    -- replaying it gives the memory after the step, and every read tells what was there then
    (m.memory.replay xs = (left r).memory ∧ m.memory.Truthful xs) ∧
    -- it begins with the bytes of the instruction, as far as there is memory and no watcher fails
    ((∀ e, Observes (notify e)) →
      (reads <+: xs ∨ (∃ e s', r = .error e s') ∧ xs <+: reads) ∧
        ((∀ e, Returns (notify e)) → reads <+: xs)) ∧
    -- nothing from before the step is in it, and nothing stays behind in the log
    (∀ log, step notify ({ m with log := log }, t) = r) ∧
    ((∃ x s', r = .ok x s') → (left r).log = #[]) ∧
    -- commands that go to the memory without the bus are not in it
    (∀ tell c s, Monitor.Command.isOffBus c = true →
      (left (Monitor.perform tell c s)).log = s.1.log) ∧
    -- the logs of the snapshots of a run of steps together trace the run
    (∀ xss s', Steps notify (m, t) xss s' →
      m.memory.replay xss.flatten = s'.1.memory ∧ m.memory.Truthful xss.flatten) := by
  intro r xs reads
  have hstep := traces_step hw (m, t)
  refine ⟨⟨hstep.replayed, hstep.truthful⟩, fun ho => ?_, fun log => ?_, ?_, ?_, ?_⟩
  · obtain ⟨hlog, -, hfail⟩ := step_outcome notify (m, t)
    obtain ⟨ys, hys, hreads, hall⟩ := instruction_observed ho ({ m with log := #[] }, t)
    have hxs : xs = ys := hlog.trans hys
    rw [hxs]
    exact ⟨hreads.imp_right fun h => ⟨hfail h.1, h.2⟩, hall⟩
  · rfl
  · rintro ⟨x, s', hx⟩
    rw [hx]
    exact log_of_step hx
  · intro tell c s hc
    exact Monitor.log_perform_of_isOffBus tell hc s
  · intro xss s' h
    have htraces := h.traces hw
    exact ⟨htraces.replayed, htraces.truthful⟩

/-- Writing events down leaves the machine alone. -/
theorem observes_recordEvent (e : Event) : Observes (Trial.recordEvent e) :=
  fun _ => rfl

/-- Three bytes of memory with INR M in front, which counts up the byte at 2. -/
def counting : Machine where
  state := { registers := { l := 2 } }
  memory := ⟨#[0x34, 0x00, 0x07]⟩

/-- The instruction is read, then the byte, which is written back one greater. -/
theorem step_log_counting :
    let r := step Trial.recordEvent (counting, #[])
    let xs : List Access := [⟨.read, 0, 0x34⟩, ⟨.read, 2, 0x07⟩, ⟨.write, 2, 0x08⟩]
    stepLog r = xs ∧ counting.memory.replay xs = (left r).memory ∧
      counting.memory.Truthful xs := by
  intro r xs
  have hxs : stepLog r = xs := by decide +kernel
  have htrace : counting.memory.replay (stepLog r) = (left r).memory ∧
      counting.memory.Truthful (stepLog r) :=
    (step_log (fun e => (observes_recordEvent e).traced) counting #[]).1
  rw [hxs] at htrace
  exact ⟨hxs, htrace⟩

end Run

end Lab8085
