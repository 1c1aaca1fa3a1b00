/-
  Lab8085.Proofs.Machine.Mirror

  Events mirror the state of the machine.

  An operation under watchers that only observe is told by callbacks which depend on the
  machine alone (`Mirrored`).  The events of these callbacks, applied one after the other to
  the state before the operation, give the state at each callback and at the end, whether
  the operation returns, fails, or is ended by a watcher that fails.  A step is put together
  from its fetches, which tell of the program counter only, and its action; a run of steps
  and the other operations follow by joining scripts.
-/
import Lab8085.Proofs.Machine.Script

namespace Lab8085

/-! ## Fetching -/

/-- The events of fetching some bytes: the program counter goes on, byte by byte. -/
def Event.fetches (pc : Word) : Nat → List Event
  | 0 => []
  | n + 1 => .changed (.pc (pc + 1)) :: fetches (pc + 1) n

theorem Event.halted_notMem_fetches (pc : Word) (n : Nat) : Event.halted ∉ fetches pc n := by
  induction n generalizing pc with
  | zero => exact List.not_mem_nil
  | succ n ih => simpa [fetches] using ih (pc + 1)

namespace Machine

/-- The machine past some bytes of its instruction: they are in the log, and the program counter
    has moved on. -/
def past (m : Machine) (xs : List Access) : Machine :=
  { m with
    state.pc := m.state.pc + BitVec.ofNat 16 xs.length
    log := m.log ++ xs.toArray }

theorem past_nil (m : Machine) : m.past [] = m := by
  simp [past]

theorem past_fetched (m : Machine) (b : Byte) (xs : List Access) :
    (Run.fetched m b).past xs = m.past (⟨.read, m.state.pc.toNat, b.toNat⟩ :: xs) := by
  have hpc : m.state.pc + 1#16 + BitVec.ofNat 16 xs.length =
      m.state.pc + BitVec.ofNat 16 (xs.length + 1) := next_add_ofNat _ _
  simp [past, Run.fetched, record, change, State.apply, hpc]

/-- The reads of the instruction at the program counter. -/
def reads (m : Machine) : List Access :=
  m.memory.instructionReads m.state.pc

/-- The bytes after the opcode at the program counter, as they are read. -/
def operandRead (m : Machine) : List Byte :=
  m.reads.tail.map fun x => BitVec.ofInt 8 x.data

/-- The entry of the opcode at the program counter. -/
def entry? (m : Machine) : Option Entry :=
  (m.memory.get? m.state.pc.toNat).bind fun b => Catalog.standard.opcode? b.toNat

/-- The machine is at a halt instruction. -/
def AtHalt (m : Machine) : Prop :=
  m.memory.get? m.state.pc.toNat = some haltOpcode

end Machine

namespace Run

variable {ε σ α β : Type} {Calm : σ → Prop}

variable (Calm) in
/-- A fetch tells of the program counter. -/
theorem follows_fetch {m : Machine} {b : Byte} (h : m.memory.get? m.state.pc.toNat = some b) :
    Follows (ε := ε) Machine.Script Calm (fun notify => Micro.fetch.run notify) m
      [(.changed (.pc (m.state.pc + 1)), fetched m b)] (.ok b) (fetched m b) where
  along := by
    have hw : m.Works (m.record .read m.state.pc.toNat b.toNat) :=
      ⟨rfl, _, by simp [Machine.record], Memory.traces_read h⟩
    refine .tell hw ?_ (.done (.refl _))
    -- the program counter never holds its successor already
    have hne : m.state.pc ≠ m.state.pc + 1 := by bv_omega
    exact beq_eq_false_iff_ne.2 hne
  plays := by
    have hrun (notify : Event → Run ε σ Unit) (t : σ) : Micro.fetch.run notify (m, t) =
        (assign notify (.pc (m.state.pc + 1)) >>= fun _ => pure b)
          (m.record .read m.state.pc.toNat b.toNat, t) := by
      simp only [Micro.fetch, Micro.run, Micro.Request.run, Micro.state, Micro.read, Micro.setPc,
        Micro.assign, Micro.bind, Bind.bind, EStateM.bind, state, readMemory, h]
      rfl
    have hne : m.state.pc ≠ m.state.pc + 1 := by bv_omega
    have hassign := follows_assign (ε := ε) Calm
      (m := m.record .read m.state.pc.toNat b.toNat) (c := .pc (m.state.pc + 1))
      (beq_eq_false_iff_ne.2 hne)
    intro notify hobs t ht
    exact (hrun notify t).trans (hassign.plays.map (fun _ => b) notify hobs t ht)
  goesOn := by simp

variable (Calm) in
/-- Fetches tell of the program counter for every byte that is there. -/
theorem follows_fetchBytes (n : Nat) (m : Machine) :
    let xs := m.memory.readsFrom m.state.pc n
    ∃ cs o, Follows (ε := ε) Machine.Script Calm (fun notify => (Micro.fetchBytes n).run notify) m
        cs o (m.past xs) ∧
      cs.map Prod.fst = Event.fetches m.state.pc xs.length ∧
      ((xs.length < n ∧ ∃ f, o = .error f) ∨
        xs.length = n ∧ o = .ok (xs.map fun x => BitVec.ofInt 8 x.data)) := by
  induction n generalizing m with
  | zero =>
      refine ⟨[], .ok [], ?_, rfl, .inr ⟨rfl, rfl⟩⟩
      rw [Memory.readsFrom, Machine.past_nil]
      exact ⟨.done (.refl m), .of_eq fun _ _ => rfl, List.not_mem_nil⟩
  | succ n ih =>
      have hrun : (fun notify : Event → Run ε σ Unit => (Micro.fetchBytes (n + 1)).run notify) =
          fun notify => Micro.fetch.run notify >>= fun b => (Micro.fetchBytes n).run notify >>=
            fun bs => pure (b :: bs) := by
        funext notify
        rw [Micro.fetchBytes, run_bind]
        congr 1
        funext b
        exact run_bind _ _
      rw [hrun]
      simp only [Memory.readsFrom]
      cases h : m.memory.get? m.state.pc.toNat with
      | none =>
          refine ⟨[], .error (.outsideMemory m.state.pc .read), ?_, rfl,
            .inl ⟨Nat.succ_pos n, _, rfl⟩⟩
          rw [Machine.past_nil]
          refine ⟨.done (.refl m), .bind_error (.of_eq fun notify t => ?_), List.not_mem_nil⟩
          simp only [Micro.fetch, Micro.run, Micro.Request.run, Micro.state, Micro.read, Bind.bind,
            Micro.bind, EStateM.bind, state, readMemory, h]
          rfl
      | some b =>
          obtain ⟨cs, o, hbytes, hcs, ho⟩ := ih (fetched m b)
          have hfetch := follows_fetch (ε := ε) Calm h
          rw [Machine.past_fetched] at hbytes
          refine ⟨(.changed (.pc (m.state.pc + 1)), fetched m b) :: cs, o.map (b :: ·), ?_, ?_, ?_⟩
          · exact hfetch.bind Machine.Script.append
              ⟨hbytes.along, hbytes.plays.map (b :: ·), hbytes.goesOn⟩
          · rw [List.map_cons, hcs]
            rfl
          · rcases ho with ⟨hlt, f, rfl⟩ | ⟨hlen, rfl⟩
            · exact .inl ⟨Nat.succ_lt_succ hlt, f, rfl⟩
            · refine .inr ⟨congrArg (· + 1) hlen, ?_⟩
              simp [Except.map, fetched, Machine.record, Machine.change, State.apply]

/-! ## Instructions -/

/-- The halt instruction is the one with its opcode, and has no further bytes. -/
theorem halt_table : ∀ e ∈ Catalog.standard.entries,
    (e.descriptor.action = .halt ↔ e.opcode = haltOpcode.toNat) ∧
      (e.opcode = haltOpcode.toNat → e.descriptor.kind.extraBytes = 0) := by
  decide +kernel

theorem halt_of_opcode {b : Byte} {e : Entry} (h : Catalog.standard.opcode? b.toNat = some e) :
    (e.descriptor.action = .halt ↔ b = haltOpcode) ∧
      (b = haltOpcode → e.descriptor.kind.extraBytes = 0) := by
  obtain ⟨haction, hbytes⟩ := halt_table e (List.mem_of_find?_eq_some h)
  have hopcode : e.opcode = b.toNat :=
    beq_iff_eq.1 (List.find?_some (p := fun e : Entry => e.opcode == b.toNat) h)
  have hb : e.opcode = haltOpcode.toNat ↔ b = haltOpcode := by
    rw [hopcode, Int.natCast_inj, BitVec.toNat_inj]
  exact ⟨haction.trans hb, fun hhalt => hbytes (hb.2 hhalt)⟩

variable (Calm) in
/-- Callbacks of the action of an entry: a halt tells that it was executed, others never do. -/
theorem action_script (e : Entry) (bytes : List Byte) (m : Machine) :
    ∃ ds o n, m.Script ds n ∧
      Plays (ε := ε) Calm (fun notify => (e.effect bytes).run notify) m ds o n ∧
      (e.descriptor.action = .halt → ds.map Prod.fst = [.halted] ∧ o = .ok ()) ∧
      (e.descriptor.action ≠ .halt → Event.halted ∉ ds.map Prod.fst) := by
  by_cases ha : e.descriptor.action = .halt
  · refine ⟨[(.halted, m)], .ok (), m, .tell (.refl m) trivial (.done (.refl _)),
      .callback fun notify t => ?_, fun _ => ⟨rfl, rfl⟩, fun h => absurd ha h⟩
    have hrun : e.effect bytes = Micro.halted := by
      rw [Entry.effect, ha, Action.run]
    rw [hrun]
    change (notify .halted >>= fun x => pure x) (m, t) = notify .halted (m, t)
    rw [bind_pure]
  · have hscripted : Scripted (ε := ε) Machine.Script Calm
        (fun notify => (e.effect bytes).run notify) m :=
      scripted_micro (Action.neverHalts_run ha (e.operand bytes)) m
    obtain ⟨ds, o, n, hscript, hplays, hnot⟩ := hscripted
    exact ⟨ds, o, n, hscript, hplays, fun h => absurd h ha, fun _ => hnot⟩

/-- The callbacks of the action of an instruction. They are those of its entry, on the machine past
    all its bytes; there are none where it is not known or not fetched completely. -/
structure ActsBy (ε : Type) {σ : Type} (Calm : σ → Prop) (m : Machine) (ds : List Callback) :
    Prop where
  acts : ∀ e, m.entry? = some e → m.reads.length = e.descriptor.length →
    ∃ o n, Plays (ε := ε) Calm (fun notify => (e.effect m.operandRead).run notify)
      (m.past m.reads) ds o n
  rests : (∀ e, m.entry? = some e → m.reads.length ≠ e.descriptor.length) → ds = []

/-- What is told of a halt: executing it ends with the news of it, and nothing else brings them. -/
structure TellsHalt (m : Machine) (cs : List Callback) (o : Except (Fault ε) α) : Prop where
  once : m.AtHalt → cs.map Prod.fst = [.changed (.pc (m.state.pc + 1)), .halted] ∧ ∃ x, o = .ok x
  never : ¬m.AtHalt → Event.halted ∉ cs.map Prod.fst

/-- The script of an instruction: callbacks `fs` of its fetches, then callbacks `ds` of its
    action. -/
structure FetchesThenActs (Along : Machine → List Callback → Machine → Prop) (Calm : σ → Prop)
    (r : (Event → Run ε σ Unit) → Run ε σ α) (m : Machine) (fs ds : List Callback)
    (o : Except (Fault ε) α) (n : Machine) : Prop where
  along : Along m (fs ++ ds) n
  plays : Plays Calm r m (fs ++ ds) o n
  fetches : fs.map Prod.fst = Event.fetches m.state.pc m.reads.length
  acts : ActsBy ε Calm m ds
  halts : TellsHalt m (fs ++ ds) o

theorem instruction_unmapped {m : Machine} (h : m.memory.get? m.state.pc.toNat = none) :
    FetchesThenActs (ε := ε) Machine.Script Calm instruction m [] []
      (.error (.outsideMemory m.state.pc .read)) m where
  along := .done (.refl m)
  plays := by
    refine .congr (instruction_eq m) (.bind_error (.of_eq fun notify t => ?_))
    simp only [Micro.fetch, Micro.run, Micro.Request.run, Micro.state, Micro.read, Bind.bind,
      Micro.bind, EStateM.bind, state, readMemory, h]
    rfl
  fetches := by
    rw [Machine.reads, Memory.instructionReads, h]
    rfl
  acts := ⟨fun e he => by simp [Machine.entry?, h] at he, fun _ => rfl⟩
  halts := ⟨fun hhalt => absurd hhalt (by simp [Machine.AtHalt, h]), nofun⟩

theorem instruction_unknown {m : Machine} {b : Byte}
    (h : m.memory.get? m.state.pc.toNat = some b)
    (hcode : Catalog.standard.opcode? b.toNat = none) :
    FetchesThenActs (ε := ε) Machine.Script Calm instruction m
      [(.changed (.pc (m.state.pc + 1)), fetched m b)] []
      (.error (.unknownOpcode b (m.state.pc + 1 - 1))) (fetched m b) where
  along := (follows_fetch (ε := ε) Calm h).along
  plays := by
    refine .congr (instruction_eq m) ((follows_fetch Calm h).plays.bind (.of_eq fun notify t => ?_))
    simp only [hcode]
    rfl
  fetches := by
    have hbytes : operandBytes b = 0 := by rw [operandBytes, hcode]
    simp only [Machine.reads, Memory.instructionReads, h, hbytes]
    rfl
  acts := ⟨fun e he => by simp [Machine.entry?, h, hcode] at he, fun _ => rfl⟩
  halts := by
    refine ⟨fun hhalt => ?_, fun _ => (follows_fetch (ε := ε) Calm h).goesOn⟩
    rw [Machine.AtHalt, h, Option.some_inj] at hhalt
    rw [hhalt] at hcode
    exact absurd hcode (by decide)

variable (Calm) in
/-- The bytes after a known opcode are fetched, as far as there is memory. -/
theorem follows_operand {m : Machine} {b : Byte} {e : Entry}
    (h : m.memory.get? m.state.pc.toNat = some b)
    (hcode : Catalog.standard.opcode? b.toNat = some e) :
    let k := e.descriptor.kind.extraBytes
    ∃ cs o, Follows (ε := ε) Machine.Script Calm (fun notify => (Micro.fetchBytes k).run notify)
        (fetched m b) cs o (m.past m.reads) ∧
      .changed (.pc (m.state.pc + 1)) :: cs.map Prod.fst =
        Event.fetches m.state.pc m.reads.length ∧
      ((m.reads.length < e.descriptor.length ∧ ∃ f, o = .error f) ∨
        m.reads.length = e.descriptor.length ∧ o = .ok m.operandRead) := by
  have hbytes : operandBytes b = e.descriptor.kind.extraBytes := by rw [operandBytes, hcode]
  simp only [Machine.operandRead, Machine.reads, Memory.instructionReads, h, hbytes,
    ← Machine.past_fetched, Descriptor.length]
  obtain ⟨cs, o, hrest, hcs, ho⟩ := follows_fetchBytes (ε := ε) Calm
    e.descriptor.kind.extraBytes (fetched m b)
  refine ⟨cs, o, hrest, ?_, ?_⟩
  · rw [hcs]
    rfl
  · rw [List.length_cons, Nat.add_comm, List.tail_cons, Nat.add_lt_add_iff_left,
      Nat.add_left_cancel_iff]
    exact ho

/-- A known instruction, of which all bytes are there or not. -/
theorem instruction_known {m : Machine} {b : Byte} {e : Entry}
    (h : m.memory.get? m.state.pc.toNat = some b)
    (hcode : Catalog.standard.opcode? b.toNat = some e) :
    ∃ fs ds o n, FetchesThenActs (ε := ε) Machine.Script Calm instruction m fs ds o n := by
  obtain ⟨hhalt, hzero⟩ := halt_of_opcode hcode
  have hathalt : m.AtHalt ↔ e.descriptor.action = .halt := by
    rw [hhalt, Machine.AtHalt, h, Option.some_inj]
  have hentry : m.entry? = some e := by
    rw [Machine.entry?, h]
    exact hcode
  have hfetch := follows_fetch (ε := ε) Calm h
  obtain ⟨cs, o, hrest, hfs, ho⟩ := follows_operand (ε := ε) Calm h hcode
  have hlength : m.AtHalt → m.reads.length = 1 := by
    intro hm
    have hbytes : operandBytes b = 0 := by
      rw [operandBytes, hcode]
      exact hzero (hhalt.1 (hathalt.1 hm))
    simp only [Machine.reads, Memory.instructionReads, h, hbytes]
    rfl
  have hnot : Event.halted ∉ .changed (.pc (m.state.pc + 1)) :: cs.map Prod.fst := by
    rw [hfs]
    exact Event.halted_notMem_fetches _ _
  rcases ho with ⟨hlt, f, rfl⟩ | ⟨hlen, rfl⟩
  · refine ⟨(.changed (.pc (m.state.pc + 1)), fetched m b) :: cs, [], .error f, m.past m.reads,
      ⟨?_, ?_, hfs, ⟨fun e' he' hlen => ?_, fun _ => rfl⟩, ?_⟩⟩
    · rw [List.append_nil]
      exact hfetch.along.append hrest.along
    · rw [List.append_nil]
      refine .congr (instruction_eq m) (hfetch.plays.bind ?_)
      simp only [hcode]
      exact hrest.plays.bind_error
    · obtain rfl : e = e' := Option.some_inj.1 (hentry.symm.trans he')
      exact absurd hlen (Nat.ne_of_lt hlt)
    · rw [List.append_nil]
      refine ⟨fun hm => ?_, fun _ => hnot⟩
      -- the memory ends within the instruction, but a halt is one byte long
      rw [hlength hm, Descriptor.length, hzero (hhalt.1 (hathalt.1 hm))] at hlt
      exact absurd hlt (Nat.lt_irrefl 1)
  · obtain ⟨ds, o, n, hscript, hplays, hhalts, hgoesOn⟩ :=
      action_script (ε := ε) Calm e m.operandRead (m.past m.reads)
    refine ⟨(.changed (.pc (m.state.pc + 1)), fetched m b) :: cs, ds,
      o.map fun _ => (m.state.pc, .ofBytes e m.operandRead), n,
      ⟨?_, ?_, hfs, ⟨fun e' he' _ => ?_, fun hne => ?_⟩, ?_⟩⟩
    · exact (hfetch.along.append hrest.along).append hscript
    · refine .congr (instruction_eq m) (hfetch.plays.bind ?_)
      simp only [hcode]
      exact hrest.plays.bind (hplays.map _)
    · obtain rfl : e = e' := Option.some_inj.1 (hentry.symm.trans he')
      exact ⟨o, n, hplays⟩
    · exact absurd hlen (hne e hentry)
    · refine ⟨fun hm => ?_, fun hm => ?_⟩
      · obtain ⟨hds, rfl⟩ := hhalts (hathalt.1 hm)
        rw [List.map_append, List.map_cons, hfs, hlength hm, hds]
        exact ⟨rfl, _, rfl⟩
      · rw [List.map_append, List.mem_append, not_or]
        exact ⟨hnot, hgoesOn fun ha => hm (hathalt.2 ha)⟩

variable (Calm) in
/-- An instruction tells of its fetches first, and then its action tells its own changes. -/
theorem instruction_script (m : Machine) :
    ∃ fs ds o n, FetchesThenActs (ε := ε) Machine.Script Calm instruction m fs ds o n := by
  cases h : m.memory.get? m.state.pc.toNat with
  | none => exact ⟨_, _, _, _, instruction_unmapped h⟩
  | some b =>
      cases hcode : Catalog.standard.opcode? b.toNat with
      | none => exact ⟨_, _, _, _, instruction_unknown h hcode⟩
      | some e => exact instruction_known h hcode

end Run

/-! ## Steps -/

namespace Machine

/-- At each callback the memory is what replaying the log so far makes of this machine's. -/
def Replays (m : Machine) (cs : List Callback) : Prop :=
  ∀ c ∈ cs, c.2.memory = m.memory.replay c.2.log.toList

end Machine

namespace Run

variable {ε σ α β : Type} {Calm : σ → Prop}

variable (Calm) in
/-- A step is told like its instruction, begun with an empty log. -/
theorem step_script (m : Machine) :
    ∃ fs ds o n, m.Replays (fs ++ ds) ∧
      FetchesThenActs (ε := ε) Machine.Mirrors Calm step { m with log := #[] } fs ds o n := by
  obtain ⟨fs, ds, o, n, hi⟩ :=
    instruction_script (ε := ε) Calm { m with log := #[] }
  have hreplays : m.Replays (fs ++ ds) := by
    intro c hc
    obtain ⟨xs, hlog, hmem⟩ := hi.along.trace c hc
    rw [hlog]
    exact hmem.replayed.symm
  have hstep (notify : Event → Run ε σ Unit) (t : σ) :
      step notify ({ m with log := #[] }, t) =
        (instruction notify >>= fun p => snapshot p.1 p.2) ({ m with log := #[] }, t) := by
    rw [step_eq_instruction]
    rfl
  cases o with
  | error f =>
      exact ⟨fs, ds, .error f, n, hreplays, hi.along.mirrors, .congr hstep hi.plays.bind_error,
        hi.fetches, hi.acts, fun hm => absurd (hi.halts.once hm).2 nofun, hi.halts.never⟩
  | ok p =>
      have hsnap : Plays (ε := ε) Calm (fun _ => snapshot p.1 p.2) n []
          (.ok ⟨n.state, p.2, n.steps + 1,
            { n with log := #[], steps := n.steps + 1 }.symbolInfo p.1 p.2, n.log.toList⟩)
          { n with log := #[], steps := n.steps + 1 } :=
        .of_eq fun _ t => snapshot_eq p.1 p.2 (n, t)
      have hplays := (hi.plays.bind (f := fun _ q => snapshot q.1 q.2) hsnap).congr hstep
      rw [List.append_nil] at hplays
      exact ⟨fs, ds, _, { n with log := #[], steps := n.steps + 1 }, hreplays,
        hi.along.mirrors.of_state rfl rfl, hplays, hi.fetches, hi.acts,
        fun hm => ⟨(hi.halts.once hm).1, _, rfl⟩, hi.halts.never⟩

theorem scripted_step {m : Machine} (hm : ¬m.AtHalt) :
    Scripted (ε := ε) Machine.Mirrors Calm step m := by
  obtain ⟨fs, ds, o, n, -, h⟩ := step_script (ε := ε) Calm m
  exact ⟨fs ++ ds, o, n, h.along.of_state rfl rfl, h.plays.congr fun _ _ => rfl, h.halts.never hm⟩

variable (Calm) in
/-- A run of steps leaves a halt instruction unexecuted and never tells of one. -/
theorem scripted_toEnd (fuel : Nat) (m : Machine) :
    Scripted (ε := ε) Machine.Mirrors Calm (fun notify => toEnd notify fuel) m := by
  induction fuel generalizing m with
  | zero =>
      exact .silent (n := m) (.ok ((m.memory.get? m.state.pc.toNat).isNone ||
        m.memory.get? m.state.pc.toNat == some haltOpcode)) rfl fun _ _ => rfl
  | succ fuel ih =>
      by_cases hend : ((m.memory.get? m.state.pc.toNat).isNone ||
          m.memory.get? m.state.pc.toNat == some haltOpcode) = true
      · refine .silent (n := m) (.ok true) rfl fun notify t => ?_
        simp only [toEnd, atEnd, Bind.bind, EStateM.bind, hend]
        rfl
      · have hm : ¬m.AtHalt := by
          intro hm
          rw [Machine.AtHalt] at hm
          exact hend (by simp [hm])
        refine .congr (fun notify t => ?_)
          ((scripted_step hm).bind Machine.Mirrors.append fun _ n => ih n)
        simp only [toEnd, atEnd, Bind.bind, EStateM.bind, hend]
        rfl

end Run

/-! ## Commands -/

theorem Machine.state_placeGiven (m : Machine) (address : Value) (places : Nat) (vs : List Value) :
    (m.placeGiven address places vs).1.state = m.state := by
  induction vs generalizing m places with
  | nil => rfl
  | cons v vs ih =>
      rw [placeGiven]
      split
      · split
        · split
          · exact ih _ _
          · rfl
        · rfl
      · rfl

namespace Monitor

open Run

/-- The operations of a machine, all but the reset. -/
def Command.isOperation : Command → Bool
  | .place .. | .bytes .. | .readMemory .. | .writeMemory .. | .readPort .. | .writePort ..
  | .pushWord .. | .popWord | .setRegister .. | .register .. | .setFlag .. | .flag .. | .setPair ..
  | .pair .. | .setPc .. | .setSp .. | .setMask .. | .step | .run | .takeLog | .dump
  | .disassemble .. | .registerMap | .flagMap | .layout | .pairs | .setSymbols .. | .symbols => true
  | _ => false

variable {Calm : Desk → Prop} {α : Type}

/-- An answer made of what a run gives. -/
theorem scripted_answer {r : (Event → Act Unit) → Act α} {m : Machine} (g : α → Answer)
    (hr : Scripted Machine.Script Calm r m) :
    Scripted Machine.Mirrors Calm (fun notify => r notify >>= fun x => pure (g x)) m :=
  (hr.mono Machine.Script.mirrors).bind Machine.Mirrors.append fun x _ =>
    .silent (.ok (g x)) rfl fun _ _ => rfl

variable (Calm) in
/-- Every operation but a step has a script without a halt. -/
theorem scripted_perform {c : Command} (hc : c.isOperation = true) (hstep : c ≠ .step)
    (m : Machine) : Scripted Machine.Mirrors Calm (fun notify => perform notify c) m := by
  cases c with
  | place address vs =>
      have hstate := m.state_placeGiven address 0 vs
      cases h : m.placeGiven address 0 vs with
      | mk n e =>
          rw [h] at hstate
          cases e with
          | none =>
              refine .silent (.ok .done) hstate fun notify t => ?_
              simp only [perform, Bind.bind, EStateM.bind, place, h]
              rfl
          | some e =>
              refine .silent (.error (.bus e)) hstate fun notify t => ?_
              simp only [perform, Bind.bind, EStateM.bind, place, h]
              rfl
  | bytes address length =>
      cases h : m.bytesGiven address length.toNat with
      | ok bs =>
          refine .silent (n := m) (.ok (.bytes bs)) rfl fun notify t => ?_
          simp only [perform, Bind.bind, EStateM.bind, Run.machine, h]
          rfl
      | error e =>
          refine .silent (n := m) (.error (.bus e)) rfl fun notify t => ?_
          simp only [perform, Bind.bind, EStateM.bind, Run.machine, h]
          rfl
  | disassemble address length =>
      cases h : m.disassembleGiven address length with
      | ok rows =>
          refine .silent (n := m) (.ok (.rows rows)) rfl fun notify t => ?_
          simp only [perform, Bind.bind, EStateM.bind, Run.machine, h]
          rfl
      | error e =>
          refine .silent (n := m) (.error (.bus e)) rfl fun notify t => ?_
          simp only [perform, Bind.bind, EStateM.bind, Run.machine, h]
          rfl
  | setSymbols entries =>
      cases h : entries.all (·.2.isKey) with
      | true =>
          refine .silent (n := { m with symbols := .ofList entries }) (.ok .done) rfl fun _ t => ?_
          simp only [perform, Bind.bind, EStateM.bind, Run.modifyMachine, h]
          rfl
      | false =>
          refine .silent (n := { m with symbols := .ofList entries }) (.error (.raised .wrongKind))
            rfl fun _ t => ?_
          simp only [perform, Bind.bind, EStateM.bind, Run.modifyMachine, h]
          rfl
  | readMemory a => exact scripted_answer _ (scripted_readMemory _ m)
  | writeMemory a v => exact scripted_answer (fun _ => .done) (scripted_writeMemory _ _ m)
  | readPort port => exact scripted_answer _ (scripted_readPort _ m)
  | writePort port v => exact scripted_answer (fun _ => .done) (scripted_writePort _ _ m)
  | pushWord v =>
      exact scripted_answer (fun _ => .done) (scripted_micro (Micro.neverHalts_pushWord _) m)
  | popWord => exact scripted_answer _ (scripted_micro Micro.neverHalts_popWord m)
  | setRegister r v => exact scripted_answer (fun _ => .done) (scripted_assign _ m)
  | setFlag f v => exact scripted_answer (fun _ => .done) (scripted_assign _ m)
  | setPair p v =>
      exact scripted_answer (fun _ => .done) (scripted_micro (Micro.neverHalts_assignAll _) m)
  | setPc v => exact scripted_answer (fun _ => .done) (scripted_assign _ m)
  | setSp v => exact scripted_answer (fun _ => .done) (scripted_assign _ m)
  | setMask v => exact scripted_answer (fun _ => .done) (scripted_assign _ m)
  | run =>
      exact (scripted_toEnd Calm patience m).bind Machine.Mirrors.append fun _ _ =>
        .silent (.ok .done) rfl fun _ _ => rfl
  | takeLog =>
      exact .silent (n := { m with log := #[] }) (.ok (.text (Access.listText m.log.toList))) rfl
        fun _ _ => rfl
  | register | flag | pair | registerMap | flagMap | pairs =>
      exact scripted_answer _ (scripted_state m)
  | dump | symbols => exact scripted_answer _ (scripted_machine m)
  | layout => exact .silent (n := m) (.ok (.layout registerLayout)) rfl fun _ _ => rfl
  | step => exact absurd rfl hstep
  | _ => exact absurd hc Bool.false_ne_true

end Monitor

/-! ## Watchers that only observe -/

namespace Run

variable {ε σ κ : Type} {Calm : σ → Prop}

/-- Watchers told one after the other observe if each of them does. -/
theorem observing_forM {call : κ → Event → Run ε σ Unit} (h : ∀ k, Observing (call k) Calm)
    (ks : List κ) : Observing (fun e => ks.forM fun k => call k e) Calm := by
  induction ks with
  | nil => exact fun _ m t ht => .inl ⟨t, ht, rfl⟩
  | cons k ks ih =>
      intro e m t ht
      have hcons : (k :: ks).forM (fun k => call k e) =
          (call k e >>= fun _ => ks.forM fun k => call k e) := rfl
      simp only [hcons, Bind.bind, EStateM.bind]
      rcases h k e m t ht with ⟨u, hu, hk⟩ | ⟨f, u, hk⟩
      · rw [hk]
        exact ih e m u hu
      · rw [hk]
        exact .inr ⟨f, u, rfl⟩

theorem observing_tell {watches : σ → Watches κ} {call : κ → Event → Run ε σ Unit}
    (h : ∀ k, Observing (call k) Calm) : Observing (Watches.tell watches call) Calm :=
  fun e m t ht => observing_forM h ((watches t).watchersOf e) e m t ht

end Run

namespace Monitor

open Run

/-- No watcher reacts with a command: they do nothing or fail. -/
def Desk.Passive (d : Desk) : Prop :=
  ∀ id w, d.watcher? id = some w → ∀ c, w.reaction ≠ .perform c

theorem observing_call (tell : Event → Act Unit) (id : String) :
    Observing (call tell id) Desk.Passive := by
  intro e m d hd
  simp only [call, Bind.bind, EStateM.bind, Run.watchers]
  cases hw : d.watcher? id with
  | none => exact .inl ⟨d, hd, rfl⟩
  | some w =>
      cases htext : e.textAs w.topic with
      | error f => exact .inr ⟨.raised (.untold f), d, by simp only [htext]; rfl⟩
      | ok text =>
          -- the call is noted, which changes no watcher
          have hd' : Desk.Passive { d with calls := d.calls.push (id ++ ":" ++ text) } := hd
          cases hr : w.reaction with
          | nothing => exact .inl ⟨_, hd', by simp only [htext, hr]; rfl⟩
          | fail message =>
              exact .inr ⟨.raised (.raised message), _, by simp only [htext, hr]; rfl⟩
          | perform c => exact absurd hr (hd id w hw c)

/-- The watchers of a session only observe as long as none of them reacts with a command. -/
theorem observing_notify (depth : Nat) : Observing (notify depth) Desk.Passive := by
  cases depth with
  | zero => exact observing_tell fun _ _ m d _ => .inr ⟨_, d, rfl⟩
  | succ depth => exact observing_tell (observing_call (notify depth))

end Monitor

/-! ## The mirror -/

namespace Run

variable {ε σ α : Type} {Calm : σ → Prop}

/-- An operation on a machine as it is mirrored by its callbacks `cs`, whoever observes it. -/
structure Mirrored (Calm : σ → Prop) (r : (Event → Run ε σ Unit) → Run ε σ α) (m : Machine)
    (cs : List Callback) (o : Except (Fault ε) α) (n : Machine) : Prop where
  /-- At every callback and at the end the state is that of the mirror. -/
  mirrors : m.Mirrors cs n
  /-- All callbacks are made, and the operation returns or fails as it does without watchers; or one
      of them fails, and the operation ends with that failure, on the machine as it is there. -/
  told : ∀ notify, Observing notify Calm → ∀ t, Calm t →
    (∃ u, Told notify cs t u ∧ r notify (m, t) = ended o n u ∧
      n.state = m.state.followAll (cs.map Prod.fst)) ∨
    ∃ cs₁ e k cs₂ u f v, cs = cs₁ ++ (e, k) :: cs₂ ∧ Told notify cs₁ t u ∧
      notify e (k, u) = .error f (k, v) ∧ r notify (m, t) = .error f (k, v) ∧
      k.state = m.state.followAll (cs₁.map Prod.fst ++ [e])

theorem Mirrored.of_plays {r : (Event → Run ε σ Unit) → Run ε σ α} {m n : Machine}
    {cs : List Callback} {o : Except (Fault ε) α} (hm : m.Mirrors cs n)
    (hr : Plays Calm r m cs o n) : Mirrored Calm r m cs o n where
  mirrors := hm
  told notify hobs t ht := by
    rw [hr notify hobs t ht]
    rcases play_cases hobs (ended o n) cs ht with
      ⟨u, htold, hend⟩ | ⟨cs₁, e, k, cs₂, u, f, v, rfl, htold, hfail, hend⟩
    · exact .inl ⟨u, htold, hend, hm.end_eq⟩
    · exact .inr ⟨cs₁, e, k, cs₂, u, f, v, rfl, htold, hfail, hend, hm.callback_eq⟩

/-- Events mirror the state of the machine under watchers that only observe. -/
theorem perform_mirrored {Calm : σ → Prop} {Quiet : Monitor.Desk → Prop} (m : Machine) :
    -- in a step the fetches are told first, then what the action does; a halt is told once and
    -- last; and the log leads from the memory before the step to that at every callback
    (∃ fs ds o n, Mirrored (ε := ε) Calm step m (fs ++ ds) o n ∧ m.Replays (fs ++ ds) ∧
      fs.map Prod.fst = Event.fetches m.state.pc m.reads.length ∧
      ActsBy ε Calm { m with log := #[] } ds ∧ TellsHalt m (fs ++ ds) o) ∧
    -- a run of steps tells of no halt
    (∀ fuel, ∃ cs o n, Mirrored (ε := ε) Calm (fun notify => toEnd notify fuel) m cs o n ∧
      Event.halted ∉ cs.map Prod.fst) ∧
    -- of the operations only a step may tell of one
    ∀ c : Monitor.Command, c.isOperation = true →
      ∃ cs o n, Mirrored Quiet (fun notify => Monitor.perform notify c) m cs o n ∧
        (Event.halted ∈ cs.map Prod.fst → c = .step ∧ m.AtHalt) := by
  refine ⟨?_, fun fuel => ?_, fun c hc => ?_⟩
  · obtain ⟨fs, ds, o, n, hreplays, h⟩ := step_script (ε := ε) Calm m
    exact ⟨fs, ds, o, n, .of_plays (h.along.of_state rfl rfl) (h.plays.congr fun _ _ => rfl),
      hreplays, h.fetches, h.acts, h.halts.once, h.halts.never⟩
  · obtain ⟨cs, o, n, h⟩ := scripted_toEnd (ε := ε) Calm fuel m
    exact ⟨cs, o, n, .of_plays h.along h.plays, h.goesOn⟩
  · by_cases hstep : c = .step
    · subst hstep
      obtain ⟨fs, ds, o, n, -, h⟩ := step_script (ε := Failure) Quiet m
      have hplays := h.plays.congr (r := step) (m := m) fun _ _ => rfl
      exact ⟨fs ++ ds, _, n, .of_plays (h.along.of_state rfl rfl)
        (hplays.map fun s => Monitor.Answer.snapshot (some s)),
        fun hhalt => ⟨rfl, Classical.byContradiction fun hm => h.halts.never hm hhalt⟩⟩
    · obtain ⟨cs, o, n, h⟩ := Monitor.scripted_perform Quiet hc hstep m
      exact ⟨cs, o, n, .of_plays h.along h.plays, fun hhalt => absurd hhalt h.goesOn⟩

/-- The events that were written down in a run. -/
def recorded : EStateM.Result (Fault Empty) (Machine × Array Event) α → List Event
  | .ok _ s => s.2.toList
  | .error _ s => s.2.toList

theorem observing_recordEvent : Observing Trial.recordEvent fun _ => True :=
  fun e _ es _ => .inl ⟨es.push e, trivial, rfl⟩

/-- Events that are told are written down in order. -/
theorem Told.recordEvent {cs : List Callback} {es es' : Array Event}
    (h : Told Trial.recordEvent cs es es') : es'.toList = es.toList ++ cs.map Prod.fst := by
  induction h with
  | nil => exact (List.append_nil _).symm
  | @cons e m cs es es' es'' he h ih =>
      cases he
      rw [ih, Array.toList_push, List.append_assoc]
      rfl

/-- One byte of memory with ADC B, which here sets the carry and then clears it. -/
def carrying : Machine where
  state := { registers := { a := 0xFF, b := 0x01 } }
  memory := ⟨#[0x88]⟩

/-- The carry is told of twice; the events lead to the registers and flags after the step. -/
theorem carrying_mirrored :
    let r := step Trial.recordEvent (carrying, #[])
    recorded r = [.changed (.pc 1), .changed (.flag .ac true), .changed (.flag .c true),
      .changed (.register .a 0), .changed (.flag .p true), .changed (.flag .z true),
      .changed (.flag .c false)] ∧
    (left r).state = carrying.state.followAll (recorded r) ∧
    ∃ cs o n, Mirrored Monitor.Desk.Passive
      (fun notify => Monitor.perform notify (.setPc (-1))) carrying cs o n := by
  obtain ⟨⟨fs, ds, o, n, hstep, -⟩, -, hcommands⟩ :=
    @perform_mirrored Empty (Array Event) (fun _ => True) Monitor.Desk.Passive carrying
  refine ⟨by decide +kernel, ?_, ?_⟩
  · rcases hstep.told Trial.recordEvent observing_recordEvent #[] trivial with
      ⟨u, htold, hend, hn⟩ | ⟨cs₁, e, k, cs₂, u, f, v, -, -, hfail, -⟩
    · have hu : u.toList = (fs ++ ds).map Prod.fst := htold.recordEvent
      rw [hend]
      cases o <;> exact hn.trans (congrArg _ hu.symm)
    · cases hfail
  · obtain ⟨cs, o, n, h, -⟩ := hcommands (.setPc (-1)) rfl
    exact ⟨cs, o, n, h⟩

end Run

end Lab8085
