/-
  Lab8085.Proofs.Machine.Decoding

  The disassembler and the engine decode the same instruction.

  A step is a decoding, `Run.decode`, and then the execution of what was decoded
  (`step_eq_decode`).  The decoding finds what the disassembler would find in a memory
  that is seen through word addresses, `Machine.wrapped?`, where address 0 follows FFFFh.
  Both views of a memory hold the same bytes up to FFFFh, so the two differ only where an
  instruction runs past that address: the disassembler finds no memory there.
-/
import Lab8085.Proofs.Disassembly
import Lab8085.Proofs.Machine.Fault
import Lab8085.Proofs.Machine.Trace

namespace Lab8085

/-- The bytes of an operation in hexadecimal: the opcode and the operand bytes. -/
def Operation.dump (o : Operation) : String :=
  " ".intercalate ((o.opcode :: o.bytes).map (Text.hex 2))

/-- A row as it is shown: the address, the bytes and the text. -/
def Row.shown (r : Row) : Int × String × String :=
  (r.address, r.dump, r.text)

/-! ## Two views of a memory -/

/-- A word is the address that it stands for. -/
theorem ofInt_toNat (w : Word) : BitVec.ofInt 16 w.toNat = w := by
  rw [BitVec.ofInt_natCast, BitVec.ofNat_toNat, BitVec.setWidth_eq]

namespace Machine

/-- The byte that the engine finds at an address, of which it keeps the last sixteen bits. -/
def wrapped? (m : Machine) (address : Int) : Option Byte :=
  m.memory.get? (BitVec.ofInt 16 address).toNat

variable {m : Machine} {address : Int}

theorem wrapped?_toNat (m : Machine) (w : Word) : m.wrapped? w.toNat = m.memory.get? w.toNat := by
  rw [wrapped?, ofInt_toNat]

/-- Below the end of the address space both views are the same. -/
theorem wrapped?_eq_peek? (hpos : 0 ≤ address) (hend : address < 0x10000) :
    m.wrapped? address = m.peek? address := by
  have hnat : (BitVec.ofInt 16 address).toNat = address.toNat := by
    rw [BitVec.toNat_ofInt]
    omega
  rw [wrapped?, peek?, if_pos hpos, hnat]

/-- The engine sees the address space over and over. -/
theorem wrapped?_eq_peek?_emod (m : Machine) (address : Int) :
    m.wrapped? address = m.peek? (address % 0x10000) := by
  have hword : BitVec.ofInt 16 address = BitVec.ofInt 16 (address % 0x10000) := by
    apply BitVec.eq_of_toNat_eq
    rw [BitVec.toNat_ofInt, BitVec.toNat_ofInt]
    omega
  rw [← wrapped?_eq_peek? (by omega) (by omega), wrapped?, wrapped?, hword]

/-- There is no memory past the last word address. -/
theorem peek?_past (hm : m.size ≤ maxMemory) (h : 0x10000 ≤ address) : m.peek? address = none := by
  rw [size, maxMemory] at hm
  have hnone := mt Memory.get?_isSome.1 (show ¬address.toNat < m.memory.size by omega)
  rw [peek?, if_pos (by omega)]
  exact Option.not_isSome_iff_eq_none.1 hnone

end Machine

namespace Disassembly

variable {m : Machine} {address : Int}

/-- The bytes of a range that the engine sees depend on the address as a word. -/
theorem peekBytes_wrapped_congr (m : Machine) {a b : Int}
    (h : BitVec.ofInt 16 a = BitVec.ofInt 16 b) (n : Nat) :
    peekBytes m.wrapped? a n = peekBytes m.wrapped? b n := by
  induction n generalizing a b with
  | zero => rfl
  | succ n ih =>
      have hnext : BitVec.ofInt 16 (a + 1) = BitVec.ofInt 16 (b + 1) := by
        rw [BitVec.ofInt_add, BitVec.ofInt_add, h]
      rw [peekBytes_succ, peekBytes_succ, Machine.wrapped?, Machine.wrapped?, h, ih hnext]

/-- The disassembler finds what the engine sees, except for an instruction that runs past the end
    of the address space: some of its bytes are missing. -/
theorem contentAt_peek? (hm : m.size ≤ maxMemory) (hpos : 0 ≤ address) (hend : address < 0x10000) :
    contentAt m.peek? address =
      if address + (rowAt m.wrapped? address).length ≤ 0x10000 then
        contentAt m.wrapped? address else .missing := by
  have hfirst := Machine.wrapped?_eq_peek? (m := m) hpos hend
  have hone : address + (1 : Nat) ≤ 0x10000 := hend
  cases hb : m.peek? address with
  | none =>
      rw [rowAt, contentAt_none hb, contentAt_none (hfirst.trans hb), Row.length, if_pos hone]
  | some b =>
      cases he : Catalog.standard.opcode? b.toNat with
      | none =>
          rw [rowAt, contentAt_data hb he, contentAt_data (hfirst.trans hb) he, Row.length,
            if_pos hone]
      | some e =>
          rw [rowAt, contentAt_opcode hb he, contentAt_opcode (hfirst.trans hb) he]
          by_cases hfits : address + (1 + e.descriptor.kind.extraBytes : Nat) ≤ 0x10000
          · have hsame : peekBytes m.peek? (address + 1) e.descriptor.kind.extraBytes =
                peekBytes m.wrapped? (address + 1) e.descriptor.kind.extraBytes :=
              peekBytes_congr fun x hlow hhigh =>
                (Machine.wrapped?_eq_peek? (by omega) (by omega)).symm
            rw [hsame]
            cases peekBytes m.wrapped? (address + 1) e.descriptor.kind.extraBytes with
            | none => exact (if_pos hone).symm
            | some bs => exact (if_pos hfits).symm
          · have hnone : peekBytes m.peek? (address + 1) e.descriptor.kind.extraBytes = none :=
              peekBytes_none (by omega) (by omega) (Machine.peek?_past hm (Int.le_refl 0x10000))
            rw [hnone]
            cases peekBytes m.wrapped? (address + 1) e.descriptor.kind.extraBytes with
            | none => exact (if_pos hone).symm
            | some bs => exact (if_neg hfits).symm

/-- An instruction that the engine sees running past the end of the address space goes on at
    address zero, and memory is installed everywhere. -/
theorem operands_past (hm : m.size ≤ maxMemory) (hend : address < 0x10000) {b : Byte}
    {bs : List Byte} {o : Operation}
    (h : contentAt m.wrapped? address = .instruction (b :: bs) o)
    (hpast : 0x10000 < address + o.length) :
    m.size = maxMemory ∧
      ∀ i (hi : i < bs.length), m.peek? ((address + 1 + i) % 0x10000) = some bs[i] := by
  obtain ⟨_, e, _, ⟨rfl, rfl⟩, -, -, -, hbytes⟩ := contentAt_instruction h
  obtain ⟨-, hget⟩ := get_of_peekBytes hbytes
  rw [← length_of_contentAt h] at hpast
  simp only [Machine.wrapped?_eq_peek?_emod] at hget
  refine ⟨?_, fun i hi => ?_⟩
  · -- one of the bytes is at the last address
    have hi : (0xFFFF - address).toNat < (b :: bs).length := by omega
    have hffff := hget _ hi
    have haddress : (address + (0xFFFF - address).toNat) % 0x10000 = 0xFFFF := by omega
    rw [haddress, Machine.peek?, if_pos (by decide)] at hffff
    have hinstalled := Memory.get?_isSome.1 (Option.isSome_of_eq_some hffff)
    rw [Machine.size, maxMemory] at *
    exact Nat.le_antisymm hm hinstalled
  · have hnext : address + (i + 1 : Nat) = address + 1 + i := by omega
    have hbyte := hget (i + 1) (Nat.succ_lt_succ hi)
    rw [hnext] at hbyte
    exact hbyte

end Disassembly

/-! ## Decoding -/

namespace Run

variable {ε σ α β : Type}

/-- What a step does before it carries out an instruction: it fetches the opcode, looks it up and
    fetches the bytes that belong to it. -/
def decode (notify : Event → Run ε σ Unit) : Run ε σ (Entry × List Byte) := do
  let opcode ← Micro.fetch.run notify
  match Catalog.standard.opcode? opcode.toNat with
  | none => throw (.unknownOpcode opcode ((← state).pc - 1))
  | some e => return (e, ← (Micro.fetchBytes e.descriptor.kind.extraBytes).run notify)

/-- What a step does with the instruction that it has decoded: it carries it out and takes the
    snapshot. -/
def execute (notify : Event → Run ε σ Unit) (start : Word) (e : Entry) (bytes : List Byte) :
    Run ε σ Snapshot := do
  (e.effect bytes).run notify
  snapshot start (Operation.ofBytes e bytes)

/-- A step decodes and executes. -/
theorem step_eq_decode (notify : Event → Run ε σ Unit) (s : Machine × σ) :
    step notify s = (decode notify >>= fun p => execute notify s.1.state.pc p.1 p.2)
      ({ s.1 with log := #[] }, s.2) := by
  have hstep : step notify s = (Micro.fetch.run notify >>= fun b =>
      match Catalog.standard.opcode? b.toNat with
      | none => state >>= fun t => throw (.unknownOpcode b (t.pc - 1))
      | some e =>
        (Micro.fetchBytes e.descriptor.kind.extraBytes).run notify >>= fun bytes =>
          execute notify s.1.state.pc e bytes) ({ s.1 with log := #[] }, s.2) := rfl
  rw [hstep, decode, bind_assoc]
  refine congrFun ?_ _
  congr 1
  funext b
  cases Catalog.standard.opcode? b.toNat with
  | none => rfl
  | some e => simp

theorem step_of_decoded {notify : Event → Run ε σ Unit} {s s' : Machine × σ} {e : Entry}
    {bs : List Byte} (h : decode notify ({ s.1 with log := #[] }, s.2) = .ok (e, bs) s') :
    step notify s = execute notify s.1.state.pc e bs s' := by
  rw [step_eq_decode, bind_of_ok h]

theorem step_of_undecoded {notify : Event → Run ε σ Unit} {s s' : Machine × σ} {f : Fault ε}
    (h : decode notify ({ s.1 with log := #[] }, s.2) = .error f s') :
    step notify s = .error f s' := by
  rw [step_eq_decode, bind_of_error h]

/-- A run that leaves the machine alone and fails only in the ways that watchers have. -/
def Reports (r : Run ε σ Unit) : Prop :=
  ∀ m t, ∃ u, r (m, t) = .ok () (m, u) ∨ ∃ e, r (m, t) = .error (.raised e) (m, u)

/-- The end of a run that looks for something in memory: it is found, memory is missing, or a
    watcher fails before. -/
inductive Finds : EStateM.Result (Fault ε) (Machine × σ) α → Option α → Prop where
  | found {x : α} {s : Machine × σ} : Finds (.ok x s) (some x)
  | outside {a : Word} {s : Machine × σ} : Finds (.error (.outsideMemory a .read) s) none
  | raised {e : ε} {s : Machine × σ} {found : Option α} : Finds (.error (.raised e) s) found

theorem Finds.map {r : Run ε σ α} {s : Machine × σ} {found : Option α} (h : Finds (r s) found)
    (f : α → β) : Finds ((r >>= fun x => pure (f x)) s) (found.map f) := by
  cases hr : r s with
  | ok x t =>
      rw [hr] at h
      cases h
      rw [bind_of_ok hr]
      exact .found
  | error e t =>
      rw [hr] at h
      rw [bind_of_error hr]
      cases h with
      | outside => exact .outside
      | raised => exact .raised

/-- Past a fetched byte the engine sees the bytes from the next address on, as a word. -/
theorem peekBytes_fetched (m : Machine) (b : Byte) (n : Nat) :
    Disassembly.peekBytes m.wrapped? (m.state.pc.toNat + 1) n =
      Disassembly.peekBytes (fetched m b).wrapped? (fetched m b).state.pc.toNat n := by
  refine Disassembly.peekBytes_wrapped_congr m ?_ n
  change _ = BitVec.ofInt 16 ((m.state.pc + 1).toNat : Int)
  rw [BitVec.ofInt_add, ofInt_toNat, ofInt_toNat]
  rfl

variable {notify : Event → Run ε σ Unit}

/-- A fetch reads the byte at the program counter, which moves on. -/
theorem fetch_reported (hw : ∀ e, Reports (notify e)) (m : Machine) (t : σ) :
    (m.memory.get? m.state.pc.toNat = none ∧
      Micro.fetch.run notify (m, t) = .error (.outsideMemory m.state.pc .read) (m, t)) ∨
    ∃ b u, m.memory.get? m.state.pc.toNat = some b ∧
      (Micro.fetch.run notify (m, t) = .ok b (fetched m b, u) ∨
        ∃ e, Micro.fetch.run notify (m, t) = .error (.raised e) (fetched m b, u)) := by
  cases hget : m.memory.get? m.state.pc.toNat with
  | none =>
      refine .inl ⟨rfl, ?_⟩
      simp only [Micro.fetch, Micro.run, Micro.Request.run, Micro.state, Micro.read, Bind.bind,
        Micro.bind, EStateM.bind, state, readMemory, hget]
  | some b =>
      have hrun : Micro.fetch.run notify (m, t) =
          (notify (.changed (.pc (m.state.pc + 1))) >>= fun _ => pure b) (fetched m b, t) := by
        have hnew : (m.state.pc == m.state.pc + 1) = false := by
          rw [beq_eq_false_iff_ne]
          bv_omega
        simp only [Micro.fetch, Micro.run, Micro.Request.run, Micro.state, Micro.read, Micro.setPc,
          Micro.assign, Micro.bind, Bind.bind, EStateM.bind, state, readMemory, hget, assign,
          Machine.record, State.holds, hnew]
        rfl
      obtain ⟨u, hok | ⟨e, herror⟩⟩ := hw (.changed (.pc (m.state.pc + 1))) (fetched m b) t
      · exact .inr ⟨b, u, rfl, .inl (hrun.trans (bind_of_ok hok _))⟩
      · exact .inr ⟨b, u, rfl, .inr ⟨e, hrun.trans (bind_of_error herror _)⟩⟩

/-- The bytes of an instruction are those that the engine sees from the program counter on. -/
theorem fetchBytes_finds (hw : ∀ e, Reports (notify e)) (n : Nat) (m : Machine) (t : σ) :
    Finds ((Micro.fetchBytes n).run notify (m, t))
      (Disassembly.peekBytes m.wrapped? m.state.pc.toNat n) := by
  induction n generalizing m t with
  | zero => exact .found
  | succ n ih =>
      have hrun : (Micro.fetchBytes (n + 1)).run notify =
          (Micro.fetch.run notify >>= fun b => (Micro.fetchBytes n).run notify >>= fun bs =>
            pure (b :: bs)) := by
        rw [Micro.fetchBytes, run_bind]
        congr 1
        funext b
        exact run_bind _ _
      rw [hrun, Disassembly.peekBytes_succ, m.wrapped?_toNat]
      rcases fetch_reported hw m t with ⟨hget, hfetch⟩ | ⟨b, u, hget, hfetch | ⟨e, hfetch⟩⟩
      · rw [hget, bind_of_error hfetch]
        exact .outside
      · rw [hget, bind_of_ok hfetch, peekBytes_fetched m b]
        exact (ih (fetched m b) u).map _
      · rw [bind_of_error hfetch]
        exact .raised

/-- The end of a decoding, and what is found in memory where it started. -/
inductive Decodes (start : Word) :
    EStateM.Result (Fault ε) (Machine × σ) (Entry × List Byte) → RowContent → Prop where
  | instruction {b : Byte} {e : Entry} {bs : List Byte} {s : Machine × σ}
      (he : Catalog.standard.opcode? b.toNat = some e) :
      Decodes start (.ok (e, bs) s) (.instruction (b :: bs) (Operation.ofBytes e bs))
  | unknown {b : Byte} {s : Machine × σ} :
      Decodes start (.error (.unknownOpcode b start) s) (.data b)
  | missing {a : Word} {s : Machine × σ} :
      Decodes start (.error (.outsideMemory a .read) s) .missing
  | raised {e : ε} {s : Machine × σ} {c : RowContent} :
      Decodes start (.error (.raised e) s) c

/-- Where an instruction is found and no watcher fails, it is decoded. -/
theorem Decodes.eq_ok {start : Word} {c : RowContent} {b : Byte} {bs : List Byte} {o : Operation}
    {r : EStateM.Result (Fault ε) (Machine × σ) (Entry × List Byte)} (h : Decodes start r c)
    (hc : c = .instruction (b :: bs) o) (hr : ∀ e s, r ≠ .error (.raised e) s) :
    ∃ e s, r = .ok (e, bs) s ∧ Catalog.standard.opcode? b.toNat = some e := by
  cases h with
  | @instruction b e bs s he =>
      cases hc
      exact ⟨e, s, rfl, he⟩
  | unknown => cases hc
  | missing => cases hc
  | @raised e s => exact absurd rfl (hr e s)

/-- An opcode is decoded with its bytes. -/
theorem Finds.decodes {start : Word} {b : Byte} {e : Entry} {found : Option (List Byte)}
    (he : Catalog.standard.opcode? b.toNat = some e)
    {r : EStateM.Result (Fault ε) (Machine × σ) (Entry × List Byte)}
    (h : Finds r (found.map fun bs => (e, bs))) :
    Decodes start r
      (found.elim .missing fun bs => .instruction (b :: bs) (Operation.ofBytes e bs)) := by
  cases found with
  | none =>
      cases h with
      | outside => exact .missing
      | raised => exact .raised
  | some bs =>
      cases h with
      | found => exact .instruction he
      | raised => exact .raised

/-- The engine decodes what it sees at the program counter. -/
theorem decode_decodes (hw : ∀ e, Reports (notify e)) (m : Machine) (t : σ) :
    Decodes m.state.pc (decode notify (m, t))
      (Disassembly.contentAt m.wrapped? m.state.pc.toNat) := by
  have hpc := m.wrapped?_toNat m.state.pc
  rw [decode]
  rcases fetch_reported hw m t with ⟨hget, hfetch⟩ | ⟨b, u, hget, hfetch | ⟨e, hfetch⟩⟩
  · rw [bind_of_error hfetch, Disassembly.contentAt_none (hpc.trans hget)]
    exact .missing
  · rw [bind_of_ok hfetch]
    cases he : Catalog.standard.opcode? b.toNat with
    | none =>
        have hstart : (fetched m b).state.pc - 1 = m.state.pc := BitVec.add_sub_cancel _ _
        rw [Disassembly.contentAt_data (hpc.trans hget) he, ← hstart]
        exact .unknown
    | some e =>
        rw [Disassembly.contentAt_opcode (hpc.trans hget) he, peekBytes_fetched m b]
        exact Finds.decodes he ((fetchBytes_finds hw _ (fetched m b) u).map fun bs => (e, bs))
  · rw [bind_of_error hfetch]
    exact .raised

/-! ## Execution -/

/-- A run that never comes upon an unknown opcode. -/
def Knows (r : Run ε σ α) : Prop :=
  ∀ s b a s', r s ≠ .error (.unknownOpcode b a) s'

theorem Knows.bind {r : Run ε σ α} {f : α → Run ε σ β} (hr : Knows r) (hf : ∀ x, Knows (f x)) :
    Knows (r >>= f) := by
  intro s b a s' h
  rcases error_of_bind h with h | ⟨x, t, -, h⟩
  · exact hr s b a s' h
  · exact hf x t b a s' h

theorem Reports.knows {r : Run ε σ Unit} (h : Reports r) : Knows r := by
  intro s b a s' hr
  obtain ⟨u, hu | ⟨e, hu⟩⟩ := h s.1 s.2
  · exact nomatch hr.symm.trans hu
  · exact nomatch hr.symm.trans hu

theorem knows_request (hw : ∀ e, Reports (notify e)) (r : Micro.Request) : Knows (r.run notify) := by
  intro s b a s' h
  cases r with
  | state | input | output => cases h
  | assign c =>
      simp only [Micro.Request.run, assign] at h
      split at h
      · cases h
      · exact (hw _).knows _ b a s' h
  | read address =>
      simp only [Micro.Request.run, readMemory] at h
      split at h <;> cases h
  | write address v =>
      simp only [Micro.Request.run, writeMemory] at h
      split at h <;> cases h
  | halted => exact (hw _).knows s b a s' h

theorem knows_micro (hw : ∀ e, Reports (notify e)) (p : Micro α) : Knows (p.run notify) := by
  induction p with
  | done x => exact fun _ _ _ _ => nofun
  | ask r next ih => exact (knows_request hw r).bind ih

/-- What a step decodes it knows how to carry out. -/
theorem knows_execute (hw : ∀ e, Reports (notify e)) (start : Word) (e : Entry)
    (bs : List Byte) : Knows (execute notify start e bs) :=
  (knows_micro hw _).bind fun _ _ _ _ _ => nofun

/-- The snapshot of an execution names the instruction. -/
theorem operation_of_execute {start : Word} {e : Entry} {bs : List Byte} {s s' : Machine × σ}
    {x : Snapshot} (h : execute notify start e bs s = .ok x s') :
    x.operation = Operation.ofBytes e bs := by
  rw [execute] at h
  cases hr : (e.effect bs).run notify s with
  | ok y t =>
      rw [bind_of_ok hr, snapshot_eq] at h
      cases h
      rfl
  | error f t =>
      rw [bind_of_error hr] at h
      cases h

end Run

/-! ## Rows and steps -/

namespace Row

theorem shown_data (address : Int) (b : Byte) :
    (Row.mk address (.data b)).shown =
      (address, Text.hex 2 b.toNat, "DB " ++ Text.hex 2 b.toNat ++ "h") := by
  simp [shown, dump, text, bytes, Text.hex_two_byte]

/-- An instruction is shown as in a snapshot. -/
theorem shown_instruction {b : Byte} {e : Entry}
    (he : Catalog.standard.opcode? b.toNat = some e) (address : Int) (bs : List Byte) :
    (Row.mk address (.instruction (b :: bs) (Operation.ofBytes e bs))).shown =
      (address, (Operation.ofBytes e bs).dump, (Operation.ofBytes e bs).text) := by
  have hopcode : e.opcode = b.toNat :=
    beq_iff_eq.1 (List.find?_some (p := fun e : Entry => e.opcode == b.toNat) he)
  have hbytes : (b :: bs).map (fun x => String.ofList (Text.hexByte x)) =
      ((b :: bs).map fun x => (x.toNat : Int)).map (Text.hex 2) := by
    rw [List.map_map]
    exact List.map_congr_left fun x _ => (Text.hex_two_byte x).symm
  have hdump : (Row.mk address (.instruction (b :: bs) (Operation.ofBytes e bs))).dump =
      (Operation.ofBytes e bs).dump := by
    simp only [dump, bytes, Operation.dump, Operation.ofBytes, Operation.make, hopcode]
    exact congrArg _ hbytes
  rw [shown, hdump]
  rfl

end Row

namespace Run

variable {ε σ : Type} {notify : Event → Run ε σ Unit}

/-- **The disassembler and the engine decode the same instruction.** -/
theorem step_decoded (hw : ∀ e, Reports (notify e)) {m : Machine} (hm : m.size ≤ maxMemory)
    (t : σ) :
    let p : Int := m.state.pc.toNat
    let d := decode notify ({ m with log := #[] }, t)
    let r := step notify (m, t)
    ∃ row, m.disassemble p 1 = [row] ∧
      -- an unknown opcode is shown as data
      (∀ b a s, r = .error (.unknownOpcode b a) s →
        row.shown = (p, Text.hex 2 b.toNat, "DB " ++ Text.hex 2 b.toNat ++ "h")) ∧
      -- where memory is missing for the opcode or an operand byte, the row says so
      (∀ a k s, d = .error (.outsideMemory a k) s →
        r = .error (.outsideMemory a k) s ∧ row.shown = (p, "??", "ERR")) ∧
      -- an instruction that is decoded is then executed
      (∀ e bs s, d = .ok (e, bs) s →
        let o := Operation.ofBytes e bs
        bs.length + 1 = o.length ∧ r = execute notify m.state.pc e bs s ∧
          (∀ x s', r = .ok x s' → x.operation = o) ∧
          -- and it is the one that the row shows
          (p + o.length ≤ 0x10000 → row.shown = (p, o.dump, o.text)) ∧
          -- unless it runs past the end of the address space and goes on at address zero
          (0x10000 < p + o.length → m.size = maxMemory ∧ row.shown = (p, "??", "ERR") ∧
            ∀ i (hi : i < bs.length), m.peek? ((p + 1 + i) % 0x10000) = some bs[i])) ∧
      -- besides, a watcher can fail during the fetches
      ((∃ b s, r = .error (.unknownOpcode b m.state.pc) s) ∨
        (∃ a k s, d = .error (.outsideMemory a k) s) ∨ (∃ e bs s, d = .ok (e, bs) s) ∨
        ∃ e s, d = .error (.raised e) s ∧ r = .error (.raised e) s) := by
  intro p d r
  have hpos : 0 ≤ p := Int.natCast_nonneg _
  have hend : p < 0x10000 := by have := m.state.pc.isLt; omega
  have hrow := congrArg (Row.mk p) (Disassembly.contentAt_peek? hm hpos hend)
  rw [Disassembly.rowAt] at hrow
  have hdecodes : Decodes m.state.pc d (Disassembly.contentAt m.wrapped? p) :=
    decode_decodes hw { m with log := #[] } t
  have herror : ∀ f s, d = .error f s → r = .error f s :=
    fun _ _ => step_of_undecoded (s := (m, t))
  have hok : ∀ e bs s, d = .ok (e, bs) s → r = execute notify m.state.pc e bs s :=
    fun _ _ _ => step_of_decoded (s := (m, t))
  refine ⟨⟨p, Disassembly.contentAt m.peek? p⟩, Disassembly.rows_one hend, ?_⟩
  clear_value d r
  generalize hc : Disassembly.contentAt m.wrapped? p = c at hdecodes hrow
  cases hdecodes with
  | @unknown b s =>
      have hr := herror _ _ rfl
      have hfits : p + (1 : Nat) ≤ 0x10000 := hend
      rw [hrow, Row.length, if_pos hfits]
      refine ⟨fun b' a s' h => ?_, fun _ _ _ h => (nomatch h), fun _ _ _ h => (nomatch h),
        .inl ⟨b, s, hr⟩⟩
      rw [hr] at h
      cases h
      exact Row.shown_data p b
  | @missing a s =>
      have hr := herror _ _ rfl
      rw [hrow, ite_self]
      refine ⟨fun b a' s' h => ?_, fun a' k s' h => ⟨herror _ _ h, rfl⟩,
        fun _ _ _ h => (nomatch h), .inr (.inl ⟨a, .read, s, rfl⟩)⟩
      rw [hr] at h
      cases h
  | @raised e s =>
      have hr := herror _ _ rfl
      refine ⟨fun b a s' h => ?_, fun _ _ _ h => (nomatch h), fun _ _ _ h => (nomatch h),
        .inr (.inr (.inr ⟨e, s, rfl, hr⟩))⟩
      rw [hr] at h
      cases h
  | @instruction b e bs s he =>
      have hr := hok _ _ _ rfl
      refine ⟨fun b a s' h => ?_, fun _ _ _ h => (nomatch h), fun e' bs' s' h => ?_,
        .inr (.inr (.inl ⟨e, bs, s, rfl⟩))⟩
      · rw [hr] at h
        exact absurd h (knows_execute hw _ e bs s b a s')
      · cases h
        refine ⟨Disassembly.length_of_contentAt hc, hr,
          fun x s' h => operation_of_execute (hr.symm.trans h), fun hfits => ?_, fun hpast => ?_⟩
        · rw [hrow, Row.length, if_pos hfits]
          exact Row.shown_instruction he p bs
        · obtain ⟨hsize, hoperands⟩ := Disassembly.operands_past hm hend hc hpast
          refine ⟨hsize, ?_, hoperands⟩
          rw [hrow, Row.length, if_neg (Int.not_le.2 hpast)]
          rfl

/-- Writing events down is a report. -/
theorem reports_recordEvent (e : Event) : Reports (Trial.recordEvent e) :=
  fun _ es => ⟨es.push e, .inl rfl⟩

/-- A full memory with MVI A at the last address, which takes its operand from address zero. -/
def straddling : Machine where
  state := { pc := 0xFFFF }
  memory := (Memory.zeroed maxMemory).put 0xFFFF 0x3E

/-- The engine executes the instruction; the disassembler shows that bytes are missing. -/
theorem step_straddling :
    ∃ row e s, straddling.disassemble 0xFFFF 1 = [row] ∧ row.shown = (0xFFFF, "??", "ERR") ∧
      Catalog.standard.opcode? 0x3E = some e ∧
      step Trial.recordEvent (straddling, #[]) =
        execute Trial.recordEvent 0xFFFF e [0] s := by
  have hsize : straddling.size = maxMemory :=
    (Memory.size_put _ _ _).trans (Memory.size_zeroed maxMemory)
  obtain ⟨row, hrow, -, -, hok, -⟩ :=
    step_decoded (m := straddling) reports_recordEvent (Nat.le_of_eq hsize) #[]
  obtain ⟨e, he, hextra⟩ : ∃ e, Catalog.standard.opcode? (0x3E : Byte).toNat = some e ∧
      e.descriptor.kind.extraBytes = 1 := ⟨_, rfl, rfl⟩
  have hlast : straddling.wrapped? 0xFFFF = some 0x3E := by
    simp [Machine.wrapped?, straddling, Memory.get?_put, maxMemory]
  have hzero : straddling.wrapped? (0xFFFF + 1) = some 0 := by
    have hword : (BitVec.ofInt 16 (0xFFFF + 1)).toNat = 0 := by decide
    have hget : straddling.memory.get? 0 = (Memory.zeroed maxMemory).get? 0 :=
      (Memory.get?_put _ _ _ _).trans (if_neg (by decide))
    rw [Machine.wrapped?, hword, hget]
    simp [Memory.get?, Memory.zeroed, maxMemory]
  have hcontent : Disassembly.contentAt straddling.wrapped? 0xFFFF =
      .instruction [0x3E, 0] (Operation.ofBytes e [0]) := by
    rw [Disassembly.contentAt_opcode hlast he, hextra, Disassembly.peekBytes_succ, hzero]
    rfl
  have hdecodes := decode_decodes reports_recordEvent straddling #[]
  obtain ⟨e', s, hd, he'⟩ := hdecodes.eq_ok hcontent fun e _ => e.elim
  cases he.symm.trans he'
  have hlength : (Operation.ofBytes e [0]).length = 2 := congrArg (1 + ·) hextra
  obtain ⟨-, hstep, -, -, hpast⟩ := hok e [0] s hd
  obtain ⟨-, hshown, -⟩ := hpast (by rw [hlength]; decide)
  exact ⟨row, e, s, hrow, hshown, he, hstep⟩

end Run

end Lab8085
