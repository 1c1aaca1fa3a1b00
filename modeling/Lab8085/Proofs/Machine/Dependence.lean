/-
  Lab8085.Proofs.Machine.Dependence

  A step depends only on the bytes that its log says it has read.

  A run from one machine is compared with the same run from another one that stands in for
  it (`Machine.StandsIn`): the state is the same, memory is installed wherever the run goes,
  and holds the same bytes wherever it reads.  A run that `Accounts` for what it does then
  ends alike and logs the same.  Requests do, and what is put together from such runs does,
  because after the first run the second machine still stands in for the first one.
-/
import Lab8085.Proofs.Machine.Fault
import Lab8085.Proofs.Machine.Script

namespace Lab8085

/-! ## Memories -/

/-- An access to memory, not to a port. -/
def Access.isMemory (x : Access) : Bool :=
  x.kind == .read || x.kind == .write

namespace Memory

/-- All accesses to memory find a cell. -/
def Maps (m : Memory) (xs : List Access) : Prop :=
  ∀ x ∈ xs, x.isMemory = true → x.address.toNat < m.size

theorem maps_nil (m : Memory) : m.Maps [] :=
  fun _ hx => absurd hx List.not_mem_nil

theorem maps_append {m : Memory} {xs ys : List Access} :
    m.Maps (xs ++ ys) ↔ m.Maps xs ∧ m.Maps ys := by
  simp only [Maps, List.mem_append, or_imp, forall_and]

@[simp] theorem size_access (m : Memory) (x : Access) : (m.access x).size = m.size := by
  rw [access]
  split
  · exact size_put _ _ _
  · rfl

@[simp] theorem size_replay (m : Memory) (xs : List Access) : (m.replay xs).size = m.size := by
  induction xs generalizing m with
  | nil => rfl
  | cons x xs ih => exact (ih (m.access x)).trans (m.size_access x)

theorem maps_replay {m : Memory} {xs ys : List Access} : (m.replay xs).Maps ys ↔ m.Maps ys := by
  simp only [Maps, size_replay]

/-- Memories that hold the same at an address do so after the same accesses. -/
theorem get?_replay {m n : Memory} {xs : List Access} (hm : m.Maps xs) (hn : n.Maps xs) {a : Nat}
    (h : n.get? a = m.get? a) : (n.replay xs).get? a = (m.replay xs).get? a := by
  induction xs generalizing m n with
  | nil => exact h
  | cons x xs ih =>
      have hx : (n.access x).get? a = (m.access x).get? a := by
        rw [access, access]
        split
        · rename_i hk
          have hmem : x.isMemory = true := by rw [Access.isMemory, hk]; rfl
          have hxm := hm x List.mem_cons_self hmem
          have hxn := hn x List.mem_cons_self hmem
          rw [get?_put, get?_put, h]
          simp only [hxm, hxn]
        · exact h
      refine ih (fun y hy hk => ?_) (fun y hy hk => ?_) hx
      · rw [size_access]
        exact hm y (List.mem_cons_of_mem x hy) hk
      · rw [size_access]
        exact hn y (List.mem_cons_of_mem x hy) hk

end Memory

/-! ## Machines that stand in for each other -/

namespace Machine

/-- A machine after some accesses, in a state. -/
def after (m : Machine) (xs : List Access) (s : State) : Machine :=
  { m with state := s, memory := m.memory.replay xs, log := m.log ++ xs.toArray }

theorem after_nil (m : Machine) : m.after [] m.state = m := by
  simp [after, Memory.replay]

theorem after_after (m : Machine) (xs ys : List Access) (s t : State) :
    (m.after xs s).after ys t = m.after (xs ++ ys) t := by
  simp [after]

/-- A machine stands in for another one in a run with some accesses and an outcome: memory is
    installed where the run goes, it holds the same bytes where the run reads, and it is missing
    where the run has failed for want of it. -/
structure StandsIn {ε α : Type} (n m : Machine) (o : Except (Fault ε) α) (xs : List Access) :
    Prop where
  state : n.state = m.state
  maps : n.memory.Maps xs
  agrees : ∀ x ∈ xs, x.kind = .read →
    n.memory.get? x.address.toNat = m.memory.get? x.address.toNat
  missing : ∀ a d, o = .error (.outsideMemory a d) → m.memory.size ≤ a.toNat →
    n.memory.size ≤ a.toNat

variable {ε α β : Type} {m n : Machine} {xs ys : List Access}

theorem StandsIn.refl {o : Except (Fault ε) α} (h : m.memory.Maps xs) : m.StandsIn m o xs :=
  ⟨rfl, h, fun _ _ _ => rfl, fun _ _ _ => id⟩

/-- In the first of two runs, which returns. -/
theorem StandsIn.left {o : Except (Fault ε) β} (h : n.StandsIn m o (xs ++ ys)) (x : α) :
    n.StandsIn m (.ok x : Except (Fault ε) α) xs :=
  ⟨h.state, (Memory.maps_append.1 h.maps).1,
    fun y hy => h.agrees y (List.mem_append_left ys hy), nofun⟩

/-- In the second of two runs, from where the first one ends. -/
theorem StandsIn.right {o : Except (Fault ε) α} (hm : m.memory.Maps xs)
    (h : n.StandsIn m o (xs ++ ys)) (s : State) :
    (n.after xs s).StandsIn (m.after xs s) o ys := by
  obtain ⟨hxs, hys⟩ := Memory.maps_append.1 h.maps
  refine ⟨rfl, Memory.maps_replay.2 hys, fun y hy hk => ?_, fun a d ho hmiss => ?_⟩
  · exact Memory.get?_replay hm hxs (h.agrees y (List.mem_append_right xs hy) hk)
  · simp only [after, Memory.size_replay] at hmiss ⊢
    exact h.missing a d ho hmiss

end Machine

/-! ## Runs that account for what they do -/

namespace Run

variable {ε σ α β : Type}

/-- What a run does depends on the state, on the watchers and on the bytes that it logs as read:
    it ends alike on every machine that stands in for the one that it is started on. -/
def Accounts (r : Run ε σ α) : Prop :=
  ∀ m t, ∃ o s u xs, m.memory.Maps xs ∧
    ∀ n : Machine, n.StandsIn m o xs → r (n, t) = ended o (n.after xs s) u

/-- A run without accesses that looks at the state and the watchers only. -/
theorem Accounts.of_eq {r : Run ε σ α}
    (h : ∀ s t, ∃ o u, ∀ m : Machine, m.state = s → r (m, t) = ended o m u) : Accounts r := by
  intro m t
  obtain ⟨o, u, hr⟩ := h m.state t
  refine ⟨o, m.state, u, [], Memory.maps_nil _, fun n hn => ?_⟩
  rw [hr n hn.state, ← hn.state, n.after_nil]

theorem Accounts.pure (x : α) : Accounts (Pure.pure x : Run ε σ α) :=
  .of_eq fun _ t => ⟨.ok x, t, fun _ _ => rfl⟩

theorem Accounts.throw (e : Fault ε) : Accounts (MonadExcept.throw e : Run ε σ α) :=
  .of_eq fun _ t => ⟨.error e, t, fun _ _ => rfl⟩

theorem accounts_state : Accounts (state : Run ε σ State) :=
  .of_eq fun s t => ⟨.ok s, t, fun _ hm => by rw [← hm]; rfl⟩

theorem Accounts.bind {r : Run ε σ α} {f : α → Run ε σ β} (hr : Accounts r)
    (hf : ∀ x, Accounts (f x)) : Accounts (r >>= f) := by
  intro m t
  obtain ⟨o, s, u, xs, hmaps, hrun⟩ := hr m t
  cases o with
  | error e =>
      refine ⟨.error e, s, u, xs, hmaps, fun n hn => bind_of_error (hrun n ?_) f⟩
      exact ⟨hn.state, hn.maps, hn.agrees, fun a d h => hn.missing a d (by cases h; rfl)⟩
  | ok x =>
      obtain ⟨o, s', u', ys, hmaps', hrun'⟩ := hf x (m.after xs s) u
      refine ⟨o, s', u', xs ++ ys, Memory.maps_append.2 ⟨hmaps, Memory.maps_replay.1 hmaps'⟩,
        fun n hn => ?_⟩
      rw [bind_of_ok (hrun n (hn.left x)) f, hrun' _ (hn.right hmaps s), n.after_after]

theorem accounts_readMemory (a : Word) : Accounts (readMemory a : Run ε σ Byte) := by
  intro m t
  cases h : m.memory.get? a.toNat with
  | none =>
      have hsize : m.memory.size ≤ a.toNat := Nat.not_lt.1 fun hlt => by
        rw [← Option.not_isSome_iff_eq_none, Memory.get?_isSome] at h
        exact h hlt
      refine ⟨.error (.outsideMemory a .read), m.state, t, [], Memory.maps_nil _, fun n hn => ?_⟩
      have hnone : n.memory.get? a.toNat = none := by
        rw [← Option.not_isSome_iff_eq_none, Memory.get?_isSome]
        exact Nat.not_lt.2 (hn.missing a .read rfl hsize)
      rw [← hn.state, n.after_nil, readMemory]
      simp only [hnone]
      rfl
  | some b =>
      have hin : a.toNat < m.memory.size := Memory.get?_isSome.1 (Option.isSome_of_eq_some h)
      refine ⟨.ok b, m.state, t, [⟨.read, a.toNat, b.toNat⟩], ?_, fun n hn => ?_⟩
      · simpa [Memory.Maps] using fun _ => hin
      · have hb : n.memory.get? a.toNat = some b :=
          (hn.agrees _ List.mem_cons_self rfl).trans h
        rw [← hn.state, readMemory]
        simp only [hb]
        rfl

theorem accounts_writeMemory (a : Word) (v : Byte) :
    Accounts (writeMemory a v : Run ε σ Unit) := by
  intro m t
  by_cases h : a.toNat < m.memory.size
  · refine ⟨.ok (), m.state, t, [⟨.write, a.toNat, v.toNat⟩], ?_, fun n hn => ?_⟩
    · simpa [Memory.Maps] using fun _ => h
    · have hin : a.toNat < n.memory.size := hn.maps _ List.mem_cons_self rfl
      obtain ⟨hreplay, -⟩ := Memory.traces_write n.memory a.toNat v
      rw [← hn.state, writeMemory, if_pos hin, Machine.after, hreplay]
      rfl
  · refine ⟨.error (.outsideMemory a .write), m.state, t, [], Memory.maps_nil _, fun n hn => ?_⟩
    have hout := Nat.not_lt.2 (hn.missing a .write rfl (Nat.not_lt.1 h))
    rw [← hn.state, n.after_nil, writeMemory, if_neg hout]
    rfl

/-- An access to a port. -/
theorem accounts_port {r : Run ε σ α} {k : AccessKind} {a d : Nat} {x : α}
    (hk : (Access.mk k a d).isMemory = false)
    (hr : ∀ m t, r (m, t) = .ok x (m.record k a d, t)) : Accounts r := by
  intro m t
  refine ⟨.ok x, m.state, t, [⟨k, a, d⟩], ?_, fun n hn => ?_⟩
  · simp [Memory.Maps, hk]
  · have hreplay : n.memory.replay [⟨k, a, d⟩] = n.memory :=
      (Memory.traces_port n.memory (x := ⟨k, a, d⟩) (by rintro ⟨⟩; cases hk)
        (by rintro ⟨⟩; cases hk)).replayed
    rw [← hn.state, hr, Machine.after, hreplay]
    rfl

variable {notify : Event → Run ε σ Unit}

theorem accounts_assign (hw : ∀ e, Accounts (notify e)) (c : Change) :
    Accounts (assign notify c) := by
  intro m t
  cases h : m.state.holds c with
  | true =>
      refine ⟨.ok (), m.state, t, [], Memory.maps_nil _, fun n hn => ?_⟩
      rw [← hn.state] at h ⊢
      rw [n.after_nil, assign, if_pos h]
      rfl
  | false =>
      obtain ⟨o, s, u, xs, hmaps, hrun⟩ := hw (.changed c) (m.change c) t
      refine ⟨o, s, u, xs, hmaps, fun n hn => ?_⟩
      have hstate : (n.change c).state = (m.change c).state := congrArg (State.apply · c) hn.state
      have hnew : ¬(n.state.holds c = true) := by rw [hn.state, h]; decide
      rw [assign, if_neg hnew]
      exact hrun (n.change c) ⟨hstate, hn.maps, hn.agrees, hn.missing⟩

theorem accounts_request (hw : ∀ e, Accounts (notify e)) (r : Micro.Request) :
    Accounts (r.run notify) := by
  cases r with
  | state => exact accounts_state
  | assign c => exact accounts_assign hw c
  | read a => exact accounts_readMemory a
  | write a v => exact accounts_writeMemory a v
  | input port => exact accounts_port rfl fun _ _ => rfl
  | output port v => exact accounts_port rfl fun _ _ => rfl
  | halted => exact hw .halted

/-- Every microprogram accounts for what it does. -/
theorem accounts_micro (hw : ∀ e, Accounts (notify e)) (p : Micro α) :
    Accounts (p.run notify) := by
  induction p with
  | done x => exact .pure x
  | ask r next ih => exact (accounts_request hw r).bind ih

theorem accounts_instruction (hw : ∀ e, Accounts (notify e)) : Accounts (instruction notify) := by
  refine accounts_state.bind fun s => (accounts_micro hw _).bind fun b => ?_
  cases Catalog.standard.opcode? b.toNat with
  | none => exact accounts_state.bind fun _ => .throw _
  | some e =>
      exact (accounts_micro hw _).bind fun _ => (accounts_micro hw _).bind fun _ => .pure _

end Run

/-! ## Steps -/

/-- What is seen of an attempt to make a step: the instruction or the fault, the state, the
    accesses and the watchers after it. -/
structure Attempt (ε σ : Type) where
  result : Except (Fault ε) Operation
  state : State
  accesses : List Access
  watchers : σ

namespace Run

variable {ε σ : Type}

/-- The attempt that a step was. -/
def attempt : EStateM.Result (Fault ε) (Machine × σ) Snapshot → Attempt ε σ
  | .ok x s => ⟨.ok x.operation, x.state, x.accesses, s.2⟩
  | .error f s => ⟨.error f, s.1.state, s.1.log.toList, s.2⟩

/-- The machine and the watchers that a run leaves behind, whether it returns or fails. -/
def rest {α : Type} : EStateM.Result (Fault ε) (Machine × σ) α → Machine × σ
  | .ok _ s => s
  | .error _ s => s

variable {notify : Event → Run ε σ Unit}

/-- A step is seen to do the same on every machine that stands in for the one that it is started
    on, and to the memory it does what its accesses say. -/
theorem step_stands (hw : ∀ e, Accounts (notify e)) (m : Machine) (t : σ) :
    ∃ a : Attempt ε σ, m.memory.Maps a.accesses ∧
      ∀ n : Machine, n.StandsIn m a.result a.accesses →
        attempt (step notify (n, t)) = a ∧
          (rest (step notify (n, t))).1.state = a.state ∧
          (rest (step notify (n, t))).1.memory = n.memory.replay a.accesses ∧
          (rest (step notify (n, t))).2 = a.watchers := by
  obtain ⟨o, s, u, xs, hmaps, hrun⟩ := accounts_instruction hw { m with log := #[] } t
  refine ⟨⟨o.map Prod.snd, s, xs, u⟩, hmaps, fun n hn => ?_⟩
  have hn' : Machine.StandsIn { n with log := #[] } { m with log := #[] } o xs :=
    ⟨hn.state, hn.maps, hn.agrees, fun a d h => hn.missing a d (by rw [h]; rfl)⟩
  have hstep : step notify (n, t) = (instruction notify >>= fun p => snapshot p.1 p.2)
      ({ n with log := #[] }, t) := by
    rw [step_eq_instruction]
    rfl
  have hlog : (({ n with log := #[] } : Machine).after xs s).log.toList = xs := by
    simp [Machine.after]
  cases o with
  | error f =>
      rw [hstep, bind_of_error (hrun _ hn')]
      refine ⟨?_, rfl, rfl, rfl⟩
      rw [attempt, hlog]
      rfl
  | ok p =>
      rw [hstep, bind_of_ok (hrun _ hn'), snapshot_eq]
      refine ⟨?_, rfl, rfl, rfl⟩
      rw [attempt, hlog]
      rfl

/-! ## Steps in sequence -/

/-- The machine and the watchers after some attempts, one after the other. -/
def tried (notify : Event → Run ε σ Unit) : Nat → Machine × σ → Machine × σ
  | 0, s => s
  | k + 1, s => tried notify k (rest (step notify s))

/-- Attempts to make a step, one after the other. -/
def attempts (notify : Event → Run ε σ Unit) : Nat → Machine × σ → List (Attempt ε σ)
  | 0, _ => []
  | k + 1, s => attempt (step notify s) :: attempts notify k (rest (step notify s))

end Run

/-- An attempt goes to addresses below a bound only: neither an access nor a fault has an address
    from there on. -/
structure Attempt.Below {ε σ : Type} (a : Attempt ε σ) (bound : Nat) : Prop where
  accesses : ∀ x ∈ a.accesses, x.isMemory = true → x.address.toNat < bound
  fault : ∀ w d, a.result = .error (.outsideMemory w d) → w.toNat < bound

/-- Machines in the same state whose memories hold the same below a bound. -/
structure Machine.Alike (bound : Nat) (n m : Machine) : Prop where
  state : n.state = m.state
  size_left : bound ≤ n.size
  size_right : bound ≤ m.size
  memory : ∀ a < bound, n.memory.get? a = m.memory.get? a

namespace Run

variable {ε σ : Type} {notify : Event → Run ε σ Unit}

/-- An attempt below the bound is the same on machines that are alike there, which are alike
    after it. -/
theorem step_alike (hw : ∀ e, Accounts (notify e)) {bound : Nat} {m n : Machine}
    (h : n.Alike bound m) (t : σ) (hbelow : (attempt (step notify (m, t))).Below bound) :
    attempt (step notify (n, t)) = attempt (step notify (m, t)) ∧
      (rest (step notify (n, t))).2 = (rest (step notify (m, t))).2 ∧
      (rest (step notify (n, t))).1.Alike bound (rest (step notify (m, t))).1 := by
  obtain ⟨a, hmaps, hall⟩ := step_stands hw m t
  obtain ⟨ha, hstate, hmem, hu⟩ := hall m (.refl hmaps)
  rw [ha] at hbelow ⊢
  have hmapsn : n.memory.Maps a.accesses := fun x hx hk =>
    Nat.lt_of_lt_of_le (hbelow.accesses x hx hk) h.size_left
  have hstands : n.StandsIn m a.result a.accesses := by
    refine ⟨h.state, hmapsn, fun x hx hk => ?_, fun w d hf hmiss => ?_⟩
    · exact h.memory _ (hbelow.accesses x hx (by rw [Access.isMemory, hk]; rfl))
    · exact absurd (Nat.lt_of_lt_of_le (hbelow.fault w d hf) h.size_right) (Nat.not_lt.2 hmiss)
  obtain ⟨han, hstaten, hmemn, hun⟩ := hall n hstands
  refine ⟨han, hun.trans hu.symm, hstaten.trans hstate.symm, ?_, ?_, fun b hb => ?_⟩
  · rw [Machine.size, hmemn, Memory.size_replay]
    exact h.size_left
  · rw [Machine.size, hmem, Memory.size_replay]
    exact h.size_right
  · rw [hmem, hmemn]
    exact Memory.get?_replay hmaps hmapsn (h.memory b hb)

/-- Attempts that stay below the bound are the same on machines that are alike there. -/
theorem attempts_alike (hw : ∀ e, Accounts (notify e)) {bound : Nat} (k : Nat) {m n : Machine}
    (h : n.Alike bound m) (t : σ) (hbelow : ∀ a ∈ attempts notify k (m, t), a.Below bound) :
    attempts notify k (n, t) = attempts notify k (m, t) ∧
      (tried notify k (n, t)).1.Alike bound (tried notify k (m, t)).1 := by
  induction k generalizing m n t with
  | zero => exact ⟨rfl, h⟩
  | succ k ih =>
      rw [attempts, attempts, tried, tried]
      obtain ⟨ha, hu, hrest⟩ := step_alike hw h t (hbelow _ List.mem_cons_self)
      have hpair : rest (step notify (n, t)) =
          ((rest (step notify (n, t))).1, (rest (step notify (m, t))).2) := by rw [← hu]
      obtain ⟨has, htried⟩ := ih hrest (rest (step notify (m, t))).2
        fun a hmem => hbelow a (List.mem_cons_of_mem _ hmem)
      rw [ha, hpair, has]
      exact ⟨rfl, htried⟩

/-- **A step depends only on the bytes that its log says it has read.** -/
theorem step_depends (hw : ∀ e, Accounts (notify e)) {m n : Machine} (hstate : n.state = m.state)
    (t : σ) :
    -- a step that returns does the same on a machine of any memory size in the same state,
    -- when memory is installed where it goes and holds the same bytes where it reads
    (∀ x s, step notify (m, t) = .ok x s → n.memory.Maps x.accesses →
      (∀ y ∈ x.accesses, y.kind = .read →
        n.memory.get? y.address.toNat = m.memory.get? y.address.toNat) →
      ∃ x' s', step notify (n, t) = .ok x' s' ∧ x'.operation = x.operation ∧
        x'.state = x.state ∧ x'.accesses = x.accesses ∧ s'.1.state = s.1.state ∧ s'.2 = s.2) ∧
    -- attempts that go to addresses below a bound only, whether they return or fail, are the same
    -- on memories that reach up to the bound or beyond and hold the same below it
    ∀ bound k, bound ≤ m.size → bound ≤ n.size →
      (∀ a < bound, n.memory.get? a = m.memory.get? a) →
      (∀ a ∈ attempts notify k (m, t), a.Below bound) →
      attempts notify k (n, t) = attempts notify k (m, t) ∧
        ∀ a < bound, (tried notify k (n, t)).1.memory.get? a =
          (tried notify k (m, t)).1.memory.get? a := by
  refine ⟨fun x s hx hmaps hagrees => ?_, fun bound k hm hn hmem hbelow => ?_⟩
  · obtain ⟨a, hmapsm, hall⟩ := step_stands hw m t
    obtain ⟨ha, hstatem, -, -⟩ := hall m (.refl hmapsm)
    rw [hx] at ha hstatem
    subst ha
    obtain ⟨han, hstaten, -, -⟩ := hall n ⟨hstate, hmaps, hagrees, nofun⟩
    cases hy : step notify (n, t) with
    | ok x' s' =>
        rw [hy] at han hstaten
        simp only [attempt, Attempt.mk.injEq, Except.ok.injEq] at han
        obtain ⟨ho, hs, hxs, hu⟩ := han
        exact ⟨x', s', rfl, ho, hs, hxs, hstaten.trans hstatem.symm, hu⟩
    | error f s' =>
        rw [hy] at han
        exact nomatch congrArg Attempt.result han
  · obtain ⟨has, halike⟩ := attempts_alike hw k ⟨hstate, hn, hm, hmem⟩ t hbelow
    exact ⟨has, halike.memory⟩

theorem accounts_recordEvent (e : Event) : Accounts (Trial.recordEvent e) :=
  .of_eq fun _ es => ⟨.ok (), es.push e, fun _ _ => rfl⟩

/-- The program of `counting` with another byte at 1 and one more byte of memory. -/
def recounting : Machine where
  state := { registers := { l := 2 } }
  memory := ⟨#[0x34, 0xFF, 0x07, 0xAA]⟩

/-- It is carried out alike: no byte that differs is read. -/
theorem step_recounting :
    ∃ x s, step Trial.recordEvent (recounting, #[]) = .ok x s ∧
      x.accesses = [⟨.read, 0, 0x34⟩, ⟨.read, 2, 0x07⟩, ⟨.write, 2, 0x08⟩] := by
  obtain ⟨hone, -⟩ := step_depends accounts_recordEvent
    (m := counting) (n := recounting) rfl #[]
  have hlog : stepLog (step Trial.recordEvent (counting, #[])) =
      [⟨.read, 0, 0x34⟩, ⟨.read, 2, 0x07⟩, ⟨.write, 2, 0x08⟩] := by decide +kernel
  have hok : (attempt (step Trial.recordEvent (counting, #[]))).result.isOk = true := by
    decide +kernel
  cases h : step Trial.recordEvent (counting, #[]) with
  | error f s =>
      rw [h] at hok
      cases hok
  | ok x s =>
      have hx : x.accesses = _ := (congrArg stepLog h).symm.trans hlog
      obtain ⟨x', s', hstep, -, -, hxs, -⟩ := hone x s h
        (by rw [hx, Memory.Maps]; decide) (by rw [hx]; decide)
      exact ⟨x', s', hstep, hxs.trans hx⟩

end Run

end Lab8085
