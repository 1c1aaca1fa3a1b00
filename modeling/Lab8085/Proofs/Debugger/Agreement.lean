/-
  Lab8085.Proofs.Debugger.Agreement

  A run of steps and a run of the debugger agree when nobody watches.

  The two loops stop at different places: a run of steps goes no further at the end of memory
  or at a halt, which it leaves unexecuted, while the debugger executes the halt and stops
  after it.  Up to the first end both make the same steps (`Run.Walks`), and a step of the
  debugger is a step of the machine with an entry in the history.  So the lockstep is an
  induction on the number of steps (`Unattended.continueRun_walks`), and what is left are the
  three ways in which it ends: past the memory, at a halt, and with a fault.
-/
import Lab8085.Proofs.Debugger.Stopping

namespace Lab8085

/-! ## Runs of steps -/

/-- A run of steps goes no further: the program counter is past the memory or at a halt. -/
def Machine.AtEnd (m : Machine) : Prop :=
  m.size ≤ m.state.pc.toNat ∨ m.AtHalt

theorem Machine.atEnd_iff (m : Machine) :
    ((m.memory.get? m.state.pc.toNat).isNone ||
      m.memory.get? m.state.pc.toNat == some haltOpcode) = true ↔ m.AtEnd := by
  have hpast : (m.memory.get? m.state.pc.toNat).isNone = true ↔ m.size ≤ m.state.pc.toNat := by
    rw [Option.isNone_iff_eq_none, ← Option.not_isSome_iff_eq_none, Memory.get?_isSome, Nat.not_lt]
    exact Iff.rfl
  rw [Bool.or_eq_true, hpast, beq_iff_eq]
  exact Iff.rfl

namespace Run

variable {ε σ : Type} {notify : Event → Run ε σ Unit}

/-- The snapshots of `k` steps and what the steps lead to, if all of them return. -/
def stepsFrom (notify : Event → Run ε σ Unit) :
    Nat → Machine × σ → Option (List Snapshot × (Machine × σ))
  | 0, s => some ([], s)
  | k + 1, s =>
    match step notify s with
    | .ok x s' => (stepsFrom notify k s').map fun p => (x :: p.1, p.2)
    | .error _ _ => none

/-- `k` steps return with the snapshots `xs` and lead from `s` to `s'`, and there is no end before
    `s'`. If `s'` is at an end, `k` is the least number of steps to one. -/
structure Walks (notify : Event → Run ε σ Unit) (s : Machine × σ) (k : Nat) (xs : List Snapshot)
    (s' : Machine × σ) : Prop where
  steps : stepsFrom notify k s = some (xs, s')
  before : ∀ j < k, ∀ ys v, stepsFrom notify j s = some (ys, v) → ¬v.1.AtEnd

theorem stepsFrom_succ {s v : Machine × σ} {x : Snapshot} (hstep : step notify s = .ok x v)
    (k : Nat) : stepsFrom notify (k + 1) s =
      (stepsFrom notify k v).map fun p => (x :: p.1, p.2) := by
  rw [stepsFrom, hstep]

theorem Walks.zero (s : Machine × σ) : Walks notify s 0 [] s :=
  ⟨rfl, fun j hj => absurd hj (Nat.not_lt_zero j)⟩

theorem eq_of_walks_zero {s s' : Machine × σ} {xs : List Snapshot} (h : Walks notify s 0 xs s') :
    xs = [] ∧ s' = s := by
  have hsteps := h.steps
  rw [stepsFrom, Option.some_inj] at hsteps
  cases hsteps
  exact ⟨rfl, rfl⟩

/-- A step that does not begin at an end, and then the others. -/
theorem Walks.cons {s v s' : Machine × σ} {x : Snapshot} {k : Nat} {xs : List Snapshot}
    (hend : ¬s.1.AtEnd) (hstep : step notify s = .ok x v) (h : Walks notify v k xs s') :
    Walks notify s (k + 1) (x :: xs) s' := by
  refine ⟨?_, fun j hj ys w hw => ?_⟩
  · rw [stepsFrom_succ hstep, h.steps]
    rfl
  · cases j with
    | zero =>
        cases hw
        exact hend
    | succ j =>
        rw [stepsFrom_succ hstep] at hw
        obtain ⟨⟨zs, w'⟩, hw', he⟩ := Option.map_eq_some_iff.1 hw
        cases he
        exact h.before j (Nat.lt_of_succ_lt_succ hj) zs _ hw'

theorem Walks.uncons {s s' : Machine × σ} {k : Nat} {xs : List Snapshot}
    (h : Walks notify s (k + 1) xs s') : ¬s.1.AtEnd ∧
      ∃ x v ys, step notify s = .ok x v ∧ Walks notify v k ys s' ∧ xs = x :: ys := by
  refine ⟨h.before 0 (Nat.succ_pos k) [] s rfl, ?_⟩
  have hsteps := h.steps
  cases hstep : step notify s with
  | error f v =>
      rw [stepsFrom, hstep] at hsteps
      cases hsteps
  | ok x v =>
      rw [stepsFrom_succ hstep] at hsteps
      obtain ⟨⟨ys, w⟩, hw, he⟩ := Option.map_eq_some_iff.1 hsteps
      cases he
      refine ⟨x, v, ys, rfl, ⟨hw, fun j hj zs u hu => ?_⟩, rfl⟩
      refine h.before (j + 1) (Nat.succ_lt_succ hj) (x :: zs) u ?_
      rw [stepsFrom_succ hstep, hu]
      rfl

theorem Walks.length_eq {s s' : Machine × σ} {k : Nat} {xs : List Snapshot}
    (h : Walks notify s k xs s') : xs.length = k := by
  induction k generalizing s xs with
  | zero =>
      obtain ⟨rfl, -⟩ := eq_of_walks_zero h
      rfl
  | succ k ih =>
      obtain ⟨-, x, v, ys, -, hv, rfl⟩ := h.uncons
      rw [List.length_cons, ih hv]

/-- With fuel for `fuel` steps a walk comes to an end, or to a step that fails, or uses up the
    fuel. -/
theorem walks_cases (notify : Event → Run ε σ Unit) (fuel : Nat) (s : Machine × σ) :
    (∃ k ≤ fuel, ∃ xs v, Walks notify s k xs v ∧ v.1.AtEnd) ∨
    (∃ k < fuel, ∃ xs v f p, Walks notify s k xs v ∧ ¬v.1.AtEnd ∧ step notify v = .error f p) ∨
    ∃ xs v, Walks notify s fuel xs v ∧ ¬v.1.AtEnd := by
  induction fuel generalizing s with
  | zero =>
      by_cases hend : s.1.AtEnd
      · exact .inl ⟨0, le_rfl, [], s, .zero s, hend⟩
      · exact .inr (.inr ⟨[], s, .zero s, hend⟩)
  | succ fuel ih =>
      by_cases hend : s.1.AtEnd
      · exact .inl ⟨0, Nat.zero_le _, [], s, .zero s, hend⟩
      cases hstep : step notify s with
      | error f p => exact .inr (.inl ⟨0, Nat.succ_pos fuel, [], s, f, p, .zero s, hend, hstep⟩)
      | ok x u =>
          rcases ih u with ⟨k, hk, xs, v, hwalk, hv⟩ | ⟨k, hk, xs, v, f, p, hwalk, hv, hfail⟩ |
            ⟨xs, v, hwalk, hv⟩
          · exact .inl ⟨k + 1, Nat.succ_le_succ hk, x :: xs, v, hwalk.cons hend hstep, hv⟩
          · exact .inr (.inl ⟨k + 1, Nat.succ_lt_succ hk, x :: xs, v, f, p,
              hwalk.cons hend hstep, hv, hfail⟩)
          · exact .inr (.inr ⟨x :: xs, v, hwalk.cons hend hstep, hv⟩)

/-! ### The loop -/

theorem toEnd_of_atEnd {s : Machine × σ} (h : s.1.AtEnd) (fuel : Nat) :
    toEnd notify fuel s = .ok true s := by
  have hend := s.1.atEnd_iff.2 h
  cases fuel with
  | zero => simp only [toEnd, atEnd, hend]
  | succ fuel =>
      simp only [toEnd, atEnd, Bind.bind, EStateM.bind, hend]
      rfl

theorem toEnd_zero_of_goesOn {s : Machine × σ} (h : ¬s.1.AtEnd) :
    toEnd notify 0 s = .ok false s := by
  have hend := Bool.not_eq_true _ ▸ mt s.1.atEnd_iff.1 h
  simp only [toEnd, atEnd, hend]

theorem toEnd_succ_of_goesOn {s : Machine × σ} (h : ¬s.1.AtEnd) (fuel : Nat) :
    toEnd notify (fuel + 1) s =
      match step notify s with
      | .ok _ v => toEnd notify fuel v
      | .error f v => .error f v := by
  have hend := Bool.not_eq_true _ ▸ mt s.1.atEnd_iff.1 h
  simp only [toEnd, atEnd, Bind.bind, EStateM.bind, hend, Bool.false_eq_true, if_false]
  cases step notify s <;> rfl

/-- A run of steps follows the walk, with one unit of fuel for each step. -/
theorem toEnd_of_walks {s s' : Machine × σ} {k : Nat} {xs : List Snapshot}
    (h : Walks notify s k xs s') (fuel : Nat) :
    toEnd notify (fuel + k) s = toEnd notify fuel s' := by
  induction k generalizing s xs with
  | zero => rw [(eq_of_walks_zero h).2, Nat.add_zero]
  | succ k ih =>
      obtain ⟨hend, x, v, ys, hstep, hv, -⟩ := h.uncons
      rw [← Nat.add_assoc, toEnd_succ_of_goesOn hend, hstep]
      exact ih hv

theorem toEnd_of_walks_end {s s' : Machine × σ} {k fuel : Nat} {xs : List Snapshot}
    (h : Walks notify s k xs s') (hend : s'.1.AtEnd) (hk : k ≤ fuel) :
    toEnd notify fuel s = .ok true s' := by
  rw [← Nat.sub_add_cancel hk, toEnd_of_walks h, toEnd_of_atEnd hend]

theorem toEnd_of_walks_error {s v p : Machine × σ} {k fuel : Nat} {xs : List Snapshot}
    {f : Fault ε} (h : Walks notify s k xs v) (hend : ¬v.1.AtEnd)
    (hfail : step notify v = .error f p) (hk : k < fuel) :
    toEnd notify fuel s = .error f p := by
  have hfuel : fuel = fuel - k - 1 + 1 + k := by omega
  rw [hfuel, toEnd_of_walks h, toEnd_succ_of_goesOn hend, hfail]

theorem toEnd_of_walks_on {s v : Machine × σ} {fuel : Nat} {xs : List Snapshot}
    (h : Walks notify s fuel xs v) (hend : ¬v.1.AtEnd) :
    toEnd notify fuel s = .ok false v := by
  have hzero := toEnd_of_walks h 0
  rw [Nat.zero_add] at hzero
  rw [hzero, toEnd_zero_of_goesOn hend]

/-- A run of steps returns where it first comes to an end, if its fuel lasts until then. -/
theorem toEnd_eq_true_iff (fuel : Nat) (s s' : Machine × σ) :
    toEnd notify fuel s = .ok true s' ↔
      ∃ k ≤ fuel, ∃ xs, Walks notify s k xs s' ∧ s'.1.AtEnd := by
  constructor
  · intro h
    rcases walks_cases notify fuel s with ⟨k, hk, xs, v, hwalk, hv⟩ |
      ⟨k, hk, xs, v, f, p, hwalk, hv, hfail⟩ | ⟨xs, v, hwalk, hv⟩
    · rw [toEnd_of_walks_end hwalk hv hk] at h
      cases h
      exact ⟨k, hk, xs, hwalk, hv⟩
    · rw [toEnd_of_walks_error hwalk hv hfail hk] at h
      cases h
    · rw [toEnd_of_walks_on hwalk hv] at h
      cases h
  · rintro ⟨k, hk, xs, hwalk, hend⟩
    exact toEnd_of_walks_end hwalk hend hk

/-- A run of steps fails with the first step that fails, unless it comes to an end before. -/
theorem toEnd_eq_error_iff (fuel : Nat) (s p : Machine × σ) (f : Fault ε) :
    toEnd notify fuel s = .error f p ↔
      ∃ k < fuel, ∃ xs v, Walks notify s k xs v ∧ ¬v.1.AtEnd ∧ step notify v = .error f p := by
  constructor
  · intro h
    rcases walks_cases notify fuel s with ⟨k, hk, xs, v, hwalk, hv⟩ |
      ⟨k, hk, xs, v, g, q, hwalk, hv, hfail⟩ | ⟨xs, v, hwalk, hv⟩
    · rw [toEnd_of_walks_end hwalk hv hk] at h
      cases h
    · rw [toEnd_of_walks_error hwalk hv hfail hk] at h
      cases h
      exact ⟨k, hk, xs, v, hwalk, hv, hfail⟩
    · rw [toEnd_of_walks_on hwalk hv] at h
      cases h
  · rintro ⟨k, hk, xs, v, hwalk, hend, hfail⟩
    exact toEnd_of_walks_error hwalk hend hfail hk

end Run

/-! ## Nobody watches -/

namespace Debugger

variable {ε σ : Type}

/-- Nobody watches: telling an event changes nothing. It is enough that this is so as long as the
    watchers are `Calm`, and that changes of the debugger in its slot keep them calm. -/
structure Unattended (slot : Slot σ) (notify : Event → Run ε σ Unit) (Calm : σ → Prop) : Prop where
  told : ∀ e m t, Calm t → notify e (m, t) = .ok () (m, t)
  get_modify : ∀ f t, Calm t → slot.get (slot.modify f t) = f (slot.get t)
  calm_modify : ∀ f t, Calm t → Calm (slot.modify f t)

variable {slot : Slot σ} {notify : Event → Run ε σ Unit} {Calm : σ → Prop}

theorem Unattended.observing (h : Unattended slot notify Calm) : Run.Observing notify Calm :=
  fun e m t ht => .inl ⟨t, ht, h.told e m t ht⟩

/-- Nobody hears a script. -/
theorem Unattended.play (h : Unattended slot notify Calm) {α : Type}
    (stop : σ → EStateM.Result (Fault ε) (Machine × σ) α) (cs : List Callback) {t : σ}
    (ht : Calm t) : Run.play notify stop cs t = stop t := by
  induction cs with
  | nil => rfl
  | cons c cs ih =>
      simp only [Run.play, h.told c.1 c.2 t ht]
      exact ih

/-- A step has an outcome that does not depend on the watchers, and it leaves them as they are. A
    halt does not fail. -/
theorem Unattended.step (h : Unattended slot notify Calm) (m : Machine) :
    ∃ o n, (m.AtHalt → ∃ x, o = .ok x) ∧
      ∀ t, Calm t → Run.step notify (m, t) = Run.ended o n t := by
  obtain ⟨fs, ds, o, n, -, hscript⟩ := Run.step_script (ε := ε) Calm m
  refine ⟨o, n, fun hm => (hscript.halts.once hm).2, fun t ht => ?_⟩
  have hplays : Run.step notify (m, t) = Run.play notify (Run.ended o n) (fs ++ ds) t :=
    hscript.plays notify h.observing t ht
  rw [hplays, h.play _ _ ht]

/-- What a step does it does with other watchers too. -/
theorem Unattended.of_step (h : Unattended slot notify Calm) {m n : Machine} {t u : σ}
    {o : Except (Fault ε) Snapshot} (ht : Calm t) (hstep : Run.step notify (m, t) = Run.ended o n u) :
    u = t ∧ ∀ w, Calm w → Run.step notify (m, w) = Run.ended o n w := by
  obtain ⟨o', n', -, hall⟩ := h.step m
  rw [hall t ht] at hstep
  cases o' <;> cases o <;> cases hstep
  · exact ⟨rfl, hall⟩
  · exact ⟨rfl, hall⟩

/-- A walk leaves the watchers as they are, and is the same walk with other ones. -/
theorem Unattended.walks (h : Unattended slot notify Calm) {m n : Machine} {t u : σ} {k : Nat}
    {xs : List Snapshot} (ht : Calm t) (hwalk : Run.Walks notify (m, t) k xs (n, u)) :
    u = t ∧ ∀ w, Calm w → Run.Walks notify (m, w) k xs (n, w) := by
  induction k generalizing m xs with
  | zero =>
      obtain ⟨rfl, he⟩ := Run.eq_of_walks_zero hwalk
      cases he
      exact ⟨rfl, fun w _ => .zero (n, w)⟩
  | succ k ih =>
      obtain ⟨hend, x, ⟨v, t'⟩, ys, hstep, hv, rfl⟩ := hwalk.uncons
      obtain ⟨rfl, hsteps⟩ := h.of_step (o := .ok x) ht hstep
      obtain ⟨hu, hwalks⟩ := ih hv
      exact ⟨hu, fun w hw => (hwalks w hw).cons hend (hsteps w hw)⟩

/-- The byte at the program counter is fetched if there is one. -/
theorem Unattended.fetch (h : Unattended slot notify Calm) {m : Machine} {b : Byte} {t : σ}
    (ht : Calm t) (hb : m.memory.get? m.state.pc.toNat = some b) :
    Micro.fetch.run notify (m, t) = .ok b (Run.fetched m b, t) := by
  have hplays := (Run.follows_fetch (ε := ε) Calm hb).plays notify h.observing t ht
  exact hplays.trans (h.play _ _ ht)

/-! ## The debugger without breakpoints -/

/-- The debugger is running, and none of its breakpoints is enabled. -/
structure Free (d : Debugger) : Prop where
  running : d.running = true
  disabled : ∀ b ∈ d.breakpoints, b.enabled.truth = false

theorem Free.any_hitAt {d : Debugger} (h : d.Free) (pc : Word) :
    (d.breakpoints.any fun b => b.hitAt pc) = false := by
  rw [List.any_eq_false]
  intro b hb
  rw [Breakpoint.hitAt, h.disabled b hb]
  simp

theorem Free.find?_eq_none {d : Debugger} (h : d.Free) (before after : State)
    (accesses : List Access) :
    (d.breakpoints.find? fun b => b.nameless || b.hitBy before after accesses) = none := by
  rw [List.find?_eq_none]
  intro b hb
  rw [Breakpoint.nameless, Breakpoint.hitBy, h.disabled b hb]
  simp

/-- Past the memory a run ends. -/
theorem Free.continueRun_past {m : Machine} {t : σ} (hd : (slot.get t).Free)
    (hpast : m.size ≤ m.state.pc.toNat) (fuel i : Nat) :
    continueRun slot notify none (fuel + 1) i (m, t) = finish slot .endOfMemory (m, t) := by
  have hnone : m.memory.get? m.state.pc.toNat = none := by
    rw [← Option.not_isSome_iff_eq_none, Memory.get?_isSome, Nat.not_lt]
    exact hpast
  rw [continueRun_succ, if_neg (by simp [hd.running]), if_pos hnone]

/-- A run that is not past the memory makes a step, and looks at what it did. -/
theorem Free.continueRun_step {m : Machine} {t : σ} (hd : (slot.get t).Free)
    (hin : m.state.pc.toNat < m.size) (fuel i : Nat) :
    continueRun slot notify none (fuel + 1) i (m, t) =
      match Debugger.step slot notify (m, t) with
      | .ok s (n, u) => resume slot notify none fuel (i + 1) ⟨n, u, some (m, s)⟩
      | .error f p => .error f p := by
  have hsome : m.memory.get? m.state.pc.toNat ≠ none := by
    rw [← Option.isSome_iff_ne_none, Memory.get?_isSome]
    exact hin
  have hrunning : ¬(slot.get t).running = false := by rw [hd.running]; decide
  have hmissed : ¬(i != 0 && (slot.get t).breakpoints.any fun b => b.hitAt m.state.pc) = true := by
    rw [hd.any_hitAt, Bool.and_false]
    decide
  have hround : continueRun slot notify none (fuel + 1) i (m, t) = _ := continueRun_succ fuel i m t
  rw [if_neg hrunning, if_neg hsome, if_neg hmissed] at hround
  exact hround

/-- A step of the debugger is a step of the machine, with an entry in the history if it returns. -/
theorem Unattended.debugger_step (h : Unattended slot notify Calm) {m n : Machine} {t : σ}
    {o : Except (Fault ε) Snapshot} (ht : Calm t) (hd : (slot.get t).Free)
    (hstep : ∀ w, Calm w → Run.step notify (m, w) = Run.ended o n w) :
    ∃ u, Calm u ∧ (slot.get u).Free ∧ Debugger.step slot notify (m, t) = Run.ended o n u ∧
      (slot.get u).history.toList = (slot.get t).history.toList ++ o.toOption.toList := by
  have ht' := h.calm_modify (fun d => { d with before := m.state }) t ht
  have hget := h.get_modify (fun d => { d with before := m.state }) t ht
  have hsteps : Debugger.step slot notify (m, t) =
      (Run.step notify >>= fun s => update slot (fun d => d.note s) >>= fun _ => pure s)
        (m, slot.modify (fun d => { d with before := m.state }) t) := rfl
  simp only [hsteps, Bind.bind, EStateM.bind, hstep _ ht']
  cases o with
  | error f =>
      refine ⟨_, ht', ?_, rfl, ?_⟩
      · rw [hget]
        exact ⟨hd.running, hd.disabled⟩
      · rw [hget]
        exact (List.append_nil _).symm
  | ok s =>
      have hget' := h.get_modify (fun d => d.note s) _ ht'
      refine ⟨_, h.calm_modify (fun d => d.note s) _ ht', ?_, rfl, ?_⟩
      · rw [hget', hget]
        exact ⟨hd.running, hd.disabled⟩
      · rw [hget', hget]
        exact Array.toList_push

/-- After a step that began at a halt a run ends. -/
theorem resume_atHalt {m n : Machine} {u : σ} {x : Snapshot} (hm : m.AtHalt) (fuel i : Nat) :
    resume slot notify none fuel i ⟨n, u, some (m, x)⟩ = finish slot .halted (n, u) := by
  rw [Machine.AtHalt] at hm
  simp only [resume, hm, beq_self_eq_true, if_true]

/-- After any other step a run goes on. -/
theorem Free.resume_goesOn {m n : Machine} {u : σ} {x : Snapshot} (hd : (slot.get u).Free)
    (hm : ¬m.AtHalt) (fuel i : Nat) :
    resume slot notify none fuel i ⟨n, u, some (m, x)⟩ =
      continueRun slot notify none fuel i (n, u) := by
  have hne : (m.memory.get? m.state.pc.toNat == some haltOpcode) = false :=
    beq_eq_false_iff_ne.2 hm
  simp only [resume, hne, hd.find?_eq_none, Bool.false_eq_true, if_false]

/-! ## Lockstep -/

/-- A run of the debugger follows the walk, with one entry in the history for each step. -/
theorem Unattended.continueRun_walks (h : Unattended slot notify Calm) {m n : Machine} {t v : σ}
    {k : Nat} {xs : List Snapshot} (ht : Calm t) (hd : (slot.get t).Free)
    (hwalk : Run.Walks notify (m, t) k xs (n, v)) :
    ∃ u, Calm u ∧ (slot.get u).Free ∧
      (slot.get u).history.toList = (slot.get t).history.toList ++ xs ∧
      ∀ fuel i, continueRun slot notify none (fuel + k) i (m, t) =
        continueRun slot notify none fuel (i + k) (n, u) := by
  induction k generalizing m t v xs with
  | zero =>
      obtain ⟨rfl, he⟩ := Run.eq_of_walks_zero hwalk
      cases he
      exact ⟨t, ht, hd, (List.append_nil _).symm, fun _ _ => rfl⟩
  | succ k ih =>
      obtain ⟨hend, x, ⟨m', t'⟩, ys, hstep, hrest, rfl⟩ := hwalk.uncons
      obtain ⟨hin, hhalt⟩ := not_or.1 hend
      obtain ⟨rfl, hsteps⟩ := h.of_step (o := .ok x) ht hstep
      obtain ⟨u, hu, hdu, hdebug, hhistory⟩ := h.debugger_step ht hd hsteps
      obtain ⟨-, hrest'⟩ := h.walks ht hrest
      obtain ⟨w, hw, hdw, hhistory', hrun⟩ := ih hu hdu (hrest' u hu)
      refine ⟨w, hw, hdw, ?_, fun fuel i => ?_⟩
      · rw [hhistory', hhistory, List.append_assoc]
        rfl
      · rw [← Nat.add_assoc, hd.continueRun_step (Nat.not_le.1 hin), hdebug]
        show resume slot notify none (fuel + k) (i + 1) ⟨m', u, some (m, x)⟩ = _
        rw [hdu.resume_goesOn hhalt, hrun, Nat.add_assoc, Nat.add_comm 1 k]

/-! ## How runs end -/

/-- With fuel for more than `k` steps a run of the debugger has the outcome `o` and the machine `n`,
    and its history has the snapshots `xs` more. -/
def RunEnds (slot : Slot σ) (notify : Event → Run ε σ Unit) (s : Machine × σ) (k : Nat)
    (o : Except (Fault ε) StopReason) (n : Machine) (xs : List Snapshot) : Prop :=
  ∃ w, (slot.get w).history.toList = (slot.get s.2).history.toList ++ xs ∧
    ∀ fuel > k, run slot notify fuel none s = Run.ended (o.map some) n w

/-- The run starts, follows the walk, and then has one more round at least. -/
theorem Unattended.runEnds_of_walks (h : Unattended slot notify Calm) {m n n' : Machine} {t v : σ}
    {k : Nat} {xs ys : List Snapshot} {o : Except (Fault ε) StopReason} (ht : Calm t)
    (hb : ∀ b ∈ (slot.get t).breakpoints, b.enabled.truth = false)
    (hwalk : Run.Walks notify (m, t) k xs (n, v))
    (hround : ∀ u, Calm u → (slot.get u).Free → ∃ w,
      (slot.get w).history.toList = (slot.get u).history.toList ++ ys ∧
      ∀ fuel, continueRun slot notify none (fuel + 1) k (n, u) = Run.ended (o.map some) n' w) :
    RunEnds slot notify (m, t) k o n' (xs ++ ys) := by
  have ht' := h.calm_modify (fun d => { d with running := true }) t ht
  have hget := h.get_modify (fun d => { d with running := true }) t ht
  have hd : (slot.get (slot.modify (fun d => { d with running := true }) t)).Free := by
    rw [hget]
    exact ⟨rfl, hb⟩
  obtain ⟨-, hwalks⟩ := h.walks ht hwalk
  obtain ⟨u, hu, hdu, hhistory, hrun⟩ := h.continueRun_walks ht' hd (hwalks _ ht')
  obtain ⟨w, hhistory', hlast⟩ := hround u hu hdu
  refine ⟨w, ?_, fun fuel hfuel => ?_⟩
  · rw [hhistory', hhistory, hget, List.append_assoc]
  · have hsplit : fuel = fuel - k - 1 + 1 + k := by omega
    have hstart : run slot notify fuel none (m, t) =
        continueRun slot notify none fuel 0
          (m, slot.modify (fun d => { d with running := true }) t) := rfl
    rw [hstart, hsplit, hrun, Nat.zero_add, hlast]

/-- Ending a run keeps the history. -/
theorem Unattended.finish (h : Unattended slot notify Calm) (r : StopReason) (n : Machine) {u : σ}
    (hu : Calm u) : ∃ w, (slot.get w).history.toList = (slot.get u).history.toList ∧
      Debugger.finish (ε := ε) slot r (n, u) = Run.ended (.ok (some r)) n w := by
  refine ⟨slot.modify stop u, ?_, rfl⟩
  rw [h.get_modify stop u hu]
  rfl

/-- A walk to the end of memory. -/
theorem Unattended.runEnds_past (h : Unattended slot notify Calm) {m n : Machine} {t v : σ}
    {k : Nat} {xs : List Snapshot} (ht : Calm t)
    (hb : ∀ b ∈ (slot.get t).breakpoints, b.enabled.truth = false)
    (hwalk : Run.Walks notify (m, t) k xs (n, v)) (hpast : n.size ≤ n.state.pc.toNat) :
    RunEnds slot notify (m, t) k (.ok .endOfMemory) n xs := by
  rw [← List.append_nil xs]
  refine h.runEnds_of_walks ht hb hwalk fun u hu hd => ?_
  obtain ⟨w, hhistory, hfinish⟩ := h.finish .endOfMemory n hu
  refine ⟨w, by rw [hhistory, List.append_nil], fun fuel => ?_⟩
  rw [hd.continueRun_past hpast, hfinish]
  rfl

/-- A walk to a halt, which the debugger executes. -/
theorem Unattended.runEnds_halt (h : Unattended slot notify Calm) {m n : Machine} {t v : σ}
    {k : Nat} {xs : List Snapshot} (ht : Calm t)
    (hb : ∀ b ∈ (slot.get t).breakpoints, b.enabled.truth = false)
    (hwalk : Run.Walks notify (m, t) k xs (n, v)) (hhalt : n.AtHalt) :
    ∃ x n', Run.step notify (n, t) = .ok x (n', t) ∧
      RunEnds slot notify (m, t) k (.ok .halted) n' (xs ++ [x]) := by
  obtain ⟨o, n', ho, hstep⟩ := h.step n
  obtain ⟨x, rfl⟩ := ho hhalt
  refine ⟨x, n', hstep t ht, h.runEnds_of_walks ht hb hwalk fun u hu hd => ?_⟩
  obtain ⟨w, hw, -, hdebug, hhistory⟩ := h.debugger_step hu hd hstep
  obtain ⟨w', hhistory', hfinish⟩ := h.finish .halted n' hw
  refine ⟨w', by rw [hhistory', hhistory]; rfl, fun fuel => ?_⟩
  rw [hd.continueRun_step (Memory.get?_isSome.1 (Option.isSome_iff_exists.2 ⟨_, hhalt⟩)), hdebug]
  show resume slot notify none fuel (k + 1) ⟨n', w, some (n, x)⟩ = _
  rw [resume_atHalt hhalt, hfinish]
  rfl

/-- A walk to a step that fails. -/
theorem Unattended.runEnds_fault (h : Unattended slot notify Calm) {m n : Machine} {t v : σ}
    {k : Nat} {xs : List Snapshot} (ht : Calm t)
    (hb : ∀ b ∈ (slot.get t).breakpoints, b.enabled.truth = false)
    (hwalk : Run.Walks notify (m, t) k xs (n, v)) (hin : n.state.pc.toNat < n.size) {f : Fault ε}
    {p : Machine × σ} (hfail : Run.step notify (n, t) = .error f p) :
    p.2 = t ∧ RunEnds slot notify (m, t) k (.error f) p.1 xs := by
  obtain ⟨hp, hstep⟩ := h.of_step (o := .error f) (n := p.1) (u := p.2) ht hfail
  refine ⟨hp, ?_⟩
  rw [← List.append_nil xs]
  refine h.runEnds_of_walks ht hb hwalk fun u hu hd => ?_
  obtain ⟨w, -, -, hdebug, hhistory⟩ := h.debugger_step hu hd hstep
  refine ⟨w, hhistory, fun fuel => ?_⟩
  rw [hd.continueRun_step hin, hdebug]
  rfl

/-- When nobody watches and no breakpoint is enabled, a run of steps and a run of the debugger
    agree. The former returns at the first end that its steps come to, which is the end of memory or
    a halt that is not executed, and fails only in a step whose opcode it has fetched. The latter
    ends after the same steps: at the end of memory with the same machine, at a halt with the
    machine one step later, and with a fault where the former has it. Its history has a snapshot
    for each step that returned. -/
theorem run_agrees (h : Unattended slot notify Calm) (m : Machine) {t : σ} (ht : Calm t)
    (hb : ∀ b ∈ (slot.get t).breakpoints, b.enabled.truth = false) :
    (∀ fuel s, Run.toEnd notify fuel (m, t) = .ok true s ↔
      ∃ k ≤ fuel, ∃ xs, Run.Walks notify (m, t) k xs s ∧ s.1.AtEnd) ∧
    (∀ fuel f p, Run.toEnd notify fuel (m, t) = .error f p ↔
      ∃ k < fuel, ∃ xs s, Run.Walks notify (m, t) k xs s ∧ ¬s.1.AtEnd ∧
        Run.step notify s = .error f p) ∧
    ∀ k xs s, Run.Walks notify (m, t) k xs s → s.2 = t ∧ xs.length = k ∧
      (s.1.size ≤ s.1.state.pc.toNat → RunEnds slot notify (m, t) k (.ok .endOfMemory) s.1 xs) ∧
      (s.1.AtHalt → ∃ x n, Run.step notify s = .ok x (n, t) ∧
        RunEnds slot notify (m, t) k (.ok .halted) n (xs ++ [x])) ∧
      (¬s.1.AtEnd → (∃ b p, (Run.clearLog >>= fun _ => Micro.fetch.run notify) s = .ok b p) ∧
        ∀ f p, Run.step notify s = .error f p →
          p.2 = t ∧ RunEnds slot notify (m, t) k (.error f) p.1 xs) := by
  refine ⟨fun fuel s => Run.toEnd_eq_true_iff fuel (m, t) s,
    fun fuel f p => Run.toEnd_eq_error_iff fuel (m, t) p f, ?_⟩
  rintro k xs ⟨n, u⟩ hwalk
  obtain ⟨rfl, -⟩ := h.walks ht hwalk
  refine ⟨rfl, hwalk.length_eq, fun hpast => h.runEnds_past ht hb hwalk hpast,
    fun hhalt => h.runEnds_halt ht hb hwalk hhalt, fun hend => ?_⟩
  have hin : n.state.pc.toNat < n.size := Nat.not_le.1 (not_or.1 hend).1
  refine ⟨?_, fun f p hfail => h.runEnds_fault ht hb hwalk hin hfail⟩
  obtain ⟨b, hfetched⟩ := Option.isSome_iff_exists.1 (Memory.get?_isSome.2 hin)
  exact ⟨b, _, h.fetch (m := { n with log := #[] }) ht hfetched⟩

end Debugger

/-! ## In a session -/

namespace Monitor

/-- Debugger `k` is the one in use, and nothing is watched. -/
def Desk.Unwatched (k : Nat) (d : Desk) : Prop :=
  d.debuggers.size = k + 1 ∧ d.watches.list = []

/-- A session in which nothing is watched. -/
theorem unattended_notify (k depth : Nat) :
    Debugger.Unattended (Desk.slot k) (notify depth) (Desk.Unwatched k) where
  told e m d hd := by
    have hnobody : d.watches.hearers e.topic e.subject? = [] := by
      rw [Watches.hearers, hd.2]
      rfl
    cases depth <;> simp only [notify, Watches.tell, Watches.emit, Bind.bind, EStateM.bind,
      Run.watchers, hnobody] <;> rfl
  get_modify f d hd := Desk.slot_get_modify (hd.1 ▸ Nat.lt_succ_self k) f
  calm_modify f d hd := ⟨Array.size_modify.trans hd.1, hd.2⟩

/-- Six bytes of memory with MVI A and STA, which writes a halt behind itself. -/
def writingHalt : Machine where
  memory := ⟨#[0x3E, 0x76, 0x32, 0x05, 0x00, 0x00]⟩

/-- A desk with a debugger whose one breakpoint, at address 2, is not enabled. -/
def unwatchedDesk : Desk where
  debuggers := #[{
    breakpoints := [{ kind := .pcMatch, value := .int 2, enabled := .bool false }]
    before := {} }]

/-- What is seen of a run of steps: whether it came to an end, the program counter, the memory. -/
def stepsSeenOf : EStateM.Result (Fault Failure) (Machine × Desk) Bool →
    Option (Bool × Word × Array Byte)
  | .ok b s => some (b, s.1.state.pc, s.1.memory.cells)
  | .error _ _ => none

/-- The run of steps stops before the halt that the program has just written, and the run of the
    debugger after it. -/
theorem run_agrees_writingHalt :
    Desk.Unwatched 0 unwatchedDesk ∧
    (∀ b ∈ ((Desk.slot 0).get unwatchedDesk).breakpoints, b.enabled.truth = false) ∧
    ∃ xs x s n, Run.toEnd (notify 1) 2 (writingHalt, unwatchedDesk) = .ok true s ∧
      s.1.state.pc = 5 ∧ xs.length = 2 ∧
      Debugger.RunEnds (Desk.slot 0) (notify 1) (writingHalt, unwatchedDesk) 2 (.ok .halted) n
        (xs ++ [x]) := by
  have hd : Desk.Unwatched 0 unwatchedDesk := ⟨rfl, rfl⟩
  have hb : ∀ b ∈ ((Desk.slot 0).get unwatchedDesk).breakpoints, b.enabled.truth = false := by
    decide
  refine ⟨hd, hb, ?_⟩
  obtain ⟨hreturns, -, hwalks⟩ := Debugger.run_agrees (unattended_notify 0 1) writingHalt hd hb
  have htwo : stepsSeenOf (Run.toEnd (notify 1) 2 (writingHalt, unwatchedDesk)) =
      some (true, 5, #[0x3E, 0x76, 0x32, 0x05, 0x00, 0x76]) := by
    decide +kernel
  have hone : (stepsSeenOf (Run.toEnd (notify 1) 1 (writingHalt, unwatchedDesk))).map Prod.fst =
      some false := by
    decide +kernel
  cases hrun : Run.toEnd (notify 1) 2 (writingHalt, unwatchedDesk) with
  | error f s =>
      rw [hrun] at htwo
      cases htwo
  | ok b s =>
      rw [hrun, stepsSeenOf, Option.some_inj, Prod.mk.injEq, Prod.mk.injEq] at htwo
      obtain ⟨rfl, hpc, hcells⟩ := htwo
      obtain ⟨k, hk, xs, hwalk, hend⟩ := (hreturns 2 s).1 hrun
      -- one step is not enough
      have hk' : ¬k ≤ 1 := by
        intro hle
        rw [(hreturns 1 s).2 ⟨k, hle, xs, hwalk, hend⟩] at hone
        cases hone
      obtain rfl : k = 2 := by omega
      have hhalt : s.1.AtHalt := by
        rw [Machine.AtHalt, Memory.get?, hpc, hcells]
        decide
      obtain ⟨-, hlength, -, hhalted, -⟩ := hwalks 2 xs s hwalk
      obtain ⟨x, n, -, hends⟩ := hhalted hhalt
      exact ⟨xs, x, s, n, rfl, hpc, hlength, hends⟩

end Monitor

end Lab8085
