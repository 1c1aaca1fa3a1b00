/-
  Lab8085.Proofs.Machine.Script

  The callbacks of a run as a script.

  A run under watchers that only observe follows a script: the callbacks that it makes, in
  order, each with the machine as it is just then.  The script depends on the machine alone
  and not on who watches.  A request makes one callback at most, and the scripts of runs in
  sequence are joined, so every microprogram, every step and every run of steps has one.
  Its invariant is `Machine.Script`: between callbacks the state stays and the log traces
  the memory, and each callback tells a change that has just been made.
-/
import Lab8085.Proofs.Machine.Trace

namespace Lab8085

/-! ## Events and the state -/

namespace State

/-- The state after an event: a change is made, a halt changes nothing. -/
def follow (s : State) : Event → State
  | .changed c => s.apply c
  | .halted => s

/-- The state after some events, first to last. -/
def followAll (s : State) (es : List Event) : State :=
  es.foldl follow s

/-- An event tells of a value that the state does not hold yet, or of a halt. -/
def IsNews (s : State) : Event → Prop
  | .changed c => s.holds c = false
  | .halted => True

end State

/-- A callback: the event that is told, and the machine as it is then. -/
abbrev Callback := Event × Machine

/-! ## Mirrors -/

namespace Machine

/-- Callbacks that mirror the state on the way from one machine to another: each tells news, and
    finds the machine in the state that the events so far lead to. -/
def Mirrors : Machine → List Callback → Machine → Prop
  | m, [], n => n.state = m.state
  | m, (e, k) :: cs, n => m.state.IsNews e ∧ k.state = m.state.follow e ∧ k.Mirrors cs n

/-- At the end the state is that of the mirror. -/
theorem Mirrors.end_eq {m n : Machine} {cs : List Callback} (h : m.Mirrors cs n) :
    n.state = m.state.followAll (cs.map Prod.fst) := by
  induction cs generalizing m with
  | nil => exact h
  | cons c cs ih =>
      obtain ⟨-, hc, hcs⟩ := h
      rw [ih hcs, hc]
      rfl

/-- At a callback the state is that of the mirror after the event. -/
theorem Mirrors.callback_eq {m n k : Machine} {cs₁ cs₂ : List Callback} {e : Event}
    (h : m.Mirrors (cs₁ ++ (e, k) :: cs₂) n) :
    k.state = m.state.followAll (cs₁.map Prod.fst ++ [e]) := by
  induction cs₁ generalizing m with
  | nil => exact h.2.1
  | cons c cs ih =>
      obtain ⟨-, hc, hcs⟩ := h
      rw [ih hcs, hc]
      rfl

/-- Only the states matter at the ends. -/
theorem Mirrors.of_state {m m' n n' : Machine} {cs : List Callback} (h : m.Mirrors cs n)
    (hm : m'.state = m.state) (hn : n'.state = n.state) : m'.Mirrors cs n' := by
  induction cs generalizing m m' with
  | nil => exact hn.trans (Eq.trans h hm.symm)
  | cons c cs ih =>
      obtain ⟨hnews, hc, hcs⟩ := h
      rw [← hm] at hnews hc
      exact ⟨hnews, hc, ih hcs rfl⟩

theorem Mirrors.append {m n k : Machine} {cs ds : List Callback} (h : m.Mirrors cs n)
    (h' : n.Mirrors ds k) : m.Mirrors (cs ++ ds) k := by
  induction cs generalizing m with
  | nil => exact h'.of_state (Eq.symm h) rfl
  | cons c cs ih =>
      obtain ⟨hnews, hc, hcs⟩ := h
      exact ⟨hnews, hc, ih hcs⟩

end Machine

/-! ## Scripts -/

namespace Machine

/-- The machine after an event. -/
def follow (m : Machine) (e : Event) : Machine :=
  { m with state := m.state.follow e }

/-- What a machine does between callbacks: the state stays, and the log traces the memory. -/
structure Works (m n : Machine) : Prop where
  state : n.state = m.state
  trace : ∃ xs, n.log.toList = m.log.toList ++ xs ∧ m.memory.Traces xs n.memory

theorem Works.refl (m : Machine) : m.Works m :=
  ⟨rfl, [], (List.append_nil _).symm, .nil _⟩

theorem Works.trans {m n k : Machine} (h : m.Works n) (h' : n.Works k) : m.Works k := by
  obtain ⟨hstate, xs, hlog, hmem⟩ := h
  obtain ⟨hstate', ys, hlog', hmem'⟩ := h'
  refine ⟨hstate'.trans hstate, xs ++ ys, ?_, hmem.append hmem'⟩
  rw [hlog', hlog, List.append_assoc]

/-- Callbacks on the way from one machine to another: before each of them and at the end the
    machine works, and each tells news. -/
inductive Script : Machine → List Callback → Machine → Prop where
  | done {m n : Machine} (h : m.Works n) : Script m [] n
  | tell {m n k : Machine} {e : Event} {cs : List Callback} (h : m.Works n)
      (hnews : n.state.IsNews e) (hcs : Script (n.follow e) cs k) :
      Script m ((e, n.follow e) :: cs) k

/-- Work before a script is part of it. -/
theorem Script.of_works {m n k : Machine} {cs : List Callback} (h : m.Works n)
    (hcs : n.Script cs k) : m.Script cs k := by
  cases hcs with
  | done h' => exact .done (h.trans h')
  | tell h' hnews hcs => exact .tell (h.trans h') hnews hcs

theorem Script.append {m n k : Machine} {cs ds : List Callback} (h : m.Script cs n)
    (h' : n.Script ds k) : m.Script (cs ++ ds) k := by
  induction h with
  | done hw => exact h'.of_works hw
  | tell hw hnews _ ih => exact .tell hw hnews (ih h')

theorem Script.mirrors {m n : Machine} {cs : List Callback} (h : m.Script cs n) :
    m.Mirrors cs n := by
  induction h with
  | done hw => exact hw.state
  | @tell m n k e cs hw hnews _ ih =>
      rw [hw.state] at hnews
      exact ⟨hnews, congrArg (State.follow · e) hw.state, ih⟩

/-- At every callback the log so far traces the memory. -/
theorem Script.trace {m n : Machine} {cs : List Callback} (h : m.Script cs n) :
    ∀ c ∈ cs, ∃ xs, c.2.log.toList = m.log.toList ++ xs ∧ m.memory.Traces xs c.2.memory := by
  induction h with
  | done _ =>
      intro c hc
      exact absurd hc List.not_mem_nil
  | tell hw _ _ ih =>
      obtain ⟨xs, hlog, hmem⟩ := hw.trace
      intro c hc
      rcases List.mem_cons.1 hc with rfl | hc
      · exact ⟨xs, hlog, hmem⟩
      · obtain ⟨ys, hlog', hmem'⟩ := ih c hc
        refine ⟨xs ++ ys, ?_, hmem.append hmem'⟩
        rw [hlog', ← List.append_assoc, ← hlog]
        rfl

end Machine

/-! ## Runs that follow a script -/

namespace Run

variable {ε σ α β : Type}

/-- Watchers that only observe: they leave the machine alone, whether they return or fail. It is
    enough that they do so as long as they are `Calm`, and that they stay calm. -/
def Observing (notify : Event → Run ε σ Unit) (Calm : σ → Prop) : Prop :=
  ∀ e m t, Calm t → (∃ u, Calm u ∧ notify e (m, t) = .ok () (m, u)) ∨
    ∃ f u, notify e (m, t) = .error f (m, u)

/-- The end of a run, a result or a fault, with a machine and watchers. -/
def ended (o : Except (Fault ε) α) (m : Machine) (t : σ) :
    EStateM.Result (Fault ε) (Machine × σ) α :=
  match o with
  | .ok x => .ok x (m, t)
  | .error f => .error f (m, t)

/-- The callbacks of a script made one after the other, and then the end. A callback that fails
    ends the script there. -/
def play (notify : Event → Run ε σ Unit)
    (stop : σ → EStateM.Result (Fault ε) (Machine × σ) α) :
    List Callback → σ → EStateM.Result (Fault ε) (Machine × σ) α
  | [], t => stop t
  | (e, m) :: cs, t =>
    match notify e (m, t) with
    | .ok _ s => play notify stop cs s.2
    | .error f s => .error f s

/-- A run follows a script from the machine `m` on, whoever observes it. -/
def Plays (Calm : σ → Prop) (r : (Event → Run ε σ Unit) → Run ε σ α) (m : Machine)
    (cs : List Callback) (o : Except (Fault ε) α) (n : Machine) : Prop :=
  ∀ notify, Observing notify Calm → ∀ t, Calm t → r notify (m, t) = play notify (ended o n) cs t

variable {Calm : σ → Prop} {notify : Event → Run ε σ Unit}

/-- Scripts joined are played one after the other. -/
theorem play_append (notify : Event → Run ε σ Unit)
    (stop : σ → EStateM.Result (Fault ε) (Machine × σ) α) (cs ds : List Callback) (t : σ) :
    play notify stop (cs ++ ds) t = play notify (play notify stop ds) cs t := by
  induction cs generalizing t with
  | nil => rfl
  | cons c cs ih =>
      simp only [List.cons_append, play]
      cases notify c.1 (c.2, t) with
      | ok _ s => exact ih s.2
      | error f s => rfl

/-- Going on after a script is going on at its end. -/
theorem play_bind (hobs : Observing notify Calm) {f : α → Run ε σ β} {x : α} {n : Machine}
    {cs : List Callback} {stop : σ → EStateM.Result (Fault ε) (Machine × σ) β}
    (hstop : ∀ u, Calm u → f x (n, u) = stop u) {t : σ} (ht : Calm t)
    {r : Run ε σ α} {s : Machine × σ} (hr : r s = play notify (ended (.ok x) n) cs t) :
    (r >>= f) s = play notify stop cs t := by
  simp only [Bind.bind, EStateM.bind, hr]
  clear hr
  induction cs generalizing t with
  | nil => exact hstop t ht
  | cons c cs ih =>
      obtain ⟨e, m⟩ := c
      simp only [play]
      rcases hobs e m t ht with ⟨u, hu, he⟩ | ⟨f, u, he⟩
      · rw [he]
        exact ih hu
      · rw [he]

theorem Plays.bind {r : (Event → Run ε σ Unit) → Run ε σ α}
    {f : (Event → Run ε σ Unit) → α → Run ε σ β} {m n k : Machine} {cs ds : List Callback} {x : α}
    {o : Except (Fault ε) β} (hr : Plays Calm r m cs (.ok x) n)
    (hf : Plays Calm (fun notify => f notify x) n ds o k) :
    Plays Calm (fun notify => r notify >>= f notify) m (cs ++ ds) o k := by
  intro notify hobs t ht
  rw [play_append]
  exact play_bind hobs (fun u hu => hf notify hobs u hu) ht (hr notify hobs t ht)

/-- What follows a fault is not done. -/
theorem Plays.bind_error {r : (Event → Run ε σ Unit) → Run ε σ α}
    {f : (Event → Run ε σ Unit) → α → Run ε σ β} {m n : Machine} {cs : List Callback}
    {e : Fault ε} (hr : Plays Calm r m cs (.error e) n) :
    Plays Calm (fun notify => r notify >>= f notify) m cs (.error e) n := by
  intro notify hobs t ht
  simp only [Bind.bind, EStateM.bind, hr notify hobs t ht]
  clear hr
  induction cs generalizing t with
  | nil => rfl
  | cons c cs ih =>
      simp only [play]
      rcases hobs c.1 c.2 t ht with ⟨u, hu, he⟩ | ⟨f, u, he⟩
      · rw [he]
        exact ih u hu
      · rw [he]

/-- A result made of the run's own changes no callback. -/
theorem Plays.map {r : (Event → Run ε σ Unit) → Run ε σ α} {m n : Machine} {cs : List Callback}
    {o : Except (Fault ε) α} (g : α → β) (hr : Plays Calm r m cs o n) :
    Plays Calm (fun notify => r notify >>= fun x => pure (g x)) m cs (o.map g) n := by
  cases o with
  | error e => exact hr.bind_error
  | ok x =>
      rw [← List.append_nil cs]
      exact hr.bind fun _ _ _ _ => rfl

theorem Plays.congr {r r' : (Event → Run ε σ Unit) → Run ε σ α} {m n : Machine}
    {cs : List Callback} {o : Except (Fault ε) α}
    (h : ∀ notify t, r notify (m, t) = r' notify (m, t)) (hr : Plays Calm r' m cs o n) :
    Plays Calm r m cs o n :=
  fun notify hobs t ht => (h notify t).trans (hr notify hobs t ht)

/-- A run that makes no callbacks. -/
theorem Plays.of_eq {r : (Event → Run ε σ Unit) → Run ε σ α} {m n : Machine}
    {o : Except (Fault ε) α} (h : ∀ notify t, r notify (m, t) = ended o n t) :
    Plays Calm r m [] o n :=
  fun notify _ t _ => h notify t

/-- A callback that is the whole run. -/
theorem Plays.callback {r : (Event → Run ε σ Unit) → Run ε σ Unit} {m n : Machine} {e : Event}
    (h : ∀ notify t, r notify (m, t) = notify e (n, t)) : Plays Calm r m [(e, n)] (.ok ()) n := by
  intro notify hobs t ht
  rw [h]
  simp only [play]
  rcases hobs e n t ht with ⟨u, -, he⟩ | ⟨f, u, he⟩
  · rw [he]
    rfl
  · rw [he]

/-- Callbacks that all return. They lead the watchers from `t` to the last one's. -/
inductive Told (notify : Event → Run ε σ Unit) : List Callback → σ → σ → Prop where
  | nil {t : σ} : Told notify [] t t
  | cons {e : Event} {m : Machine} {cs : List Callback} {t u v : σ}
      (he : notify e (m, t) = .ok () (m, u)) (h : Told notify cs u v) :
      Told notify ((e, m) :: cs) t v

/-- A script is played to its end, or up to a callback that fails. -/
theorem play_cases (hobs : Observing notify Calm)
    (stop : σ → EStateM.Result (Fault ε) (Machine × σ) α) (cs : List Callback) {t : σ}
    (ht : Calm t) :
    (∃ u, Told notify cs t u ∧ play notify stop cs t = stop u) ∨
    ∃ cs₁ e n cs₂ u f v, cs = cs₁ ++ (e, n) :: cs₂ ∧ Told notify cs₁ t u ∧
      notify e (n, u) = .error f (n, v) ∧ play notify stop cs t = .error f (n, v) := by
  induction cs generalizing t with
  | nil => exact .inl ⟨t, .nil, rfl⟩
  | cons c cs ih =>
      obtain ⟨e, m⟩ := c
      simp only [play]
      rcases hobs e m t ht with ⟨u, hu, he⟩ | ⟨f, v, he⟩
      · rw [he]
        rcases ih hu with ⟨v, htold, hend⟩ | ⟨cs₁, e', n, cs₂, w, f, v, rfl, htold, hfail, hend⟩
        · exact .inl ⟨v, .cons he htold, hend⟩
        · exact .inr ⟨(e, m) :: cs₁, e', n, cs₂, w, f, v, rfl, .cons he htold, hfail, hend⟩
      · rw [he]
        exact .inr ⟨[], e, m, cs, t, f, v, rfl, .nil, he, rfl⟩

end Run

/-! ## Microprograms -/

namespace Micro

variable {α β : Type}

/-- A microprogram that never reports a halt. -/
def NeverHalts : Micro α → Prop
  | .done _ => True
  | .ask r next => r ≠ .halted ∧ ∀ x, (next x).NeverHalts

@[simp] theorem neverHalts_done (x : α) : (Micro.done x).NeverHalts := trivial

@[simp] theorem neverHalts_ask (r : Request) (next : r.Answer → Micro α) :
    (Micro.ask r next).NeverHalts ↔ r ≠ .halted ∧ ∀ x, (next x).NeverHalts := Iff.rfl

theorem NeverHalts.bind {p : Micro α} {f : α → Micro β} (hp : p.NeverHalts)
    (hf : ∀ x, (f x).NeverHalts) : (p >>= f).NeverHalts := by
  induction p with
  | done x => exact hf x
  | ask r next ih => exact ⟨hp.1, fun x => ih x (hp.2 x)⟩

@[simp] theorem neverHalts_ite {c : Prop} [Decidable c] {p q : Micro α} (hp : p.NeverHalts)
    (hq : q.NeverHalts) : (if c then p else q).NeverHalts := by
  split
  · exact hp
  · exact hq

/-! ### First requests

A program that begins with a request other than a halt never halts if it never does afterwards,
whatever the answer is. -/

@[simp] theorem neverHalts_state {f : State → Micro α} :
    (state >>= f).NeverHalts ↔ ∀ s, (f s).NeverHalts := by
  simp [state]

@[simp] theorem neverHalts_register {r : Register} {f : Byte → Micro α} :
    (register r >>= f).NeverHalts ↔ ∀ s : State, (f (s.registers.get r)).NeverHalts := by
  simp [register, state]

@[simp] theorem neverHalts_flag {k : Flag} {f : Bool → Micro α} :
    (flag k >>= f).NeverHalts ↔ ∀ s : State, (f (s.flags.get k)).NeverHalts := by
  simp [flag, state]

@[simp] theorem neverHalts_pair {p : Pair} {f : Word → Micro α} :
    (pair p >>= f).NeverHalts ↔ ∀ s : State, (f (s.pair p)).NeverHalts := by
  simp [pair, state]

@[simp] theorem neverHalts_assign {c : Change} {f : Unit → Micro α} :
    (assign c >>= f).NeverHalts ↔ (f ()).NeverHalts :=
  ⟨fun h => h.2 (), fun h => ⟨nofun, fun _ => h⟩⟩

@[simp] theorem neverHalts_read {a : Word} {f : Byte → Micro α} :
    (read a >>= f).NeverHalts ↔ ∀ b, (f b).NeverHalts := by
  simp [read]

@[simp] theorem neverHalts_write {a : Word} {v : Byte} {f : Unit → Micro α} :
    (write a v >>= f).NeverHalts ↔ (f ()).NeverHalts :=
  ⟨fun h => h.2 (), fun h => ⟨nofun, fun _ => h⟩⟩

theorem neverHalts_assignAll (cs : List Change) : (assignAll cs).NeverHalts := by
  induction cs with
  | nil => trivial
  | cons c cs ih => simpa [assignAll] using ih

/-! ### The parts of actions -/

@[simp] theorem neverHalts_assign_only (c : Change) : (assign c).NeverHalts :=
  ⟨nofun, fun _ => trivial⟩

@[simp] theorem neverHalts_write_only (a : Word) (v : Byte) : (write a v).NeverHalts :=
  ⟨nofun, fun _ => trivial⟩

@[simp] theorem neverHalts_pushWord (w : Word) : (pushWord w).NeverHalts := by
  simp [pushWord, setSp]

@[simp] theorem neverHalts_popWord : popWord.NeverHalts := by
  simp [popWord, setSp]

end Micro

namespace Action

open Micro

@[simp] theorem neverHalts_load (p : Place) : p.load.NeverHalts := by
  cases p with
  | register r => exact ⟨nofun, fun _ => trivial⟩
  | memory => exact ⟨nofun, fun _ => ⟨nofun, fun _ => trivial⟩⟩

@[simp] theorem neverHalts_operand_load (x : Operand) : x.load.NeverHalts := by
  cases x with
  | place p => exact neverHalts_load p
  | _ => trivial

@[simp] theorem neverHalts_store (p : Place) (v : Byte) : (p.store v).NeverHalts := by
  cases p with
  | register r => exact ⟨nofun, fun _ => trivial⟩
  | memory => exact ⟨nofun, fun _ => ⟨nofun, fun _ => trivial⟩⟩

@[simp] theorem neverHalts_setResultFlags (b : Byte) : (setResultFlags b).NeverHalts := by
  simp [setResultFlags, setFlag]

@[simp] theorem neverHalts_carryBit {α : Type} {f : Nat → Micro α} :
    (carryBit >>= f).NeverHalts ↔ ∀ s : State, (f (s.flags.get .c).toNat).NeverHalts := by
  simp [carryBit, flag, state]

@[simp] theorem neverHalts_addWith (b : Byte) (n : Nat) : (addWith b n).NeverHalts := by
  simp [addWith, setFlag, setRegister]

@[simp] theorem neverHalts_subtractWith (b : Byte) (n : Nat) (keep : Bool) :
    (subtractWith b n keep).NeverHalts := by
  cases keep <;> simp [subtractWith, setFlag, setRegister]

@[simp] theorem neverHalts_logic (b : Byte) (auxiliary : Bool) :
    (logic b auxiliary).NeverHalts := by
  simp [logic, setFlag, setRegister]

@[simp] theorem neverHalts_adjust : adjust.NeverHalts := by
  simp [adjust, setFlag, setRegister]

@[simp] theorem neverHalts_rotateTo (b : Byte) (carry : Bool) : (rotateTo b carry).NeverHalts := by
  simp [rotateTo, setFlag, setRegister]

@[simp] theorem neverHalts_holds (k : Condition) : (holds k).NeverHalts := by
  cases k with
  | always => trivial
  | on f => exact ⟨nofun, fun _ => trivial⟩
  | off f => exact ⟨nofun, fun _ => trivial⟩

@[simp] theorem neverHalts_callTo (w : Word) : (callTo w).NeverHalts := by
  simp [callTo, setPc, NeverHalts.bind]

/-- Only the halt instruction reports a halt. -/
theorem neverHalts_run {a : Action} (ha : a ≠ .halt) (x : Operand) : (a.run x).NeverHalts := by
  rw [run.eq_def]
  split
  all_goals try contradiction
  all_goals simp [setRegister, setFlag, setPc, setSp, Micro.setMask, setPair, Micro.input,
    Micro.output, neverHalts_assignAll, NeverHalts.bind]

end Action

/-! ## Runs that have a script -/

namespace Run

variable {ε σ α β : Type} {Along : Machine → List Callback → Machine → Prop} {Calm : σ → Prop}

/-- A run follows a script in which no halt is told; `Along` says how the script leads from one
    machine to the other. -/
structure Follows (Along : Machine → List Callback → Machine → Prop) (Calm : σ → Prop)
    (r : (Event → Run ε σ Unit) → Run ε σ α) (m : Machine) (cs : List Callback)
    (o : Except (Fault ε) α) (n : Machine) : Prop where
  along : Along m cs n
  plays : Plays Calm r m cs o n
  goesOn : Event.halted ∉ cs.map Prod.fst

/-- A run has a script in which no halt is told. -/
def Scripted (Along : Machine → List Callback → Machine → Prop) (Calm : σ → Prop)
    (r : (Event → Run ε σ Unit) → Run ε σ α) (m : Machine) : Prop :=
  ∃ cs o n, Follows Along Calm r m cs o n

theorem Scripted.mono {Along' : Machine → List Callback → Machine → Prop}
    {r : (Event → Run ε σ Unit) → Run ε σ α} {m : Machine} (hr : Scripted Along Calm r m)
    (h : ∀ {cs n}, Along m cs n → Along' m cs n) : Scripted Along' Calm r m := by
  obtain ⟨cs, o, n, hr⟩ := hr
  exact ⟨cs, o, n, h hr.along, hr.plays, hr.goesOn⟩

/-- Runs in sequence have their scripts joined. -/
theorem Follows.bind (happend : ∀ {m n k cs ds}, Along m cs n → Along n ds k →
    Along m (cs ++ ds) k)
    {r : (Event → Run ε σ Unit) → Run ε σ α} {f : (Event → Run ε σ Unit) → α → Run ε σ β}
    {m n k : Machine} {cs ds : List Callback} {x : α} {o : Except (Fault ε) β}
    (hr : Follows Along Calm r m cs (.ok x) n)
    (hf : Follows Along Calm (fun notify => f notify x) n ds o k) :
    Follows Along Calm (fun notify => r notify >>= f notify) m (cs ++ ds) o k := by
  refine ⟨happend hr.along hf.along, hr.plays.bind hf.plays, ?_⟩
  rw [List.map_append, List.mem_append, not_or]
  exact ⟨hr.goesOn, hf.goesOn⟩

/-- A fault ends the script. -/
theorem Follows.bind_error {r : (Event → Run ε σ Unit) → Run ε σ α}
    {f : (Event → Run ε σ Unit) → α → Run ε σ β} {m n : Machine} {cs : List Callback}
    {e : Fault ε} (hr : Follows Along Calm r m cs (.error e) n) :
    Follows Along Calm (fun notify => r notify >>= f notify) m cs (.error e) n :=
  ⟨hr.along, hr.plays.bind_error, hr.goesOn⟩

theorem Scripted.bind (happend : ∀ {m n k cs ds}, Along m cs n → Along n ds k →
    Along m (cs ++ ds) k)
    {r : (Event → Run ε σ Unit) → Run ε σ α} {f : (Event → Run ε σ Unit) → α → Run ε σ β}
    {m : Machine} (hr : Scripted Along Calm r m)
    (hf : ∀ x n, Scripted Along Calm (fun notify => f notify x) n) :
    Scripted Along Calm (fun notify => r notify >>= f notify) m := by
  obtain ⟨cs, o, n, hr⟩ := hr
  cases o with
  | error e => exact ⟨cs, .error e, n, hr.bind_error⟩
  | ok x =>
      obtain ⟨ds, o, k, hf⟩ := hf x n
      exact ⟨cs ++ ds, o, k, hr.bind happend hf⟩

/-- Only what a run does from its machine on matters. -/
theorem Scripted.congr {r r' : (Event → Run ε σ Unit) → Run ε σ α} {m : Machine}
    (h : ∀ notify t, r notify (m, t) = r' notify (m, t)) (hr : Scripted Along Calm r' m) :
    Scripted Along Calm r m := by
  obtain ⟨cs, o, n, hr⟩ := hr
  exact ⟨cs, o, n, hr.along, hr.plays.congr h, hr.goesOn⟩

/-- A run without callbacks has the empty script. -/
theorem Scripted.silent {r : (Event → Run ε σ Unit) → Run ε σ α} {m n : Machine}
    (o : Except (Fault ε) α) (hw : Along m [] n)
    (h : ∀ notify t, r notify (m, t) = ended o n t) : Scripted Along Calm r m :=
  ⟨[], o, n, hw, .of_eq h, nofun⟩

/-! ### Requests -/

variable (Calm) in
/-- A change that is news makes one callback, just after it. -/
theorem follows_assign {c : Change} {m : Machine} (hc : m.state.holds c = false) :
    Follows (ε := ε) Machine.Script Calm (fun notify => Run.assign notify c) m
      [(.changed c, m.change c)] (.ok ()) (m.change c) where
  along := .tell (.refl m) hc (.done (.refl _))
  plays := .callback fun notify t => by
    rw [Run.assign, if_neg (by rw [hc]; exact Bool.false_ne_true)]
  goesOn := by simp

theorem scripted_assign (c : Change) (m : Machine) :
    Scripted (ε := ε) Machine.Script Calm (fun notify => Run.assign notify c) m := by
  cases hc : m.state.holds c with
  | false => exact ⟨_, _, _, follows_assign Calm hc⟩
  | true =>
      refine .silent (.ok ()) (.done (.refl m)) fun notify t => ?_
      rw [Run.assign, if_pos hc]
      rfl

theorem scripted_state (m : Machine) :
    Scripted (ε := ε) Machine.Script Calm (fun _ => Run.state) m :=
  .silent (.ok m.state) (.done (.refl m)) fun _ _ => rfl

theorem scripted_machine (m : Machine) :
    Scripted (ε := ε) Machine.Script Calm (fun _ => Run.machine) m :=
  .silent (.ok m) (.done (.refl m)) fun _ _ => rfl

theorem scripted_readMemory (a : Word) (m : Machine) :
    Scripted (ε := ε) Machine.Script Calm (fun _ => readMemory a) m := by
  cases h : m.memory.get? a.toNat with
  | none =>
      refine .silent (.error (.outsideMemory a .read)) (.done (.refl m)) fun _ t => ?_
      simp only [readMemory, h]
      rfl
  | some b =>
      have hw : m.Works (m.record .read a.toNat b.toNat) :=
        ⟨rfl, _, by simp [Machine.record], Memory.traces_read h⟩
      refine .silent (.ok b) (.done hw) fun _ t => ?_
      simp only [readMemory, h]
      rfl

theorem scripted_writeMemory (a : Word) (v : Byte) (m : Machine) :
    Scripted (ε := ε) Machine.Script Calm (fun _ => writeMemory a v) m := by
  by_cases h : a.toNat < m.memory.size
  · have hw : m.Works
        ({ m with memory := m.memory.put a.toNat v }.record .write a.toNat v.toNat) :=
      ⟨rfl, _, by simp [Machine.record], Memory.traces_write _ _ _⟩
    refine .silent (.ok ()) (.done hw) fun _ t => ?_
    simp only [writeMemory, if_pos h]
    rfl
  · refine .silent (.error (.outsideMemory a .write)) (.done (.refl m)) fun _ t => ?_
    simp only [writeMemory, if_neg h]
    rfl

theorem scripted_readPort (port : Byte) (m : Machine) :
    Scripted (ε := ε) Machine.Script Calm (fun _ => readPort port) m := by
  have hw : m.Works (m.record .portIn port.toNat 0) :=
    ⟨rfl, [⟨.portIn, port.toNat, 0⟩], by simp [Machine.record], Memory.traces_port _ nofun nofun⟩
  exact .silent (.ok 0) (.done hw) fun _ _ => rfl

theorem scripted_writePort (port v : Byte) (m : Machine) :
    Scripted (ε := ε) Machine.Script Calm (fun _ => writePort port v) m := by
  have hw : m.Works (m.record .portOut port.toNat v.toNat) :=
    ⟨rfl, [⟨.portOut, port.toNat, v.toNat⟩], by simp [Machine.record],
      Memory.traces_port _ nofun nofun⟩
  exact .silent (.ok ()) (.done hw) fun _ _ => rfl

/-- Every request but a halt has a script without a halt. -/
theorem scripted_request {r : Micro.Request} (hr : r ≠ .halted) (m : Machine) :
    Scripted (ε := ε) Machine.Script Calm (fun notify => r.run notify) m := by
  cases r with
  | state => exact scripted_state m
  | assign c => exact scripted_assign c m
  | read a => exact scripted_readMemory a m
  | write a v => exact scripted_writeMemory a v m
  | input port => exact scripted_readPort port m
  | output port v => exact scripted_writePort port v m
  | halted => exact absurd rfl hr

/-- Every microprogram without a halt has a script without one. -/
theorem scripted_micro {p : Micro α} (hp : p.NeverHalts) (m : Machine) :
    Scripted (ε := ε) Machine.Script Calm (fun notify => p.run notify) m := by
  induction p generalizing m with
  | done x => exact .silent (.ok x) (.done (.refl m)) fun _ _ => rfl
  | ask r next ih =>
      exact (scripted_request hp.1 m).bind Machine.Script.append fun x n => ih x (hp.2 x) n

end Run

end Lab8085
