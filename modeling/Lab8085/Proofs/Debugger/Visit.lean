/-
  Lab8085.Proofs.Debugger.Visit

  The visits of a run of the debugger, and what may end it there.

  A run visits the states between steps, one after the other.  Seven endings may hold at a
  visit (`Visit.Holds`), six with a reason to stop and one with a fault; `Ending.rank` is the
  order in which a run asks for them.  The visits are defined by repeated steps alone.  Under
  watchers that do nothing but perhaps ask for a stop (`OnlyStops`) a step of the debugger is
  a step of the machine without watchers, which is noted, and the visits keep the breakpoints
  and the count of steps.
-/
import Lab8085.Debugger
import Lab8085.Proofs.Machine.Mirror
import Mathlib.Order.WellFounded

namespace Lab8085

/-! ## Breakpoints -/

namespace Breakpoint

/-- What a step brings about for a breakpoint that does not wait for the program counter: an access
    of its kind at its address; a register with its value, where a name that is none has null for a
    value; or a register with another value than before. -/
inductive Occurs (b : Breakpoint) (before after : State) (accesses : List Access) : Prop where
  | access {k : AccessKind} {x : Access} (hkind : b.kind.access? = some k) (hx : x ∈ accesses)
      (hk : x.kind = k) (haddress : (b.address == .int x.address) = true)
  | value {r : String} (hkind : b.kind = .registerValue) (hr : b.register = .text r) (hne : r ≠ "")
      (hvalue : (b.value == valueOf after (Text.upperName r)) = true)
  | change {r : String} {n : Nat} (hkind : b.kind = .registerChange) (hr : b.register = .text r)
      (hne : r ≠ "") (hafter : after.named? (Text.upperName r) = some n)
      (hbefore : before.named? (Text.upperName r) ≠ some n)

/-- The breakpoint is enabled, and a step brings about what it waits for. -/
def Met (b : Breakpoint) (before after : State) (accesses : List Access) : Prop :=
  b.enabled.truth = true ∧ b.Occurs before after accesses

/-- The breakpoint is enabled and waits for this address of the program counter. -/
def WaitsAt (b : Breakpoint) (pc : Word) : Prop :=
  b.enabled.truth = true ∧ b.kind = .pcMatch ∧ (b.value == .int pc.toNat) = true

theorem hitAt_iff (b : Breakpoint) (pc : Word) : b.hitAt pc = true ↔ b.WaitsAt pc := by
  rw [hitAt, WaitsAt, Bool.and_eq_true, Bool.and_eq_true, beq_iff_eq, and_assoc]

theorem hitBy_iff (b : Breakpoint) (before after : State) (accesses : List Access) :
    b.hitBy before after accesses = true ↔ b.Met before after accesses := by
  rw [hitBy, Met, Bool.and_eq_true]
  refine and_congr_right fun _ => ?_
  cases hkind : b.kind.access? with
  | some k =>
      simp only [List.any_eq_true, Bool.and_eq_true, beq_iff_eq]
      constructor
      · rintro ⟨x, hx, hk, haddress⟩
        exact .access hkind hx hk haddress
      · intro h
        cases h with
        | @access k' x hkind' hx hk haddress =>
            obtain rfl : k' = k := Option.some_inj.1 (hkind'.symm.trans hkind)
            exact ⟨x, hx, hk, haddress⟩
        | value hvalue => simp [hvalue, BreakpointKind.access?] at hkind
        | change hchange => simp [hchange, BreakpointKind.access?] at hkind
  | none =>
      dsimp only
      constructor
      · intro h
        split at h
        · exact absurd h Bool.false_ne_true
        · next r hne hr =>
            split at h
            · next hvalue => exact .value hvalue hr hne h
            · next hchange =>
                rw [Bool.and_eq_true, Option.isSome_iff_exists, bne_iff_ne] at h
                obtain ⟨⟨n, hn⟩, hdiff⟩ := h
                rw [hn] at hdiff
                exact .change hchange hr hne hn hdiff
            · exact absurd h Bool.false_ne_true
        · exact absurd h Bool.false_ne_true
      · intro h
        cases h with
        | access hkind' => simp [hkind'] at hkind
        | value hvalue hr hne h =>
            simp only [hr, hvalue]
            exact h
        | change hchange hr hne hafter hbefore =>
            simp only [hr, hchange, hafter]
            simpa using hbefore

/-- The first of some breakpoints that has no name for a register or that a step meets. -/
theorem find?_cases (bs : List Breakpoint) (before after : State) (accesses : List Access) :
    ((bs.find? fun b => b.nameless || b.hitBy before after accesses) = none ∧
      ∀ b ∈ bs, ¬b.Met before after accesses) ∨
    ∃ as b cs, bs = as ++ b :: cs ∧
      (bs.find? fun b => b.nameless || b.hitBy before after accesses) = some b ∧
      (∀ a ∈ as, ¬a.Met before after accesses) ∧
      (b.nameless = true ∨ b.Met before after accesses) := by
  have hor (b : Breakpoint) : (b.nameless || b.hitBy before after accesses) = true ↔
      b.nameless = true ∨ b.Met before after accesses := by
    rw [Bool.or_eq_true, hitBy_iff]
  cases hfind : bs.find? fun b => b.nameless || b.hitBy before after accesses with
  | none =>
      refine .inl ⟨rfl, fun b hb hmet => ?_⟩
      exact List.find?_eq_none.1 hfind b hb ((hor b).2 (.inr hmet))
  | some b =>
      obtain ⟨hb, as, cs, hbs, has⟩ := List.find?_eq_some_iff_append.1 hfind
      refine .inr ⟨as, b, cs, hbs, rfl, fun a ha hmet => ?_, (hor b).1 hb⟩
      have hnot := has a ha
      rw [(hor a).2 (.inr hmet)] at hnot
      exact absurd hnot (by decide)

end Breakpoint

namespace Debugger

variable {ε σ : Type}

/-! ## Endings -/

/-- What may end a run at a visit: the latest step executed a halt; a breakpoint asks for a register
    by what is no name; the latest step met a breakpoint; a watcher asked for it; the memory ends
    here; a breakpoint waits at this address; the steps are used up. -/
inductive Ending where
  | halt | misnamed | condition | request | endOfMemory | address | limit
  deriving DecidableEq, Repr

namespace Ending

/-- The place of an ending in the order in which a run asks for them. -/
def rank : Ending → Nat
  | .halt => 0
  | .misnamed => 1
  | .condition => 2
  | .request => 3
  | .endOfMemory => 4
  | .address => 5
  | .limit => 6

/-- The reason that a run returns, or the fault with which it ends. -/
def outcome : Ending → Except (Fault ε) StopReason
  | .halt => .ok .halted
  | .misnamed => .error .noName
  | .condition | .address => .ok .breakpoint
  | .request => .ok .stopped
  | .endOfMemory => .ok .endOfMemory
  | .limit => .ok .maxSteps

/-- The debugger that a run leaves: it no longer runs, unless it ends with a fault. -/
def leaves : Ending → Debugger → Debugger
  | .misnamed, d => d
  | _, d => d.stop

end Ending

/-! ## Visits -/

/-- The machine and the watchers between two steps; `latest` is the step that led here, with the
    machine before it. -/
structure Visit (σ : Type) where
  machine : Machine
  watchers : σ
  latest : Option (Machine × Snapshot)

/-- The visits of a run from a machine and watchers on: its start, and then one step after the
    other, until one fails. -/
def visit? (slot : Slot σ) (notify : Event → Run ε σ Unit) (p : Machine × σ) :
    Nat → Option (Visit σ)
  | 0 => some ⟨p.1, slot.modify (fun d => { d with running := true }) p.2, none⟩
  | k + 1 => (visit? slot notify p k).bind fun v =>
    match step slot notify (v.machine, v.watchers) with
    | .ok s (m, t) => some ⟨m, t, some (v.machine, s)⟩
    | .error _ _ => none

namespace Visit

/-- What a visit says of the step that led to it. -/
def Latest (v : Visit σ) (P : Machine → Snapshot → Prop) : Prop :=
  ∃ m s, v.latest = some (m, s) ∧ P m s

/-- An ending holds at the visit after `k` steps. -/
def Holds (slot : Slot σ) (bs : List Breakpoint) (maxSteps : Option Int) (k : Nat) (v : Visit σ) :
    Ending → Prop
  | .halt => v.Latest fun m _ => m.AtHalt
  | .misnamed => v.Latest fun m s => ∃ as b cs, bs = as ++ b :: cs ∧ b.nameless = true ∧
      ∀ a ∈ as, ¬a.Met m.state v.machine.state s.accesses
  | .condition => v.Latest fun m s => ∃ b ∈ bs, b.Met m.state v.machine.state s.accesses
  | .request => (slot.get v.watchers).running = false
  | .endOfMemory => v.machine.size ≤ v.machine.state.pc.toNat
  | .address => 0 < k ∧ ∃ b ∈ bs, b.WaitsAt v.machine.state.pc
  | .limit => ∃ n, maxSteps = some n ∧ n ≤ k

/-- An ending is the first that holds. -/
structure First (slot : Slot σ) (bs : List Breakpoint) (maxSteps : Option Int) (k : Nat)
    (v : Visit σ) (e : Ending) : Prop where
  holds : v.Holds slot bs maxSteps k e
  before : ∀ f, f.rank < e.rank → ¬v.Holds slot bs maxSteps k f

/-- No ending holds. -/
def Idle (slot : Slot σ) (bs : List Breakpoint) (maxSteps : Option Int) (k : Nat)
    (v : Visit σ) : Prop :=
  ∀ e, ¬v.Holds slot bs maxSteps k e

theorem exists_first {slot : Slot σ} {bs : List Breakpoint} {maxSteps : Option Int} {k : Nat}
    {v : Visit σ} (h : ¬v.Idle slot bs maxSteps k) : ∃ e, v.First slot bs maxSteps k e := by
  obtain ⟨e, he, hleast⟩ := (measure Ending.rank).wf.has_min
    {e | v.Holds slot bs maxSteps k e} (not_forall_not.1 h)
  exact ⟨e, he, fun f hf hholds => hleast f hholds hf⟩

end Visit

/-- No ending holds at a visit before the one after `k` steps. -/
def Unended (slot : Slot σ) (notify : Event → Run ε σ Unit) (maxSteps : Option Int)
    (p : Machine × σ) (k : Nat) : Prop :=
  ∀ j < k, ∀ v, visit? slot notify p j = some v → v.Idle slot (slot.get p.2).breakpoints maxSteps j

/-! ## Watchers that only ask to stop -/

/-- Watchers that do nothing but perhaps ask the debugger in their slot to stop. It is enough that
    they do so as long as they are `Calm`, and that they and changes of the slot keep them calm. -/
structure OnlyStops (slot : Slot σ) (notify : Event → Run ε σ Unit) (Calm : σ → Prop) : Prop where
  told : ∀ e m t, Calm t → ∃ u, Calm u ∧ notify e (m, t) = .ok () (m, u) ∧
    (slot.get u = slot.get t ∨ slot.get u = (slot.get t).stop)
  get_modify : ∀ f t, Calm t → slot.get (slot.modify f t) = f (slot.get t)
  calm_modify : ∀ f t, Calm t → Calm (slot.modify f t)

variable {slot : Slot σ} {notify : Event → Run ε σ Unit} {Calm : σ → Prop}

theorem OnlyStops.observing (h : OnlyStops slot notify Calm) : Run.Observing notify Calm := by
  intro e m t ht
  obtain ⟨u, hu, he, -⟩ := h.told e m t ht
  exact .inl ⟨u, hu, he⟩

theorem stop_stop (d : Debugger) : d.stop.stop = d.stop := rfl

/-- A script is played to its end, where the debugger is as it was or has been asked to stop. -/
theorem OnlyStops.play (h : OnlyStops slot notify Calm) {α : Type}
    (stop : σ → EStateM.Result (Fault ε) (Machine × σ) α) (cs : List Callback) {t : σ}
    (ht : Calm t) : ∃ u, Calm u ∧ Run.play notify stop cs t = stop u ∧
      (slot.get u = slot.get t ∨ slot.get u = (slot.get t).stop) := by
  induction cs generalizing t with
  | nil => exact ⟨t, ht, rfl, .inl rfl⟩
  | cons c cs ih =>
      obtain ⟨u, hu, he, hget⟩ := h.told c.1 c.2 t ht
      obtain ⟨w, hw, hplay, hget'⟩ := ih hu
      refine ⟨w, hw, ?_, ?_⟩
      · simp only [Run.play, he]
        exact hplay
      · rcases hget with hget | hget
        · rwa [hget] at hget'
        · rw [hget, stop_stop, or_self] at hget'
          exact .inr hget'

theorem play_unwatched {α : Type} (stop : σ → EStateM.Result (Fault ε) (Machine × σ) α)
    (cs : List Callback) (t : σ) : Run.play Machine.unwatched stop cs t = stop t := by
  induction cs with
  | nil => rfl
  | cons c cs ih => exact ih

theorem ended_inj {α : Type} {o o' : Except (Fault ε) α} {m m' : Machine} {t : σ}
    (h : Run.ended o m t = Run.ended o' m' t) : o = o' ∧ m = m' := by
  cases o <;> cases o' <;> cases h <;> exact ⟨rfl, rfl⟩

/-- A step without watchers has an outcome that does not depend on their state, and a step that
    only asks to stop has the same. -/
theorem OnlyStops.plain (h : OnlyStops slot notify Calm) (m : Machine) {t : σ} (ht : Calm t) :
    ∃ o n, (∀ u : σ, Run.step Machine.unwatched (m, u) = Run.ended (ε := ε) o n u) ∧
      ∀ u, Calm u → ∃ w, Calm w ∧ Run.step notify (m, u) = Run.ended o n w ∧
        (slot.get w = slot.get u ∨ slot.get w = (slot.get u).stop) := by
  obtain ⟨fs, ds, o, n, -, hscript⟩ := Run.step_script (ε := ε) (fun _ : σ => True) m
  obtain ⟨fs', ds', o', n', -, hscript'⟩ := Run.step_script (ε := ε) Calm m
  have hquiet (C : σ → Prop) : Run.Observing (ε := ε) Machine.unwatched C :=
    fun _ _ u hu => .inl ⟨u, hu, rfl⟩
  have hplain (u : σ) : Run.step Machine.unwatched (m, u) = Run.ended (ε := ε) o n u :=
    (hscript.plays _ (hquiet _) u trivial).trans (play_unwatched _ _ u)
  -- the two scripts end alike, as a calm step without watchers shows
  have hend : Run.ended o n t = Run.ended o' n' t := by
    rw [← hplain t, ← play_unwatched (Run.ended o' n') (fs' ++ ds') t]
    exact hscript'.plays _ (hquiet _) t ht
  obtain ⟨rfl, rfl⟩ := ended_inj hend
  refine ⟨o, n, hplain, fun u hu => ?_⟩
  obtain ⟨w, hw, hplay, hget⟩ := h.play (Run.ended o n) (fs' ++ ds') hu
  exact ⟨w, hw, (hscript'.plays _ h.observing u hu).trans hplay, hget⟩

/-- A step of the debugger under such watchers is a step of the machine, which is noted. -/
theorem OnlyStops.step (h : OnlyStops slot notify Calm) (m : Machine) {t : σ} (ht : Calm t) :
    ∃ o n u, (∀ w : σ, Run.step Machine.unwatched (m, w) = Run.ended (ε := ε) o n w) ∧ Calm u ∧
      Debugger.step slot notify (m, t) = Run.ended o n u ∧
      ∀ s, o = .ok s → ∃ d, (d = slot.get t ∨ d = (slot.get t).stop) ∧
        slot.get u = Debugger.note { d with before := m.state } s := by
  obtain ⟨o, n, hplain, hstep⟩ := h.plain m ht
  have ht' := h.calm_modify (fun d => { d with before := m.state }) t ht
  obtain ⟨w, hw, hrun, hget⟩ := hstep _ ht'
  rw [h.get_modify _ t ht] at hget
  have hsteps : Debugger.step slot notify (m, t) =
      (Run.step notify >>= fun s => update slot (fun d => d.note s) >>= fun _ => pure s)
        (m, slot.modify (fun d => { d with before := m.state }) t) := rfl
  simp only [hsteps, Bind.bind, EStateM.bind, hrun]
  cases o with
  | error f => exact ⟨.error f, n, w, hplain, hw, rfl, nofun⟩
  | ok s =>
      refine ⟨.ok s, n, slot.modify (fun d => d.note s) w, hplain, h.calm_modify _ w hw, rfl, ?_⟩
      intro s' hs
      cases hs
      rw [h.get_modify _ w hw]
      rcases hget with hget | hget
      · exact ⟨slot.get t, .inl rfl, congrArg (note · s) hget⟩
      · exact ⟨(slot.get t).stop, .inr rfl, congrArg (note · s) hget⟩

/-! ## What the visits keep -/

/-- What a run keeps of the debugger `d` of its start up to the visit after `k` steps. -/
structure Visit.Sound (slot : Slot σ) (Calm : σ → Prop) (d : Debugger) (k : Nat)
    (v : Visit σ) : Prop where
  calm : Calm v.watchers
  breakpoints : (slot.get v.watchers).breakpoints = d.breakpoints
  before : ∀ m s, v.latest = some (m, s) → (slot.get v.watchers).before = m.state
  history : (slot.get v.watchers).history.size = d.history.size + k

theorem visit?_succ {p : Machine × σ} {k : Nat} {w : Visit σ}
    (h : visit? slot notify p (k + 1) = some w) :
    ∃ v s, visit? slot notify p k = some v ∧ w.latest = some (v.machine, s) ∧
      Debugger.step slot notify (v.machine, v.watchers) = .ok s (w.machine, w.watchers) := by
  obtain ⟨v, hv, h⟩ := Option.bind_eq_some_iff.1 h
  cases hs : Debugger.step slot notify (v.machine, v.watchers) with
  | ok s p =>
      rw [hs] at h
      obtain ⟨n, u⟩ := p
      cases h
      exact ⟨v, s, hv, rfl, hs⟩
  | error f p =>
      rw [hs] at h
      exact absurd h nofun

theorem OnlyStops.sound (h : OnlyStops slot notify Calm) (m : Machine) {t : σ} (ht : Calm t)
    {k : Nat} {v : Visit σ} (hv : visit? slot notify (m, t) k = some v) :
    v.Sound slot Calm (slot.get t) k := by
  induction k generalizing v with
  | zero =>
      obtain rfl := Option.some_inj.1 hv
      have hget := h.get_modify (fun d => { d with running := true }) t ht
      refine ⟨h.calm_modify _ t ht, ?_, ?_, ?_⟩
      · rw [hget]
      · intro m' s hlatest
        exact absurd hlatest (Option.some_ne_none _).symm
      · rw [hget]
        rfl
  | succ k ih =>
      obtain ⟨u, s, hu, hlatest, hstep⟩ := visit?_succ hv
      obtain ⟨hcalm, hbreakpoints, -, hhistory⟩ := ih hu
      obtain ⟨o, n, w, -, hw, hrun, hnote⟩ := h.step u.machine hcalm
      obtain ⟨rfl, rfl⟩ : o = .ok s ∧ v.watchers = w := by
        rw [hrun] at hstep
        cases o <;> cases hstep
        exact ⟨rfl, rfl⟩
      obtain ⟨d, hd, hget⟩ := hnote s rfl
      have hkeeps : d.breakpoints = (slot.get u.watchers).breakpoints ∧
          d.history = (slot.get u.watchers).history := by
        rcases hd with rfl | rfl <;> exact ⟨rfl, rfl⟩
      refine ⟨hw, ?_, ?_, ?_⟩
      · rw [hget, ← hbreakpoints, ← hkeeps.1]
        rfl
      · intro m' s' hlatest'
        rw [hlatest] at hlatest'
        cases hlatest'
        rw [hget]
        rfl
      · rw [hget, ← Nat.add_assoc, ← hhistory, ← hkeeps.2]
        exact Array.size_push _

end Debugger

end Lab8085
