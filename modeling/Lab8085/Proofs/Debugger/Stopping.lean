/-
  Lab8085.Proofs.Debugger.Stopping

  Where a run of the debugger ends.

  A run ends at the first visit at which an ending holds, with the first one that does, or
  with the fault of a step (`run_ends`).  The run from a visit on (`resume`) ends there if an
  ending holds and goes on to the next visit if none does; so the place where a run ends
  follows by induction on the number of visits.
-/
import Lab8085.Proofs.Debugger.Visit

namespace Lab8085

namespace Debugger

variable {ε σ : Type} {slot : Slot σ} {notify : Event → Run ε σ Unit} {Calm : σ → Prop}

/-! ## The run from a visit on -/

/-- The run from the visit after `k` steps on: what the latest step did is looked at first. -/
def resume (slot : Slot σ) (notify : Event → Run ε σ Unit) (maxSteps : Option Int) (fuel k : Nat)
    (v : Visit σ) : EStateM.Result (Fault ε) (Machine × σ) (Option StopReason) :=
  match v.latest with
  | none => continueRun slot notify maxSteps fuel k (v.machine, v.watchers)
  | some (m, s) =>
    let d := slot.get v.watchers
    if m.memory.get? m.state.pc.toNat == some haltOpcode then
      finish slot .halted (v.machine, v.watchers)
    else
      match d.breakpoints.find? fun b =>
        b.nameless || b.hitBy d.before v.machine.state s.accesses with
      | some b =>
        if b.nameless then .error .noName (v.machine, v.watchers)
        else finish slot .breakpoint (v.machine, v.watchers)
      | none => continueRun slot notify maxSteps fuel k (v.machine, v.watchers)

variable {maxSteps : Option Int} {d : Debugger} {k : Nat} {v : Visit σ}

/-! ### What the latest step did -/

theorem resume_halt (hfirst : v.First slot d.breakpoints maxSteps k .halt) (fuel : Nat) :
    resume slot notify maxSteps fuel k v = finish slot .halted (v.machine, v.watchers) := by
  obtain ⟨m, s, hlatest, hhalt⟩ := hfirst.holds
  rw [Machine.AtHalt] at hhalt
  simp only [resume, hlatest, hhalt, beq_self_eq_true, if_true]

/-- A run that did not come from a halt looks for the first breakpoint that matters. -/
theorem resume_find (hv : v.Sound slot Calm d k) {m : Machine} {s : Snapshot}
    (hlatest : v.latest = some (m, s)) (hhalt : ¬m.AtHalt) (fuel : Nat) :
    resume slot notify maxSteps fuel k v =
      match d.breakpoints.find? fun b =>
        b.nameless || b.hitBy m.state v.machine.state s.accesses with
      | some b =>
        if b.nameless then .error .noName (v.machine, v.watchers)
        else finish slot .breakpoint (v.machine, v.watchers)
      | none => continueRun slot notify maxSteps fuel k (v.machine, v.watchers) := by
  have hne : (m.memory.get? m.state.pc.toNat == some haltOpcode) = false :=
    beq_eq_false_iff_ne.2 hhalt
  simp only [resume, hlatest, hne, hv.breakpoints, hv.before m s hlatest, Bool.false_eq_true,
    if_false]

theorem resume_misnamed (hv : v.Sound slot Calm d k)
    (hfirst : v.First slot d.breakpoints maxSteps k .misnamed) (fuel : Nat) :
    resume slot notify maxSteps fuel k v = .error .noName (v.machine, v.watchers) := by
  obtain ⟨m, s, hlatest, as, b, cs, hbs, hb, has⟩ := hfirst.holds
  have hhalt : ¬m.AtHalt := fun hhalt => hfirst.before .halt (by decide) ⟨m, s, hlatest, hhalt⟩
  rw [resume_find hv hlatest hhalt, hbs, List.find?_append]
  -- whichever comes first, one before `b` or `b` itself, is one without a name
  cases hfind : as.find? fun a => a.nameless || a.hitBy m.state v.machine.state s.accesses with
  | none => simp [hb]
  | some a =>
      have ha := List.find?_some hfind
      have hmet : a.hitBy m.state v.machine.state s.accesses = false := by
        rw [← Bool.not_eq_true, Breakpoint.hitBy_iff]
        exact has a (List.mem_of_find?_eq_some hfind)
      rw [hmet, Bool.or_false] at ha
      simp [ha]

theorem resume_condition (hv : v.Sound slot Calm d k)
    (hfirst : v.First slot d.breakpoints maxSteps k .condition) (fuel : Nat) :
    resume slot notify maxSteps fuel k v = finish slot .breakpoint (v.machine, v.watchers) := by
  obtain ⟨m, s, hlatest, b, hb, hmet⟩ := hfirst.holds
  have hhalt : ¬m.AtHalt := fun hhalt => hfirst.before .halt (by decide) ⟨m, s, hlatest, hhalt⟩
  rw [resume_find hv hlatest hhalt]
  rcases Breakpoint.find?_cases d.breakpoints m.state v.machine.state s.accesses with
    ⟨-, hnone⟩ | ⟨as, a, cs, hbs, hfind, has, -⟩
  · exact absurd hmet (hnone b hb)
  · have ha : a.nameless = false := by
      rw [← Bool.not_eq_true]
      intro ha
      exact hfirst.before .misnamed (by decide) ⟨m, s, hlatest, as, a, cs, hbs, ha, has⟩
    simp only [hfind, ha, Bool.false_eq_true, if_false]

/-- A run goes on if its latest step does not end it. -/
theorem resume_goesOn (hv : v.Sound slot Calm d k)
    (hhalt : ¬v.Holds slot d.breakpoints maxSteps k .halt)
    (hmisnamed : ¬v.Holds slot d.breakpoints maxSteps k .misnamed)
    (hcondition : ¬v.Holds slot d.breakpoints maxSteps k .condition) (fuel : Nat) :
    resume slot notify maxSteps fuel k v =
      continueRun slot notify maxSteps fuel k (v.machine, v.watchers) := by
  cases hlatest : v.latest with
  | none => simp only [resume, hlatest]
  | some p =>
      obtain ⟨m, s⟩ := p
      rw [resume_find hv hlatest fun h => hhalt ⟨m, s, hlatest, h⟩]
      rcases Breakpoint.find?_cases d.breakpoints m.state v.machine.state s.accesses with
        ⟨hfind, -⟩ | ⟨as, a, cs, hbs, -, has, ha | ha⟩
      · rw [hfind]
      · exact absurd ⟨m, s, hlatest, as, a, cs, hbs, ha, has⟩ hmisnamed
      · refine absurd ⟨m, s, hlatest, a, ?_, ha⟩ hcondition
        rw [hbs]
        exact List.mem_append_right as List.mem_cons_self

/-! ### Before the next step -/

theorem ite_run {α : Type} (c : Prop) [Decidable c] (r r' : Run ε σ α) (s : Machine × σ) :
    (if c then r else r') s = if c then r s else r' s := by
  split <;> rfl

/-- What a run does at a visit after its latest step has been looked at. -/
theorem continueRun_succ (fuel k : Nat) (m : Machine) (t : σ) :
    continueRun slot notify maxSteps (fuel + 1) k (m, t) =
      if (slot.get t).running = false then .ok (some .stopped) (m, t)
      else if m.memory.get? m.state.pc.toNat = none then finish slot .endOfMemory (m, t)
      else if (k != 0 && (slot.get t).breakpoints.any fun b => b.hitAt m.state.pc) = true then
        finish slot .breakpoint (m, t)
      else if (maxSteps.any fun n : Int => decide (n ≤ k)) = true then finish slot .maxSteps (m, t)
      else
        match Debugger.step slot notify (m, t) with
        | .ok s (n, u) => resume slot notify maxSteps fuel (k + 1) ⟨n, u, some (m, s)⟩
        | .error f p => .error f p := by
  simp only [continueRun, now, Bind.bind, EStateM.bind, Run.watchers, Run.state, Run.machine, pure,
    EStateM.pure, ite_run, Option.isNone_iff_eq_none, Bool.not_eq_true']
  cases hstep : Debugger.step slot notify (m, t) with
  | error f p => rfl
  | ok s p =>
      obtain ⟨n, u⟩ := p
      simp only [resume]
      cases (slot.get u).breakpoints.find? fun b =>
          b.nameless || b.hitBy (slot.get u).before n.state s.accesses with
      | none => rfl
      | some b =>
          simp only [ite_run]
          rfl

open Classical in
/-- A run whose latest step did not end it asks for the other endings, and then makes a step. -/
theorem resume_succ (hv : v.Sound slot Calm d k)
    (hhalt : ¬v.Holds slot d.breakpoints maxSteps k .halt)
    (hmisnamed : ¬v.Holds slot d.breakpoints maxSteps k .misnamed)
    (hcondition : ¬v.Holds slot d.breakpoints maxSteps k .condition) (fuel : Nat) :
    resume slot notify maxSteps (fuel + 1) k v =
      if v.Holds slot d.breakpoints maxSteps k .request then
        .ok (some .stopped) (v.machine, v.watchers)
      else if v.Holds slot d.breakpoints maxSteps k .endOfMemory then
        finish slot .endOfMemory (v.machine, v.watchers)
      else if v.Holds slot d.breakpoints maxSteps k .address then
        finish slot .breakpoint (v.machine, v.watchers)
      else if v.Holds slot d.breakpoints maxSteps k .limit then
        finish slot .maxSteps (v.machine, v.watchers)
      else
        match Debugger.step slot notify (v.machine, v.watchers) with
        | .ok s (n, u) => resume slot notify maxSteps fuel (k + 1) ⟨n, u, some (v.machine, s)⟩
        | .error f p => .error f p := by
  have hend : v.machine.memory.get? v.machine.state.pc.toNat = none ↔
      v.Holds slot d.breakpoints maxSteps k .endOfMemory := by
    rw [← Option.not_isSome_iff_eq_none, Memory.get?_isSome, Nat.not_lt]
    exact Iff.rfl
  have haddress : (k != 0 && d.breakpoints.any fun b => b.hitAt v.machine.state.pc) = true ↔
      v.Holds slot d.breakpoints maxSteps k .address := by
    simp only [Bool.and_eq_true, bne_iff_ne, List.any_eq_true, Breakpoint.hitAt_iff,
      ← Nat.pos_iff_ne_zero]
    exact Iff.rfl
  have hlimit : (maxSteps.any fun n : Int => decide (n ≤ k)) = true ↔
      v.Holds slot d.breakpoints maxSteps k .limit := by
    simp only [Option.any_eq_true, decide_eq_true_eq]
    exact Iff.rfl
  rw [resume_goesOn hv hhalt hmisnamed hcondition, continueRun_succ, hv.breakpoints]
  refine ite_congr rfl (fun _ => rfl) fun _ => ?_
  refine ite_congr (propext hend) (fun _ => rfl) fun _ => ?_
  refine ite_congr (propext haddress) (fun _ => rfl) fun _ => ?_
  exact ite_congr (propext hlimit) (fun _ => rfl) fun _ => rfl

/-! ### Where a run ends -/

/-- A run that has been asked to stop leaves its debugger as it is. -/
theorem stop_of_not_running {d : Debugger} (h : d.running = false) : d.stop = d := by
  obtain ⟨bs, running, before, last, history⟩ := d
  cases h
  rfl

/-- At a visit with an ending a run ends with the first one. -/
theorem OnlyStops.resume_first (h : OnlyStops slot notify Calm) (hv : v.Sound slot Calm d k)
    {e : Ending} (he : v.First slot d.breakpoints maxSteps k e) (fuel : Nat) :
    ∃ u, slot.get u = e.leaves (slot.get v.watchers) ∧
      resume slot notify maxSteps (fuel + 1) k v =
        Run.ended (e.outcome.map some) v.machine u := by
  have hstop (r : StopReason) : ∃ u, slot.get u = (slot.get v.watchers).stop ∧
      finish slot r (v.machine, v.watchers) = Run.ended (ε := ε) (.ok (some r)) v.machine u :=
    ⟨slot.modify stop v.watchers, h.get_modify stop _ hv.calm, rfl⟩
  cases e with
  | halt =>
      rw [resume_halt he]
      exact hstop .halted
  | misnamed =>
      rw [resume_misnamed hv he]
      exact ⟨v.watchers, rfl, rfl⟩
  | condition =>
      rw [resume_condition hv he]
      exact hstop .breakpoint
  | request =>
      rw [resume_succ hv (he.before _ (by decide)) (he.before _ (by decide))
        (he.before _ (by decide)), if_pos he.holds]
      exact ⟨v.watchers, (stop_of_not_running he.holds).symm, rfl⟩
  | endOfMemory =>
      rw [resume_succ hv (he.before _ (by decide)) (he.before _ (by decide))
        (he.before _ (by decide)), if_neg (he.before _ (by decide)), if_pos he.holds]
      exact hstop .endOfMemory
  | address =>
      rw [resume_succ hv (he.before _ (by decide)) (he.before _ (by decide))
        (he.before _ (by decide)), if_neg (he.before _ (by decide)),
        if_neg (he.before _ (by decide)), if_pos he.holds]
      exact hstop .breakpoint
  | limit =>
      rw [resume_succ hv (he.before _ (by decide)) (he.before _ (by decide))
        (he.before _ (by decide)), if_neg (he.before _ (by decide)),
        if_neg (he.before _ (by decide)), if_neg (he.before _ (by decide)), if_pos he.holds]
      exact hstop .maxSteps

/-- At a visit without an ending a run makes a step. -/
theorem resume_idle (hv : v.Sound slot Calm d k) (hidle : v.Idle slot d.breakpoints maxSteps k)
    (fuel : Nat) :
    resume slot notify maxSteps (fuel + 1) k v =
      match Debugger.step slot notify (v.machine, v.watchers) with
      | .ok s (n, u) => resume slot notify maxSteps fuel (k + 1) ⟨n, u, some (v.machine, s)⟩
      | .error f p => .error f p := by
  rw [resume_succ hv (hidle .halt) (hidle .misnamed) (hidle .condition), if_neg (hidle .request),
    if_neg (hidle .endOfMemory), if_neg (hidle .address), if_neg (hidle .limit)]

/-- A run reaches the visits one after the other, as long as no ending holds. -/
theorem OnlyStops.run_eq_resume (h : OnlyStops slot notify Calm) (m : Machine) {t : σ}
    (ht : Calm t) (hv : visit? slot notify (m, t) k = some v)
    (hidle : Unended slot notify maxSteps (m, t) k) (fuel : Nat) :
    run slot notify (fuel + k) maxSteps (m, t) = resume slot notify maxSteps fuel k v := by
  induction k generalizing v fuel with
  | zero =>
      obtain rfl := Option.some_inj.1 hv
      rfl
  | succ k ih =>
      obtain ⟨u, s, hu, hlatest, hstep⟩ := visit?_succ hv
      have hrun := ih hu (fun j hj => hidle j (Nat.lt_succ_of_lt hj)) (fuel + 1)
      rw [resume_idle (h.sound m ht hu) (hidle k (Nat.lt_succ_self k) u hu), hstep] at hrun
      have hfuel : fuel + (k + 1) = fuel + 1 + k := by omega
      rw [hfuel, hrun]
      obtain ⟨n, w, latest⟩ := v
      cases hlatest
      rfl

/-- Some visit is the first at which an ending holds, if there is any. -/
theorem exists_first_visit {p : Machine × σ} (hv : visit? slot notify p k = some v)
    (hends : ¬v.Idle slot (slot.get p.2).breakpoints maxSteps k) :
    ∃ j ≤ k, ∃ w e, visit? slot notify p j = some w ∧ Unended slot notify maxSteps p j ∧
      w.First slot (slot.get p.2).breakpoints maxSteps j e := by
  obtain ⟨j, ⟨w, hw, hw'⟩, hleast⟩ := Nat.lt_wfRel.wf.has_min
    {j | ∃ w, visit? slot notify p j = some w ∧
      ¬w.Idle slot (slot.get p.2).breakpoints maxSteps j} ⟨k, v, hv, hends⟩
  obtain ⟨e, he⟩ := Visit.exists_first hw'
  refine ⟨j, Nat.not_lt.1 (hleast k ⟨v, hv, hends⟩), w, e, hw, fun i hi u hu => ?_, he⟩
  by_contra hu'
  exact hleast i ⟨u, hu, hu'⟩ hi

/-- A run of the debugger ends where it should, under watchers that only ask it to stop. -/
theorem run_ends (h : OnlyStops slot notify Calm) (maxSteps : Option Int) (m : Machine) {t : σ}
    (ht : Calm t) :
    -- if an ending holds at some visit, the run ends at the first such visit, with the first ending
    -- that holds there, and has made as many steps as lead there
    (∀ k v, visit? slot notify (m, t) k = some v →
      ¬v.Idle slot (slot.get t).breakpoints maxSteps k →
      ∃ j ≤ k, ∃ w e, visit? slot notify (m, t) j = some w ∧
        Unended slot notify maxSteps (m, t) j ∧
        w.First slot (slot.get t).breakpoints maxSteps j e ∧
        (slot.get w.watchers).history.size = (slot.get t).history.size + j ∧
        ∀ fuel > j, ∃ u, slot.get u = e.leaves (slot.get w.watchers) ∧
          run slot notify fuel maxSteps (m, t) = Run.ended (e.outcome.map some) w.machine u) ∧
    ∀ k v, visit? slot notify (m, t) k = some v →
      -- up to a visit to which no ending holds the run goes on
      (Unended slot notify maxSteps (m, t) (k + 1) →
        run slot notify k maxSteps (m, t) = .ok none (v.machine, v.watchers)) ∧
      -- the next visit is the machine after a step without watchers; where that fails, so does the
      -- run, unless it has ended
      ∃ o n, (∀ u : σ, Run.step Machine.unwatched (v.machine, u) = Run.ended (ε := ε) o n u) ∧
        match o with
        | .ok s => ∃ u, visit? slot notify (m, t) (k + 1) = some ⟨n, u, some (v.machine, s)⟩
        | .error f => visit? slot notify (m, t) (k + 1) = none ∧
            (Unended slot notify maxSteps (m, t) (k + 1) →
              ∀ fuel > k, ∃ u, run slot notify fuel maxSteps (m, t) = .error f (n, u)) := by
  have hresume {j : Nat} {w : Visit σ} (hw : visit? slot notify (m, t) j = some w)
      (hidle : Unended slot notify maxSteps (m, t) j) {fuel : Nat} (hj : fuel > j) :
      run slot notify fuel maxSteps (m, t) =
        resume slot notify maxSteps (fuel - j - 1 + 1) j w := by
    have hfuel : fuel = fuel - j - 1 + 1 + j := by omega
    rw [← h.run_eq_resume m ht hw hidle, ← hfuel]
  refine ⟨fun k v hv hends => ?_, fun k v hv => ?_⟩
  · obtain ⟨j, hj, w, e, hw, hidle, he⟩ := exists_first_visit hv hends
    have hsound := h.sound m ht hw
    refine ⟨j, hj, w, e, hw, hidle, he, hsound.history, fun fuel hfuel => ?_⟩
    rw [hresume hw hidle hfuel]
    exact h.resume_first hsound he _
  · have hsound := h.sound m ht hv
    refine ⟨fun hidle => ?_, ?_⟩
    · have hv' := hidle k (Nat.lt_succ_self k) v hv
      have hzero := h.run_eq_resume m ht hv (fun j hj => hidle j (Nat.lt_succ_of_lt hj)) 0
      rw [Nat.zero_add] at hzero
      rw [hzero, resume_goesOn hsound (hv' .halt) (hv' .misnamed) (hv' .condition)]
      rfl
    · obtain ⟨o, n, u, hplain, -, hstep, -⟩ := h.step v.machine hsound.calm
      refine ⟨o, n, hplain, ?_⟩
      have hnext : visit? slot notify (m, t) (k + 1) =
          match Debugger.step slot notify (v.machine, v.watchers) with
          | .ok s (m, t) => some ⟨m, t, some (v.machine, s)⟩
          | .error _ _ => none := by
        rw [visit?, hv]
        rfl
      rw [hstep] at hnext
      cases o with
      | ok s => exact ⟨u, hnext⟩
      | error f =>
          refine ⟨hnext, fun hidle fuel hfuel => ⟨u, ?_⟩⟩
          have hv' := hidle k (Nat.lt_succ_self k) v hv
          rw [hresume hv (fun j hj => hidle j (Nat.lt_succ_of_lt hj)) hfuel,
            resume_idle hsound hv', hstep]
          rfl

end Debugger

/-! ## Watchers of a session -/

namespace Monitor

/-- A watcher for a topic that does nothing or asks the debugger in use to stop. -/
def Watcher.Patient (w : Watcher) (t : Topic) : Prop :=
  w.topic = t ∧ (w.reaction = .nothing ∨ w.reaction = .perform .debugStop)

/-- Debugger `k` is the one in use, and no watcher does more than ask it to stop. -/
def Desk.Patient (k : Nat) (d : Desk) : Prop :=
  d.debuggers.size = k + 1 ∧
    ∀ x ∈ d.watches.list, ∃ w, d.watcher? x.watcher = some w ∧ w.Patient x.topic

/-- What a watcher leaves as it is that at most asks the debugger in use to stop. -/
structure Desk.Keeps (k : Nat) (d e : Desk) : Prop where
  watches : e.watches = d.watches
  watchers : e.watchers = d.watchers
  size : e.debuggers.size = d.debuggers.size
  slot : (Desk.slot k).get e = (Desk.slot k).get d ∨
    (Desk.slot k).get e = ((Desk.slot k).get d).stop

theorem Desk.Keeps.trans {k : Nat} {d e f : Desk} (h : d.Keeps k e) (h' : e.Keeps k f) :
    d.Keeps k f := by
  refine ⟨h'.watches.trans h.watches, h'.watchers.trans h.watchers, h'.size.trans h.size, ?_⟩
  have hslot := h'.slot
  rcases h.slot with hget | hget
  · rwa [hget] at hslot
  · rw [hget, Debugger.stop_stop, or_self] at hslot
    exact .inr hslot

theorem Desk.slot_get_modify {k : Nat} {d : Desk} (hd : k < d.debuggers.size)
    (f : Debugger → Debugger) : (Desk.slot k).get ((Desk.slot k).modify f d) =
      f ((Desk.slot k).get d) := by
  simp [Desk.slot, hd, Array.getElem_modify]

/-- A call of a watcher that at most asks to stop. -/
theorem call_patient (tell : Event → Act Unit) {id : String} {w : Watcher} {k : Nat} (e : Event)
    (m : Machine) {d : Desk} (hsize : d.debuggers.size = k + 1) (hw : d.watcher? id = some w)
    (hpatient : w.Patient e.topic) :
    ∃ d', d.Keeps k d' ∧ call tell id e (m, d) = .ok () (m, d') := by
  have htext : e.textAs w.topic = .ok e.text := by rw [hpatient.1, Event.textAs_topic]
  rcases hpatient.2 with hr | hr
  · refine ⟨{ d with calls := d.calls.push (id ++ ":" ++ e.text) }, ⟨rfl, rfl, rfl, .inl rfl⟩, ?_⟩
    simp only [call, Bind.bind, EStateM.bind, Run.watchers, hw, htext, hr]
    rfl
  · -- the call is noted first, which changes no debugger
    let noted : Desk := { d with calls := d.calls.push (id ++ ":" ++ e.text) }
    have hk : k < noted.debuggers.size := hsize ▸ Nat.lt_succ_self k
    have hget := Desk.slot_get_modify hk Debugger.stop
    have hempty : noted.debuggers.isEmpty = false := by
      rw [Array.isEmpty_eq_false_iff, ← Array.size_pos_iff]
      exact Nat.zero_lt_of_lt hk
    have hinUse : noted.debuggers.size - 1 = k := by
      show d.debuggers.size - 1 = k
      rw [hsize, Nat.add_sub_cancel]
    refine ⟨(Desk.slot k).modify Debugger.stop noted, ⟨rfl, rfl, Array.size_modify, .inr hget⟩, ?_⟩
    have hdebugger : debugger (m, noted) = .ok (Desk.slot k) (m, noted) := by
      rw [← hinUse]
      simp only [debugger, Bind.bind, EStateM.bind, Run.watchers, hempty]
      rfl
    have hperform : perform tell .debugStop (m, noted) =
        .ok .done (m, (Desk.slot k).modify Debugger.stop noted) := by
      simp only [perform, Bind.bind, EStateM.bind, hdebugger]
      rfl
    have hcall : call tell id e (m, d) =
        (perform tell .debugStop >>= fun _ => pure ()) (m, noted) := by
      simp only [call, Bind.bind, EStateM.bind, Run.watchers, hw, htext, hr]
      rfl
    rw [hcall]
    simp only [Bind.bind, EStateM.bind, hperform]
    rfl

/-- Such watchers, told one after the other. -/
theorem forM_patient (tell : Event → Act Unit) (ids : List String) {k : Nat} (e : Event)
    (m : Machine) {d : Desk} (hsize : d.debuggers.size = k + 1)
    (hids : ∀ id ∈ ids, ∃ w, d.watcher? id = some w ∧ w.Patient e.topic) :
    ∃ d', d.Keeps k d' ∧ (ids.forM fun id => call tell id e) (m, d) = .ok () (m, d') := by
  induction ids generalizing d with
  | nil => exact ⟨d, ⟨rfl, rfl, rfl, .inl rfl⟩, rfl⟩
  | cons id ids ih =>
      obtain ⟨w, hw, hpatient⟩ := hids id List.mem_cons_self
      obtain ⟨d', hkeeps, hcall⟩ := call_patient tell e m hsize hw hpatient
      have hids' : ∀ id ∈ ids, ∃ w, d'.watcher? id = some w ∧ w.Patient e.topic := by
        intro id hid
        rw [Desk.watcher?, hkeeps.watchers]
        exact hids id (List.mem_cons_of_mem _ hid)
      obtain ⟨d'', hkeeps', hforM⟩ := ih (hkeeps.size.trans hsize) hids'
      have hcons : (id :: ids).forM (fun id => call tell id e) =
          (call tell id e >>= fun _ => ids.forM fun id => call tell id e) := rfl
      refine ⟨d'', hkeeps.trans hkeeps', ?_⟩
      simp only [hcons, Bind.bind, EStateM.bind, hcall]
      exact hforM

/-- The watchers of a session only ask to stop if each does nothing or that. -/
theorem onlyStops_notify (k depth : Nat) :
    Debugger.OnlyStops (Desk.slot k) (notify (depth + 1)) (Desk.Patient k) where
  told e m d hd := by
    have hids : ∀ id ∈ d.watches.watchersOf e, ∃ w, d.watcher? id = some w ∧
        w.Patient e.topic := by
      intro id hid
      obtain ⟨x, hx, rfl⟩ := List.mem_map.1 hid
      obtain ⟨hmem, hcovers⟩ := List.mem_filter.1 hx
      have htopic : x.topic = e.topic := beq_iff_eq.1 (Bool.and_eq_true_iff.1 hcovers).1
      rw [← htopic]
      exact hd.2 x hmem
    obtain ⟨d', hkeeps, hforM⟩ := forM_patient (notify depth) _ e m hd.1 hids
    refine ⟨d', ⟨hkeeps.size.trans hd.1, ?_⟩, hforM, hkeeps.slot⟩
    intro x hx
    rw [hkeeps.watches] at hx
    rw [Desk.watcher?, hkeeps.watchers]
    exact hd.2 x hx
  get_modify f d hd := Desk.slot_get_modify (hd.1 ▸ Nat.lt_succ_self k) f
  calm_modify f d hd := ⟨Array.size_modify.trans hd.1, hd.2⟩

/-- Four bytes of memory with LXI H and INR M, which here counts up itself. -/
def countingItself : Machine where
  memory := ⟨#[0x21, 0x03, 0x00, 0x34]⟩

/-- A desk with a debugger that waits at address 0 and for a write at address 3, and a watcher that
    asks to stop when a flag changes. -/
def attended : Desk where
  watches := ⟨[⟨.flag, none, "w"⟩]⟩
  watchers := [("w", ⟨.flag, .perform .debugStop⟩)]
  debuggers := #[{
    breakpoints :=
      [{ kind := .pcMatch, value := .int 0 }, { kind := .memoryWrite, address := .int 3 }]
    before := {} }]

/-- What is seen of a run: its answer, the memory, the program counter, the number of steps. -/
def seenOf : EStateM.Result (Fault Failure) (Machine × Desk) (Option StopReason) →
    Option (Option StopReason × Array Byte × Word × Nat)
  | .ok r (m, d) => some (r, m.memory.cells, m.state.pc, ((Desk.slot 0).get d).history.size)
  | .error _ _ => none

/-- After two steps four endings hold, and the breakpoint for the write is the first of them; the
    one at the address where the run begins does not count. -/
theorem run_ends_attended :
    Desk.Patient 0 attended ∧ ∀ fuel > 2,
      seenOf (Debugger.run (Desk.slot 0) (notify 1) fuel (some 2) (countingItself, attended)) =
        some (some .breakpoint, #[0x21, 0x03, 0x00, 0x35], 4, 2) := by
  have hd : Desk.Patient 0 attended := by
    refine ⟨rfl, fun x hx => ?_⟩
    obtain rfl := List.mem_singleton.1 hx
    exact ⟨⟨.flag, .perform .debugStop⟩, by simp [attended, Desk.watcher?], rfl, .inr rfl⟩
  refine ⟨hd, fun fuel hfuel => ?_⟩
  obtain ⟨hends, -⟩ :=
    Debugger.run_ends (onlyStops_notify 0 0) (some 2) countingItself hd
  have hv : (Debugger.visit? (Desk.slot 0) (notify 1) (countingItself, attended) 2).isSome := by
    decide +kernel
  obtain ⟨v, hv⟩ := Option.isSome_iff_exists.1 hv
  obtain ⟨j, hj, w, e, -, -, -, -, hrun⟩ :=
    hends 2 v hv fun hidle => hidle .limit ⟨2, rfl, le_rfl⟩
  -- three steps' fuel is enough to see how it ends
  have hseen (fuel : Nat) (hfuel : fuel > j) :
      seenOf (Debugger.run (Desk.slot 0) (notify 1) fuel (some 2) (countingItself, attended)) =
        match e.outcome (ε := Failure) with
        | .ok r => some (some r, w.machine.memory.cells, w.machine.state.pc,
            (e.leaves ((Desk.slot 0).get w.watchers)).history.size)
        | .error _ => none := by
    obtain ⟨u, hu, hend⟩ := hrun fuel hfuel
    rw [hend, ← hu]
    cases e.outcome (ε := Failure) <;> rfl
  have hthree : seenOf
      (Debugger.run (Desk.slot 0) (notify 1) 3 (some 2) (countingItself, attended)) =
        some (some .breakpoint, #[0x21, 0x03, 0x00, 0x35], 4, 2) := by
    decide +kernel
  rw [hseen fuel (by omega), ← hseen 3 (by omega), hthree]

end Monitor

end Lab8085
