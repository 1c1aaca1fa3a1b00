/-
  Lab8085.Proofs.Machine.Attended

  Runs under watchers that look on.

  Watchers that always return and leave the machine alone change nothing about registers and
  memory.  What a microprogram does to them when nobody watches (`Micro.eval`) it does under
  such watchers too (`Run.achieves_micro`), and so does a step (`Run.step_of_core`).

  Where steps lead on registers and memory alone (`Core.Leads`), a run of steps leads as well
  (`Run.walks_of_leads`); so a program is followed on its core and nothing has to be said of
  those who watch it.
-/
import Lab8085.Proofs.Debugger.Agreement
import Lab8085.Proofs.Machine.Leads

namespace Lab8085

/-! ## Watchers that look on -/

namespace Run

variable {ε σ α β : Type} {notify : Event → Run ε σ Unit} {Calm : σ → Prop}

/-- Watchers that look on: they always return and leave the machine alone. It is enough that they
    do so as long as they are `Calm`, and that they stay calm. -/
def Attending (notify : Event → Run ε σ Unit) (Calm : σ → Prop) : Prop :=
  ∀ e m t, Calm t → ∃ u, Calm u ∧ notify e (m, t) = .ok () (m, u)

/-- A run has the result that a function has on registers and memory, wherever that has one. -/
def Achieves (Calm : σ → Prop) (r : Run ε σ α) (g : Core → Option (α × Core)) : Prop :=
  ∀ m t x c, Calm t → g m.core = some (x, c) →
    ∃ n u, Calm u ∧ n.core = c ∧ r (m, t) = .ok x (n, u)

theorem Achieves.pure (x : α) :
    Achieves Calm (Pure.pure x : Run ε σ α) fun c => some (x, c) := by
  intro m t y c ht hc
  cases hc
  exact ⟨m, t, ht, rfl, rfl⟩

theorem Achieves.bind {r : Run ε σ α} {g : Core → Option (α × Core)} {f : α → Run ε σ β}
    {h : α → Core → Option (β × Core)} (hr : Achieves Calm r g)
    (hf : ∀ x, Achieves Calm (f x) (h x)) :
    Achieves Calm (r >>= f) fun c => (g c).bind fun p => h p.1 p.2 := by
  intro m t y c ht hc
  obtain ⟨⟨x, d⟩, hx, hy⟩ := Option.bind_eq_some_iff.1 hc
  obtain ⟨n, u, hu, rfl, hrun⟩ := hr m t x d ht hx
  obtain ⟨k, v, hv, hk, hrun'⟩ := hf x n u y c hu hy
  refine ⟨k, v, hv, hk, ?_⟩
  simp only [Bind.bind, EStateM.bind, hrun]
  exact hrun'

/-- Each request is answered as it evaluates; only a change and a halt are told of. -/
theorem achieves_request (hnotify : Attending notify Calm) (r : Micro.Request) :
    Achieves Calm (r.run notify) r.eval := by
  intro m t x c ht hc
  cases r with
  | state =>
      cases hc
      exact ⟨m, t, ht, rfl, rfl⟩
  | assign y =>
      cases hc
      by_cases hy : m.state.holds y = true
      · refine ⟨m, t, ht, ?_, ?_⟩
        · show m.core = m.core.change y
          have hsame : m.state.apply y = m.state := State.apply_of_holds hy
          simp only [Machine.core, Core.change, hsame]
        · simp only [Micro.Request.run, Run.assign, if_pos hy]
      · obtain ⟨u, hu, htold⟩ := hnotify (.changed y) (m.change y) t ht
        refine ⟨m.change y, u, hu, rfl, ?_⟩
        simp only [Micro.Request.run, Run.assign, if_neg hy]
        exact htold
  | read a =>
      obtain ⟨b, hb, he⟩ := Option.map_eq_some_iff.1 hc
      cases he
      have hget : m.memory.get? a.toNat = some x := hb
      refine ⟨m.record .read a.toNat (show Byte from x).toNat, t, ht, rfl, ?_⟩
      simp only [Micro.Request.run, readMemory, hget]
  | write a v =>
      obtain ⟨d, hd, he⟩ := Option.map_eq_some_iff.1 hc
      cases he
      by_cases ha : a.toNat < m.memory.size
      · have hw : m.core.write? a v = some ⟨m.state, m.memory.put a.toNat v⟩ := if_pos ha
        rw [hw, Option.some_inj] at hd
        refine ⟨({ m with memory := m.memory.put a.toNat v } : Machine).record .write a.toNat
          v.toNat, t, ht, hd, ?_⟩
        simp only [Micro.Request.run, writeMemory, if_pos ha]
      · have hw : m.core.write? a v = none := if_neg ha
        rw [hw] at hd
        cases hd
  | input port =>
      cases hc
      exact ⟨m.record .portIn port.toNat 0, t, ht, rfl, rfl⟩
  | output port v =>
      cases hc
      exact ⟨m.record .portOut port.toNat v.toNat, t, ht, rfl, rfl⟩
  | halted =>
      cases hc
      obtain ⟨u, hu, htold⟩ := hnotify .halted m t ht
      exact ⟨m, u, hu, rfl, htold⟩

/-- A microprogram has the result to which it evaluates. -/
theorem achieves_micro (hnotify : Attending notify Calm) (p : Micro α) :
    Achieves Calm (p.run notify) p.eval := by
  induction p with
  | done x => exact Achieves.pure x
  | ask r next ih => exact (achieves_request hnotify r).bind ih

/-- A step does to registers and memory what it does when nobody watches. -/
theorem step_of_core (hnotify : Attending notify Calm) {m : Machine} {t : σ} {c : Core}
    (ht : Calm t) (hc : m.core.step? = some c) :
    ∃ s n u, Calm u ∧ n.core = c ∧ step notify (m, t) = .ok s (n, u) := by
  obtain ⟨⟨opcode, c₁⟩, hfetch, hc⟩ := Option.bind_eq_some_iff.1 hc
  obtain ⟨e, he, hc⟩ := Option.bind_eq_some_iff.1 hc
  obtain ⟨⟨bytes, c₂⟩, hbytes, hc⟩ := Option.bind_eq_some_iff.1 hc
  obtain ⟨⟨y, c₃⟩, hact, rfl⟩ := Option.map_eq_some_iff.1 hc
  let m₀ : Machine := { m with log := #[] }
  obtain ⟨m₁, t₁, ht₁, rfl, hrun₁⟩ := achieves_micro hnotify _ m₀ t opcode c₁ ht hfetch
  obtain ⟨m₂, t₂, ht₂, rfl, hrun₂⟩ := achieves_micro hnotify _ m₁ t₁ bytes c₂ ht₁ hbytes
  obtain ⟨m₃, t₃, ht₃, rfl, hrun₃⟩ := achieves_micro hnotify _ m₂ t₂ y c₃ ht₂ hact
  -- the snapshot counts the step and takes the log
  let n : Machine := { m₃ with log := #[], steps := m₃.steps + 1 }
  refine ⟨⟨n.state, .ofBytes e bytes, n.steps, n.symbolInfo m.state.pc (.ofBytes e bytes),
    m₃.log.toList⟩, n, t₃, ht₃, rfl, ?_⟩
  have hclear : clearLog (m, t) = EStateM.Result.ok (ε := Fault ε) () (m₀, t) := rfl
  simp only [step, Bind.bind, EStateM.bind, hclear, Run.state, hrun₁, he, hrun₂, hrun₃]
  rfl

end Run

/-- Watchers that only ask a debugger to stop look on. -/
theorem Debugger.OnlyStops.attending {ε σ : Type} {slot : Debugger.Slot σ}
    {notify : Event → Run ε σ Unit} {Calm : σ → Prop}
    (h : Debugger.OnlyStops slot notify Calm) : Run.Attending notify Calm := by
  intro e m t ht
  obtain ⟨u, hu, he, -⟩ := h.told e m t ht
  exact ⟨u, hu, he⟩

namespace Monitor

/-- Watchers of a session look on if none does more than ask the debugger in use to stop. -/
theorem attending_notify (k depth : Nat) :
    Run.Attending (notify (depth + 1)) (Desk.Patient k) :=
  (onlyStops_notify k depth).attending

theorem patient_attended : Desk.Patient 0 attended := by
  refine ⟨rfl, fun x hx => ?_⟩
  obtain rfl := List.mem_singleton.1 hx
  exact ⟨⟨.flag, .perform .debugStop⟩, by simp [attended, Desk.watcher?], rfl, .inr rfl⟩

end Monitor

/-! ## Several steps -/

namespace Run

variable {ε σ : Type} {notify : Event → Run ε σ Unit} {Calm : σ → Prop}

/-- Where steps lead on registers and memory, they lead under watchers that look on. -/
theorem walks_of_leads (hnotify : Attending notify Calm) {k : Nat} {m : Machine} {t : σ}
    {c : Core} (ht : Calm t) (h : Core.Leads k m.core c) :
    ∃ xs n u, Calm u ∧ n.core = c ∧ Walks notify (m, t) k xs (n, u) := by
  generalize hm : m.core = d at h
  induction h generalizing m t with
  | refl d => exact ⟨[], m, t, ht, hm, .zero _⟩
  | @step k d d' c b hb hgoesOn hd _ ih =>
      subst hm
      obtain ⟨x, m', t', ht', hm', hstep⟩ := step_of_core hnotify ht hd
      obtain ⟨xs, n, u, hu, hn, hwalk⟩ := ih ht' hm'
      refine ⟨x :: xs, n, u, hu, hn, hwalk.cons ?_ hstep⟩
      have hget : m.memory.get? m.state.pc.toNat = some b := hb
      rintro (hpast | hhalt)
      · have hin : m.state.pc.toNat < m.memory.size := Memory.get?_isSome.1 (by rw [hget]; rfl)
        exact absurd hin (Nat.not_lt.2 hpast)
      · rw [Machine.AtHalt, hget, Option.some_inj] at hhalt
        exact hgoesOn hhalt

end Run

end Lab8085
