/-
  Lab8085.Proofs.Machine.Fault

  What a microprogram leaves behind when it fails and nobody watches.

  Beside the result of a microprogram, `Micro.eval`, stands its fault, `Micro.fault?`: the
  first access that leaves the memory, with registers and memory as the requests before it
  have left them.  A microprogram has either a result or a fault (`run_outcome`), and its
  run agrees with the one it has.
-/
import Lab8085.Proofs.Machine.Quiet

namespace Lab8085

namespace Micro

variable {α β : Type}

/-- The fault of a request for which there is no memory. -/
def Request.fault : Request → Fault Empty
  | .write a _ => .outsideMemory a .write
  | .read a => .outsideMemory a .read
  -- all other requests are answered
  | _ => .noName

/-- The fault of a microprogram, and the core that it leaves behind. -/
def fault? : Micro α → Core → Option (Fault Empty × Core)
  | .done _, _ => none
  | .ask r next, c =>
    match r.eval c with
    | none => some (r.fault, c)
    | some p => (next p.1).fault? p.2

@[simp] theorem fault?_done (x : α) (c : Core) : (Micro.done x).fault? c = none := rfl

/-- The fault of programs in sequence is the first one's, or the second one's where the first one
    has a result. -/
@[simp] theorem fault?_bind (p : Micro α) (f : α → Micro β) (c : Core) :
    (p >>= f).fault? c = (p.eval c).elim (p.fault? c) fun q => (f q.1).fault? q.2 := by
  induction p generalizing c with
  | done x => rfl
  | ask r next ih =>
      rw [ask_bind, fault?, eval, fault?]
      cases r.eval c with
      | none => rfl
      | some p => exact ih p.1 p.2

/-- A microprogram with a result is not at fault. -/
theorem fault?_of_eval {p : Micro α} {c : Core} {q : α × Core} (h : p.eval c = some q) :
    p.fault? c = none := by
  induction p generalizing c with
  | done x => rfl
  | ask r next ih =>
      rw [eval] at h
      rw [fault?]
      cases hr : r.eval c with
      | none =>
          rw [hr] at h
          cases h
      | some s =>
          rw [hr] at h
          exact ih s.1 h

/-- What comes after a fault plays no part, and what is never at fault adds none. -/
theorem fault?_bind_of_none (p : Micro α) {f : α → Micro β} (hf : ∀ x c, (f x).fault? c = none)
    (c : Core) : (p >>= f).fault? c = p.fault? c := by
  rw [fault?_bind]
  cases h : p.eval c with
  | none => rfl
  | some q =>
      rw [fault?_of_eval h]
      exact hf q.1 q.2

@[simp] theorem fault?_ite (k : Prop) [Decidable k] (p q : Micro α) (c : Core) :
    (if k then p else q).fault? c = if k then p.fault? c else q.fault? c := by
  split <;> rfl

@[simp] theorem fault?_setRegister (r : Register) (v : Byte) (c : Core) :
    (setRegister r v).fault? c = none := rfl

@[simp] theorem fault?_setFlag (f : Flag) (v : Bool) (c : Core) :
    (setFlag f v).fault? c = none := rfl

@[simp] theorem fault?_setPc (w : Word) (c : Core) : (setPc w).fault? c = none := rfl

@[simp] theorem fault?_setSp (w : Word) (c : Core) : (setSp w).fault? c = none := rfl

@[simp] theorem fault?_setMask (b : Byte) (c : Core) : (setMask b).fault? c = none := rfl

@[simp] theorem fault?_output (port v : Byte) (c : Core) : (output port v).fault? c = none := rfl

@[simp] theorem fault?_halted (c : Core) : halted.fault? c = none := rfl

@[simp] theorem fault?_assignAll (xs : List Change) (c : Core) :
    (assignAll xs).fault? c = none := by
  induction xs generalizing c with
  | nil => rfl
  | cons x xs ih => simp [assignAll, ih]

@[simp] theorem fault?_setPair (p : Pair) (w : Word) (c : Core) : (setPair p w).fault? c = none :=
  fault?_assignAll _ c

/-- A read without memory is at fault. -/
theorem fault?_read {a : Word} {c : Core} (h : c.read? a = none) :
    (read a).fault? c = some (.outsideMemory a .read, c) := by
  rw [read, fault?, Request.eval, h]
  rfl

/-- A write without memory is at fault. -/
theorem fault?_write (a : Word) (v : Byte) (c : Core) :
    (write a v).fault? c =
      if a.toNat < c.memory.size then none else some (.outsideMemory a .write, c) := by
  rw [write, fault?, Request.eval, Core.write?]
  by_cases h : a.toNat < c.memory.size
  · rw [if_pos h, if_pos h]
    rfl
  · rw [if_neg h, if_neg h]
    rfl

/-! ### First requests -/

theorem fault?_state_bind (f : State → Micro α) (c : Core) :
    (state >>= f).fault? c = (f c.state).fault? c := rfl

theorem fault?_register_bind (r : Register) (f : Byte → Micro α) (c : Core) :
    (register r >>= f).fault? c = (f (c.state.registers.get r)).fault? c := rfl

theorem fault?_setRegister_bind (r : Register) (v : Byte) (f : Unit → Micro α) (c : Core) :
    (setRegister r v >>= f).fault? c = (f ()).fault? (c.change (.register r v)) := rfl

theorem fault?_read_bind {a : Word} {b : Byte} {c : Core} (h : c.read? a = some b)
    (f : Byte → Micro α) : (read a >>= f).fault? c = (f b).fault? c := by
  rw [fault?_bind, eval_read, h]
  rfl

theorem fault?_read_bind_none {a : Word} {c : Core} (h : c.read? a = none) (f : Byte → Micro α) :
    (read a >>= f).fault? c = some (.outsideMemory a .read, c) := by
  rw [fault?_bind, eval_read, h, fault?_read h]
  rfl

theorem fault?_write_bind {a : Word} {c : Core} (h : a.toNat < c.memory.size) (v : Byte)
    (f : Unit → Micro α) :
    (write a v >>= f).fault? c = (f ()).fault? { c with memory := c.memory.put a.toNat v } := by
  rw [fault?_bind, eval_write, Core.write?, if_pos h]
  rfl

theorem fault?_write_bind_none {a : Word} {c : Core} (h : ¬a.toNat < c.memory.size) (v : Byte)
    (f : Unit → Micro α) :
    (write a v >>= f).fault? c = some (.outsideMemory a .write, c) := by
  rw [fault?_bind, eval_write, Core.write?, if_neg h, fault?_write, if_neg h]
  rfl

end Micro

/-! ## Runs -/

namespace Run

variable {ε σ α β : Type}

theorem bind_of_ok {r : Run ε σ α} {s t : Machine × σ} {x : α} (h : r s = .ok x t)
    (f : α → Run ε σ β) : (r >>= f) s = f x t := by
  simp only [Bind.bind, EStateM.bind, h]

theorem bind_of_error {r : Run ε σ α} {s t : Machine × σ} {e : Fault ε} (h : r s = .error e t)
    (f : α → Run ε σ β) : (r >>= f) s = .error e t := by
  simp only [Bind.bind, EStateM.bind, h]

/-- Where runs in sequence fail, the first one does, or it returns and the second one does. -/
theorem error_of_bind {r : Run ε σ α} {f : α → Run ε σ β} {s s' : Machine × σ} {e : Fault ε}
    (h : (r >>= f) s = .error e s') :
    r s = .error e s' ∨ ∃ x t, r s = .ok x t ∧ f x t = .error e s' := by
  cases hr : r s with
  | ok x t => exact .inr ⟨x, t, rfl, (bind_of_ok hr f).symm.trans h⟩
  | error g t =>
      rw [bind_of_error hr f] at h
      cases h
      exact .inl rfl

/-- A run without watchers returns or fails as a result and a fault say; it counts no step. -/
def Outcome (r : EStateM.Result (Fault Empty) (Machine × Unit) α) (steps : Nat)
    (result : Option (α × Core)) (fault : Option (Fault Empty × Core)) : Prop :=
  match r with
  | .ok x s => result = some (x, s.1.core) ∧ fault = none ∧ s.1.steps = steps
  | .error f s => result = none ∧ fault = some (f, s.1.core) ∧ s.1.steps = steps

theorem request_outcome (r : Micro.Request) (m : Machine) :
    Outcome (r.run Machine.unwatched (m, ())) m.steps (r.eval m.core)
      (if (r.eval m.core).isSome then none else some (r.fault, m.core)) := by
  cases r with
  | state => exact ⟨rfl, rfl, rfl⟩
  | assign x =>
      simp only [Micro.Request.run, Run.assign, Micro.Request.eval]
      split
      · rename_i h
        have hs := State.apply_of_holds (s := m.state) h
        exact ⟨by simp [Machine.core, Core.change, hs], rfl, rfl⟩
      · exact ⟨rfl, rfl, rfl⟩
  | read a =>
      cases h : m.memory.get? a.toNat with
      | none =>
          simp only [Micro.Request.run, Run.readMemory, Micro.Request.eval, Core.read?,
            Machine.core, h]
          exact ⟨rfl, rfl, rfl⟩
      | some b =>
          simp only [Micro.Request.run, Run.readMemory, Micro.Request.eval, Core.read?,
            Machine.core, h]
          exact ⟨rfl, rfl, rfl⟩
  | write a v =>
      by_cases h : a.toNat < m.memory.size
      · have hw : m.core.write? a v = some ⟨m.state, m.memory.put a.toNat v⟩ := if_pos h
        simp only [Micro.Request.run, Run.writeMemory, Micro.Request.eval, hw, if_pos h]
        exact ⟨rfl, rfl, rfl⟩
      · have hw : m.core.write? a v = none := if_neg h
        simp only [Micro.Request.run, Run.writeMemory, Micro.Request.eval, hw, if_neg h]
        exact ⟨rfl, rfl, rfl⟩
  | input port => exact ⟨rfl, rfl, rfl⟩
  | output port v => exact ⟨rfl, rfl, rfl⟩
  | halted => exact ⟨rfl, rfl, rfl⟩

/-- A microprogram runs as its result and its fault say. -/
theorem run_outcome (p : Micro α) (m : Machine) :
    Outcome (p.run Machine.unwatched (m, ())) m.steps (p.eval m.core) (p.fault? m.core) := by
  induction p generalizing m with
  | done x => exact ⟨rfl, rfl, rfl⟩
  | ask r next ih =>
      have hr := request_outcome r m
      simp only [Micro.run_ask, Micro.eval, Micro.fault?]
      cases h : r.run Machine.unwatched (m, ()) with
      | ok x s =>
          rw [bind_of_ok h]
          rw [h] at hr
          obtain ⟨hresult, -, hsteps⟩ := hr
          rw [hresult, ← hsteps]
          exact ih x s.1
      | error f s =>
          rw [bind_of_error h]
          rw [h] at hr
          obtain ⟨hresult, hfault, hsteps⟩ := hr
          rw [hresult] at hfault ⊢
          exact ⟨rfl, hfault, hsteps⟩

end Run

end Lab8085
