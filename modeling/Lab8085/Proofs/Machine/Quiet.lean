/-
  Lab8085.Proofs.Machine.Quiet

  What instructions do to registers and memory when nobody watches.

  A microprogram then is a partial function on a `Core`, the programmer's model with
  the memory: `Micro.eval`, which has no result where an access leaves the memory.
  Running a microprogram on a machine agrees with it (`denotes_run`), the log, the
  step count and the labels apart; so does a whole step (`stepped?_eq`).
-/
import Lab8085.Machine.Step

namespace Lab8085

/-- The programmer's model and the memory: all that instructions work on. -/
structure Core where
  state : State
  memory : Memory
  deriving DecidableEq

namespace Core

/-- The byte at an address, if there is memory. -/
def read? (c : Core) (a : Word) : Option Byte :=
  c.memory.get? a.toNat

/-- The core with a byte put at an address, if there is memory. -/
def write? (c : Core) (a : Word) (v : Byte) : Option Core :=
  if a.toNat < c.memory.size then some { c with memory := c.memory.put a.toNat v } else none

/-- The core after a change of the programmer's model. -/
def change (c : Core) (x : Change) : Core :=
  { c with state := c.state.apply x }

@[simp] theorem read?_change (c : Core) (x : Change) (a : Word) :
    (c.change x).read? a = c.read? a := rfl

end Core

/-- Registers and memory of a machine. -/
def Machine.core (m : Machine) : Core :=
  ⟨m.state, m.memory⟩

/-- A change to a value that is held already is none. -/
theorem State.apply_of_holds {s : State} {c : Change} (h : s.holds c = true) : s.apply c = s := by
  obtain ⟨r, f, pc, sp, mask⟩ := s
  cases c with
  | pc v => simp [holds] at h; simp [apply, h]
  | sp v => simp [holds] at h; simp [apply, h]
  | mask v => simp [holds] at h; simp [apply, h]
  | register k v =>
      simp only [holds, beq_iff_eq] at h
      -- setting a register to what it holds is seen on every register
      have hr : r.set k v = r := by
        apply Registers.ext_get
        intro j
        rw [Registers.get_set]
        split
        · rename_i hj
          rw [hj, h]
        · rfl
      simp [apply, hr]
  | flag k v =>
      simp only [holds, beq_iff_eq] at h
      have hf : f.set k v = f := by
        subst h
        cases k <;> rfl
      simp [apply, hf]

/-! ## Microprograms as functions -/

namespace Micro

variable {α β : Type}

/-- The answer to a request, and the core after it. -/
def Request.eval : (r : Request) → Core → Option (r.Answer × Core)
  | .state, c => some (c.state, c)
  | .assign x, c => some ((), c.change x)
  | .read a, c => (c.read? a).map fun v => (v, c)
  | .write a v, c => (c.write? a v).map fun c => ((), c)
  | .input _, c => some (0, c)
  | .output _ _, c => some ((), c)
  | .halted, c => some ((), c)

/-- The result of a microprogram, and the core after it. -/
def eval : Micro α → Core → Option (α × Core)
  | .done x, c => some (x, c)
  | .ask r next, c => (r.eval c).bind fun p => (next p.1).eval p.2

@[simp] theorem eval_done (x : α) (c : Core) : (Micro.done x).eval c = some (x, c) := rfl

/-- One microprogram after another. -/
@[simp] theorem eval_bind (p : Micro α) (f : α → Micro β) (c : Core) :
    (p >>= f).eval c = (p.eval c).bind fun q => (f q.1).eval q.2 := by
  induction p generalizing c with
  | done x => rfl
  | ask r next ih =>
      rw [ask_bind, eval, eval, Option.bind_assoc]
      congr 1
      funext q
      exact ih q.1 q.2

@[simp] theorem eval_ite (k : Bool) (p q : Micro α) (c : Core) :
    (if k then p else q).eval c = if k then p.eval c else q.eval c := by
  cases k <;> rfl

@[simp] theorem eval_state (c : Core) : state.eval c = some (c.state, c) := rfl

@[simp] theorem eval_assign (x : Change) (c : Core) :
    (assign x).eval c = some ((), c.change x) := rfl

@[simp] theorem eval_read (a : Word) (c : Core) :
    (read a).eval c = (c.read? a).map fun v => (v, c) := by
  rw [read, eval, Request.eval]
  cases c.read? a <;> rfl

@[simp] theorem eval_write (a : Word) (v : Byte) (c : Core) :
    (write a v).eval c = (c.write? a v).map fun c => ((), c) := by
  rw [write, eval, Request.eval]
  cases c.write? a v <;> rfl

@[simp] theorem eval_input (port : Byte) (c : Core) : (input port).eval c = some (0, c) := rfl

@[simp] theorem eval_output (port v : Byte) (c : Core) :
    (output port v).eval c = some ((), c) := rfl

@[simp] theorem eval_register (r : Register) (c : Core) :
    (register r).eval c = some (c.state.registers.get r, c) := rfl

@[simp] theorem eval_flag (f : Flag) (c : Core) :
    (flag f).eval c = some (c.state.flags.get f, c) := rfl

@[simp] theorem eval_pair (p : Pair) (c : Core) :
    (pair p).eval c = some (c.state.pair p, c) := rfl

@[simp] theorem eval_setRegister (r : Register) (v : Byte) (c : Core) :
    (setRegister r v).eval c = some ((), c.change (.register r v)) := rfl

@[simp] theorem eval_setFlag (f : Flag) (v : Bool) (c : Core) :
    (setFlag f v).eval c = some ((), c.change (.flag f v)) := rfl

@[simp] theorem eval_setPc (w : Word) (c : Core) :
    (setPc w).eval c = some ((), c.change (.pc w)) := rfl

/-- Changes in a row are all made. -/
@[simp] theorem eval_assignAll (xs : List Change) (c : Core) :
    (assignAll xs).eval c = some ((), xs.foldl Core.change c) := by
  induction xs generalizing c with
  | nil => rfl
  | cons x xs ih => simp [assignAll, ih]

end Micro

/-! ## Runs without watchers -/

namespace Run

variable {α β : Type}

/-- A result with registers and memory after it; nothing of a failure. -/
def seen : EStateM.Result (Fault Empty) (Machine × Unit) α → Option (α × Core)
  | .ok x s => some (x, s.1.core)
  | .error _ _ => none

/-- A run acts on registers and memory as a function says. -/
def Denotes (r : Run Empty Unit α) (g : Core → Option (α × Core)) : Prop :=
  ∀ m : Machine, seen (r (m, ())) = g m.core

theorem Denotes.pure (x : α) : Denotes (Pure.pure x) fun c => some (x, c) :=
  fun _ => rfl

theorem Denotes.bind {r : Run Empty Unit α} {g : Core → Option (α × Core)}
    {f : α → Run Empty Unit β} {h : α → Core → Option (β × Core)}
    (hr : Denotes r g) (hf : ∀ x, Denotes (f x) (h x)) :
    Denotes (r >>= f) fun c => (g c).bind fun p => h p.1 p.2 := by
  intro m
  have hm := hr m
  simp only [Bind.bind, EStateM.bind]
  cases hres : r (m, ()) with
  | ok x s =>
      rw [hres, seen] at hm
      rw [← hm]
      exact hf x s.1
  | error e s =>
      rw [hres, seen] at hm
      rw [← hm]
      rfl

/-- Each request acts as its evaluation says. -/
theorem denotes_request (r : Micro.Request) :
    Denotes (r.run Machine.unwatched) r.eval := by
  intro m
  cases r with
  | state => rfl
  | assign x =>
      simp only [Micro.Request.run, Run.assign, Micro.Request.eval]
      split
      · rename_i h
        have hs := State.apply_of_holds (s := m.state) h
        simp [seen, Machine.core, Core.change, hs]
      · rfl
  | read a =>
      simp only [Micro.Request.run, Run.readMemory, Micro.Request.eval, Core.read?, Machine.core]
      cases m.memory.get? a.toNat <;> rfl
  | write a v =>
      by_cases h : a.toNat < m.core.memory.size
      · have hw : m.core.write? a v = some ⟨m.state, m.memory.put a.toNat v⟩ := if_pos h
        simp only [Micro.Request.run, Run.writeMemory, Micro.Request.eval, hw, Option.map_some]
        rw [if_pos (show a.toNat < m.memory.size from h)]
        rfl
      · have hw : m.core.write? a v = none := if_neg h
        simp only [Micro.Request.run, Run.writeMemory, Micro.Request.eval, hw, Option.map_none]
        rw [if_neg (show ¬a.toNat < m.memory.size from h)]
        rfl
  | input port => rfl
  | output port v => rfl
  | halted => rfl

/-- A microprogram runs as it evaluates. -/
theorem denotes_run (p : Micro α) : Denotes (p.run Machine.unwatched) p.eval := by
  induction p with
  | done x => exact Denotes.pure x
  | ask r next ih => exact (denotes_request r).bind ih

end Run

/-! ## Steps -/

namespace Core

/-- The entry of an opcode carried out: its bytes are fetched, then it acts. -/
def carryOut (e : Entry) (c : Core) : Option Core :=
  ((Micro.fetchBytes e.descriptor.kind.extraBytes).eval c).bind fun p =>
    ((e.effect p.1).eval p.2).map Prod.snd

/-- One step on registers and memory. -/
def step? (c : Core) : Option Core :=
  (Micro.fetch.eval c).bind fun p =>
    (Catalog.standard.opcode? p.1.toNat).bind fun e => carryOut e p.2

end Core

namespace Run

variable {α : Type}

/-- Registers and memory after a run that returns; nothing of a failure. -/
def reached : EStateM.Result (Fault Empty) (Machine × Unit) α → Option Core
  | .ok _ s => some s.1.core
  | .error _ _ => none

/-- A run changes registers and memory as a function says, whatever its result is. -/
def Reaches (r : Run Empty Unit α) (g : Core → Option Core) : Prop :=
  ∀ m : Machine, reached (r (m, ())) = g m.core

theorem Denotes.reaches {r : Run Empty Unit α} {g : Core → Option (α × Core)}
    (hr : Denotes r g) {β : Type} {f : α → Run Empty Unit β} {h : α → Core → Option Core}
    (hf : ∀ x, Reaches (f x) (h x)) :
    Reaches (r >>= f) fun c => (g c).bind fun p => h p.1 p.2 := by
  intro m
  have hm := hr m
  simp only [Bind.bind, EStateM.bind]
  cases hres : r (m, ()) with
  | ok x s =>
      rw [hres, seen] at hm
      rw [← hm]
      exact hf x s.1
  | error e s =>
      rw [hres, seen] at hm
      rw [← hm]
      rfl

theorem reaches_snapshot (start : Word) (o : Operation) :
    Reaches (snapshot start o) some :=
  fun _ => rfl

/-- An entry is carried out on the machine as on its core. -/
theorem reaches_entry (e : Entry) (start : Word) :
    Reaches (do
      let bytes ← (Micro.fetchBytes e.descriptor.kind.extraBytes).run Machine.unwatched
      (e.effect bytes).run Machine.unwatched
      snapshot start (Operation.ofBytes e bytes)) (Core.carryOut e) := by
  have h := (denotes_run (Micro.fetchBytes e.descriptor.kind.extraBytes)).reaches fun bytes =>
    (denotes_run (e.effect bytes)).reaches fun _ => reaches_snapshot start (.ofBytes e bytes)
  intro m
  rw [h m, Core.carryOut]
  refine congrArg (Option.bind _) (funext fun p => ?_)
  cases (e.effect p.1).eval p.2 <;> rfl

end Run

/-- Registers and memory after a step that returns. -/
def Machine.stepped? (m : Machine) : Option Core :=
  match m.step with
  | (.ok _, m') => some m'.core
  | (.error _, _) => none

/-- A step acts on registers and memory alone, as far as these are concerned. -/
theorem Machine.stepped?_eq (m : Machine) : m.stepped? = m.core.step? := by
  have hs : m.stepped? = Run.reached (Run.step unwatched (m, ())) := by
    rw [stepped?, step, quietly]
    cases Run.step unwatched (m, ()) <;> rfl
  rw [hs, Run.step]
  have hclear : Run.Denotes Run.clearLog fun c => some ((), c) := fun _ => rfl
  have hstate : Run.Denotes Run.state fun c => some (c.state, c) := fun _ => rfl
  -- taking the log and reading the state change nothing that is looked at
  refine hclear.reaches (h := fun _ c => c.step?) (fun _ => ?_) m
  refine hstate.reaches (h := fun _ c => c.step?) fun s => ?_
  refine (Run.denotes_run Micro.fetch).reaches (h := fun b c =>
    (Catalog.standard.opcode? b.toNat).bind fun e => Core.carryOut e c) fun b => ?_
  cases Catalog.standard.opcode? b.toNat with
  | none => exact fun _ => rfl
  | some e => exact Run.reaches_entry e s.pc

end Lab8085
