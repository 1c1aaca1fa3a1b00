/-
  Lab8085.Machine.Trial

  Trials of single instructions: a machine is set up with some bytes in memory and
  given registers, and makes one step while every event is recorded.
-/
import Lab8085.Machine.Step

namespace Lab8085

/-- The register contents that a trial starts with, as numbers of any size. -/
structure Trial where
  psw : Int
  bc : Int
  de : Int
  hl : Int
  sp : Int
  mask : Int

/-- What a trial came to: the operation or the fault, and what was seen until then. -/
structure Trial.Outcome where
  result : Except (Fault Empty) Operation
  state : State
  accesses : List Access
  events : List Event

namespace Trial

/-- Writes every event down. -/
def recordEvent (e : Event) : Run Empty (Array Event) Unit :=
  Run.modifyWatchers fun es => es.push e

/-- The state that a trial starts with when its code lies at `org`. -/
def start (t : Trial) (org : Int) : State :=
  let w (v : Int) : Word := BitVec.ofInt 16 v
  let changes := State.pairChanges .psw (w t.psw) ++ State.pairChanges .b (w t.bc) ++
    State.pairChanges .d (w t.de) ++ State.pairChanges .h (w t.hl) ++
    [.sp (w t.sp), .pc (w org), .mask (BitVec.ofInt 8 t.mask)]
  changes.foldl State.apply {}

/-- Makes one step from the trial's registers, on a machine with its memory in place. -/
def run (t : Trial) (org : Int) (m : Machine) : Outcome :=
  match Run.step recordEvent ({ m with state := t.start org }, #[]) with
  | .ok s (m, events) => ⟨.ok s.operation, m.state, s.accesses, events.toList⟩
  | .error e (m, events) => ⟨.error e, m.state, m.log.toList, events.toList⟩

end Trial

end Lab8085
