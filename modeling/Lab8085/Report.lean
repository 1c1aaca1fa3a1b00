/-
  Lab8085.Report

  States, events and snapshots as short texts, the way a monitor prints them.
-/
import Lab8085.Machine.Step
import Lab8085.Watch

namespace Lab8085

/-- The letter that stands for a flag that is on. -/
def Flag.letter : Flag → Char
  | .s => 'S' | .z => 'Z' | .ac => 'A' | .p => 'P' | .c => 'C'

/-- The flags in one word, a dash for a flag that is off. -/
def Flags.text (f : Flags) : String :=
  String.ofList (Flag.all.map fun k => if f.get k then k.letter else '-')

namespace State

/-- A register with its contents. -/
def registerText (s : State) (r : Register) : String :=
  r.name ++ "=" ++ Text.hex 2 (s.registers.get r).toNat

/-- The whole state on one line, the accumulator first. -/
def text (s : State) : String :=
  " ".intercalate ([Register.a, .b, .c, .d, .e, .h, .l].map s.registerText) ++
    " F=" ++ s.flags.text ++
    " PC=" ++ Text.hex 4 s.pc.toNat ++
    " SP=" ++ Text.hex 4 s.sp.toNat ++
    " IM=" ++ Text.hex 2 s.mask.toNat

end State

namespace Change

/-- The new value of the program counter, stack pointer or interrupt mask. -/
def number? : Change → Option Nat
  | .pc v | .sp v => some v.toNat
  | .mask v => some v.toNat
  | _ => none

/-- The name and the new value of a register or flag. -/
def named? : Change → Option (String × Nat)
  | .register r v => some (r.name, v.toNat)
  | .flag f v => some (f.name, v.toNat)
  | _ => none

end Change

namespace Event

def text : Event → String
  | .changed (.pc w) => "PC=" ++ Text.hex 4 w.toNat
  | .changed (.sp w) => "SP=" ++ Text.hex 4 w.toNat
  | .changed (.mask b) => "IM=" ++ Text.hex 2 b.toNat
  | .changed (.register r b) => r.name ++ "=" ++ Text.hex 2 b.toNat
  | .changed (.flag f b) => "f" ++ f.name ++ "=" ++ (if b then "1" else "0")
  | .halted => "HALT"

/-- An event in the words of a topic, for a watcher that speaks of one topic and is told of
    another. Whoever waits for a halt says no more than that; words and bytes can stand for each
    other, and so can registers and flags. -/
def textAs (t : Topic) (e : Event) : Except TellError String :=
  match t, e with
  | .halted, _ => .ok Event.halted.text
  | _, .halted => .error .noDetails
  | .pc, .changed c => number c fun n => "PC=" ++ Text.hex 4 n
  | .sp, .changed c => number c fun n => "SP=" ++ Text.hex 4 n
  | .mask, .changed c => number c fun n => "IM=" ++ Text.hex 2 n
  | .register, .changed c => named c fun x n => x ++ "=" ++ Text.hex 2 n
  | .flag, .changed c => named c fun x n => "f" ++ x ++ "=" ++ toString n
where
  number (c : Change) (say : Nat → String) : Except TellError String :=
    match c.number? with
    | some n => .ok (say n)
    | none => .error .noNumber
  named (c : Change) (say : String → Nat → String) : Except TellError String :=
    match c.named? with
    | some (x, n) => .ok (say x n)
    | none => .error .noSubject

/-- An event is told in the words of its own topic. -/
theorem textAs_topic (e : Event) : e.textAs e.topic = .ok e.text := by
  match e with
  | .changed (.pc _) | .changed (.sp _) | .changed (.mask _) => rfl
  | .changed (.register ..) | .halted => rfl
  | .changed (.flag _ false) | .changed (.flag _ true) => rfl

end Event

namespace Snapshot

def text (s : Snapshot) : String :=
  toString s.stepCount ++ "|" ++ s.symbolInfo ++ "|" ++ s.state.text ++ "|" ++
    Access.listText s.accesses

end Snapshot

end Lab8085
