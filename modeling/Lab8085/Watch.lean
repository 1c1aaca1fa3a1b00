/-
  Lab8085.Watch

  Watches: who wants to be told of which events. A watch names a topic and, where
  the topic has subjects, perhaps a single one of them. An event is told to its
  watches in the order in which they were set up, once for each; watches set up or
  cancelled meanwhile change nothing for the event under way.
-/
import Lab8085.Machine

namespace Lab8085

/-- What can be watched. -/
inductive Topic where
  | pc | sp | mask | register | flag | halted
  deriving DecidableEq, Repr

namespace Topic

def all : List Topic := [.pc, .sp, .mask, .register, .flag, .halted]

def name : Topic → String
  | .pc => "PC_CHANGED"
  | .sp => "SP_CHANGED"
  | .mask => "INTERRUPT_MASK_CHANGED"
  | .register => "REGISTER_CHANGED"
  | .flag => "FLAG_CHANGED"
  | .halted => "HALTED"

def ofName? (name : String) : Option Topic :=
  all.find? fun t => t.name == name

end Topic

/-- A subject that a watch can be narrowed to. -/
inductive Subject where
  | register (r : Register)
  | flag (f : Flag)
  deriving DecidableEq, Repr

namespace Event

def topic : Event → Topic
  | .changed (.pc _) => .pc
  | .changed (.sp _) => .sp
  | .changed (.mask _) => .mask
  | .changed (.register ..) => .register
  | .changed (.flag ..) => .flag
  | .halted => .halted

/-- The register or flag that an event is about. -/
def subject? : Event → Option Subject
  | .changed (.register r _) => some (.register r)
  | .changed (.flag f _) => some (.flag f)
  | _ => none

end Event

/-- Why an event cannot be told in the words of a topic that is not its own. -/
inductive TellError where
  /-- The topic has subjects, and the event is a number without one. -/
  | noSubject
  /-- The topic is a number, and the event is about a subject. -/
  | noNumber
  /-- The topic has more to say than an event without details. -/
  | noDetails
  deriving DecidableEq, Repr

namespace TellError

/-- What is said of a missing detail; the others have no text. -/
def message : TellError → String
  | .noDetails => "tuple index out of range"
  | _ => ""

end TellError

/-- A watch; `κ` names the watchers, and `ι` are the subjects. -/
structure Watch (κ : Type) (ι : Type := Subject) where
  topic : Topic
  subject : Option ι
  watcher : κ
  deriving DecidableEq

namespace Watch

variable {κ ι : Type}

/-- Whether a watch is for what is told under a topic, perhaps of a subject. -/
def hears [DecidableEq ι] (w : Watch κ ι) (topic : Topic) (subject : Option ι) : Bool :=
  w.topic == topic && (w.subject.isNone || w.subject == subject)

end Watch

/-- The watches that are set up, oldest first. -/
structure Watches (κ : Type) (ι : Type := Subject) where
  list : List (Watch κ ι) := []

namespace Watches

variable {κ ι : Type}

/-- Sets up one more watch. -/
def add (ws : Watches κ ι) (w : Watch κ ι) : Watches κ ι :=
  ⟨ws.list ++ [w]⟩

/-- Cancels the oldest watch that is equal to the given one, if there is one. -/
def cancel [DecidableEq κ] [DecidableEq ι] (ws : Watches κ ι) (w : Watch κ ι) : Watches κ ι :=
  ⟨ws.list.erase w⟩

/-- The watchers of a topic, in order; with the subject, those of every subject and of this
    one. -/
def hearers [DecidableEq ι] (ws : Watches κ ι) (topic : Topic) (subject : Option ι) : List κ :=
  (ws.list.filter fun w => w.hears topic subject).map (·.watcher)

/-- Calls the watchers who watch for a topic and a subject when this begins. The first watcher that
    fails is the last to be called. -/
def emit [DecidableEq ι] {ε σ : Type} (watches : σ → Watches κ ι) (call : κ → Run ε σ Unit)
    (topic : Topic) (subject : Option ι) : Run ε σ Unit := do
  let ws := watches (← Run.watchers)
  (ws.hearers topic subject).forM call

/-- The watchers that an event is told to, in order. -/
def watchersOf (ws : Watches κ) (e : Event) : List κ :=
  ws.hearers e.topic e.subject?

/-- Tells an event to the watchers that watch for it when it arises. -/
def tell {ε σ : Type} (watches : σ → Watches κ) (call : κ → Event → Run ε σ Unit) (e : Event) :
    Run ε σ Unit :=
  emit watches (fun k => call k e) e.topic e.subject?

end Watches

end Lab8085
