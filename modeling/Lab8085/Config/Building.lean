/-
  Lab8085.Config.Building

  Building a machine from a configuration. The program is assembled and placed, the
  preloads are placed over it, and the machine is reset and given its initial
  state. Names of registers and flags that do not exist are left out with a warning.
-/
import Lab8085.Failure
import Lab8085.Machine
import Lab8085.Text.UpperCase

namespace Lab8085

/-- The labels of a program with their addresses. -/
def Symbols.ofAssembly (a : Assembly) : Symbols :=
  .ofList (a.symbols.map fun s => (s.1, .int s.2.toNat))

namespace Config

/-- A machine ready to run, the program in it, and the warnings on the way. -/
structure Built where
  machine : Machine
  assembly : Option Assembly
  warnings : List String

/-- Numbers at consecutive addresses of a machine. -/
def place (m : Machine) (address : Int) (values : List Int) : Except Failure Machine :=
  match m.place address values with
  | (m, none) => .ok m
  | (_, some e) => .error (.bus e)

/-- Assembles a source for an address and places its code there. -/
def loadSource (m : Machine) (source : String) (address : Int) :
    Except Failure (Machine × Assembly) := do
  match Assembly.compile source address with
  | .error e => .error (.assembly e)
  | .ok a => return (← place m address (a.code.map fun b => (b.toNat : Int)), a)

/-- The source that a value is. -/
def sourceOf (v : Value) : Except Failure String :=
  match v.bare with
  | .text s => .ok s
  | .bytes _ => .error .wrongKind
  | _ => .error .noSuchPart

/-- The text of a program: its source if it has one, else its file. -/
def sourceText (files : Files) (p : Program) : Except Failure String :=
  if p.source.truth then sourceOf p.source
  else if p.path.truth then (files.readNamed p.path).mapError .file
  else .error (.config .noSource)

/-- Places a program, if there is one, and gives the machine its labels. -/
def loadProgram (files : Files) (m : Machine) :
    Option Program → Except Failure (Machine × Option Assembly)
  | none => .ok (m, none)
  | some p => do
    let (m, a) ← loadSource m (← sourceText files p) p.loadAddress
    return ({ m with symbols := .ofAssembly a }, some a)

/-- Places the preloads in order. -/
def loadAll (m : Machine) : List Preload → Except Failure Machine
  | [] => .ok m
  | p :: ps => do loadAll (← place m p.address p.data) ps

/-- The register that an entry of the initial state names. -/
def register? (name : String) : Option Register :=
  Register.ofName? (Text.upperName name)

/-- The flag that an entry of the initial state names. -/
def flag? (name : String) : Option Flag :=
  Flag.ofName? (Text.upperName name)

namespace InitialState

/-- The changes that bring about an initial state. -/
def changes (i : InitialState) : List Change :=
  [.pc (BitVec.ofInt 16 i.pc), .sp (BitVec.ofInt 16 i.sp), .mask (BitVec.ofInt 8 i.mask)] ++
    (i.registers.filterMap fun e => (register? e.1).map fun r =>
      Change.register r (BitVec.ofInt 8 e.2)) ++
    (i.flags.filterMap fun e => (flag? e.1).map fun f => Change.flag f e.2.truth)

/-- A warning for each name that stands for nothing. -/
def warnings (i : InitialState) : List String :=
  ((i.registers.filter fun e => (register? e.1).isNone).map fun e =>
    "Unknown register '" ++ e.1 ++ "' in initial_state, ignored") ++
  ((i.flags.filter fun e => (flag? e.1).isNone).map fun e =>
    "Unknown flag '" ++ e.1 ++ "' in initial_state, ignored")

/-- The machine reset and in the initial state. -/
def applyTo (i : InitialState) (m : Machine) : Machine :=
  i.changes.foldl Machine.change m.reset

end InitialState

/-- Builds the machine of a configuration. -/
def build (files : Files) (s : System) : Except Failure Built := do
  match Machine.ofSize? s.memorySize with
  | none => .error (.config (.memorySize (Machine.sizeMessage s.memorySize)))
  | some m =>
    let (m, a) ← loadProgram files m s.program
    let m ← loadAll m s.memory
    return ⟨s.initial.applyTo m, a, s.initial.warnings⟩

end Config

end Lab8085
