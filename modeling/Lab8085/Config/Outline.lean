/-
  Lab8085.Config.Outline

  Configurations that are given part by part, with values of any kind that nobody has
  checked. Building goes the same way as for a checked one; a value of the wrong kind
  is noticed when it is needed.
-/
import Lab8085.Config.Building
import Lab8085.Given

namespace Lab8085.Config

/-- A system configuration without promises about its values. -/
structure Outline where
  memorySize : Value := .int maxMemory
  /-- The program's source, path and address. -/
  program : Option (Value × Value × Value) := none
  /-- Addresses, and what goes there. -/
  memory : List (Value × Value) := []
  pc : Value := .int 0
  sp : Value := .int 0
  mask : Value := .int 0
  registers : List (String × Value) := []
  flags : List (String × Value) := []

namespace Outline

/-- Values at consecutive addresses of a machine. -/
def place (m : Machine) (address : Value) (values : List Value) : Except Failure Machine :=
  match m.placeGiven address 0 values with
  | (m, none) => .ok m
  | (_, some e) => .error (.bus e)

/-- Places a program, if there is one, and gives the machine its labels. -/
def loadProgram (files : Files) (m : Machine) :
    Option (Value × Value × Value) → Except Failure (Machine × Option Assembly)
  | none => .ok (m, none)
  | some (source, path, address) => do
    let text ← sourceText files ⟨source, path, 0⟩
    let a ← Assembly.compileGiven Catalog.standard text address
    let m ← place m address (a.code.map fun b => .int b.toNat)
    return ({ m with symbols := .ofAssembly a }, some a)

/-- Places the preloads in order. -/
def loadAll (m : Machine) : List (Value × Value) → Except Failure Machine
  | [] => .ok m
  | (address, data) :: ps => do loadAll (← place m address data.spread) ps

/-- The state to start in. The value of a name that is no register is not looked at. -/
def initial (o : Outline) : Except Failure InitialState := do
  let pc ← o.pc.number
  let sp ← o.sp.number
  let mask ← o.mask.number
  let registers ← o.registers.mapM fun e =>
    if (register? e.1).isSome then do return (e.1, ← e.2.number) else return (e.1, 0)
  return ⟨pc, sp, mask, registers, o.flags⟩

/-- Builds the machine of a configuration. -/
def build (files : Files) (o : Outline) : Except Failure Built := do
  match Machine.ofSize? o.memorySize with
  | none => .error (.config (.memorySize (Machine.sizeMessage o.memorySize)))
  | some m =>
    let (m, a) ← loadProgram files m o.program
    let m ← loadAll m o.memory
    let i ← o.initial
    return ⟨i.applyTo m, a, i.warnings⟩

end Outline

end Lab8085.Config
