/-
  Lab8085.Config.System

  System configurations: the size of the memory, a program, bytes to be placed in
  memory, and the state to start in; and what can be wrong with one.
-/
import Lab8085.Value

namespace Lab8085.Config

/-- A program: its source, or the path of a file with its source, and where it goes. -/
structure Program where
  source : Value := .null
  path : Value := .null
  loadAddress : Int := 0

/-- Bytes to be placed in memory. -/
structure Preload where
  address : Int
  data : List Int := []

/-- The state to start in. Registers and flags go by name. -/
structure InitialState where
  pc : Int := 0
  sp : Int := 0
  mask : Int := 0
  registers : List (String × Int) := []
  flags : List (String × Value) := []

/-- A system configuration. -/
structure System where
  memorySize : Value := .int 0x10000
  program : Option Program := none
  memory : List Preload := []
  initial : InitialState := {}

/-- What is wrong with a configuration. -/
inductive Error where
  /-- The text is no document. -/
  | noDocument
  | topLevel
  | notMapping (key : String)
  | noSource
  | notByteList (key : String)
  | notByte (key : String) (value : Value)
  | notInteger (key : String) (value : Value)
  | memorySize (message : String)

namespace Error

/-- The place of the fault in the document. -/
def key? : Error → Option String
  | .noDocument | .topLevel => none
  | .notMapping key | .notByteList key | .notByte key _ | .notInteger key _ => some key
  | .noSource => some "program"
  | .memorySize _ => some "memory_size"

/-- The fault itself. -/
def detail : Error → String
  | .noDocument => "Invalid YAML"
  | .topLevel => "Top level of the configuration must be a mapping."
  | .notMapping _ => "must be a mapping"
  | .noSource => "either 'source' or 'path' is required"
  | .notByteList _ => "must be a list of bytes"
  | .notByte _ v => v.shown ++ " is not an 8-bit value"
  | .notInteger _ v => "Invalid integer format: " ++ v.shown
  | .memorySize message => message

def message (e : Error) : String :=
  match e.key? with
  | none => e.detail
  | some key => key ++ ": " ++ e.detail

end Error

end Lab8085.Config
