/-
  Lab8085.Config.Reading

  Reading a configuration from a document. Integers may be written as numbers, in
  `0x` notation, in the `h` notation of assembly source, or as decimal text. The
  parts are read in a fixed order, and the first fault is reported: memory size,
  program, memory, initial state.
-/
import Lab8085.Failure
import Lab8085.Dictionary
import Lab8085.Number.Integer
import Lab8085.Source.Literal
import Lab8085.Yaml.Document

namespace Lab8085.Config

/-- The value of a text key in a mapping. -/
def lookup? (entries : List (Value × Value)) (key : String) : Option Value :=
  (entries.find? fun e => match e.1 with | .text s => s == key | _ => false).map (·.2)

/-- The integer that a trimmed text in lower case writes. -/
def integerOfLower? (s : List Char) : Option Int :=
  if s.take 2 = ['0', 'x'] then (Number.integer 16 s).toOption
  else if s.getLast? = some 'h' then (Source.Literal.ofLower? s).map fun n => (n : Int)
  else (Number.integer 10 s).toOption

/-- The integer that a value stands for. A boolean is none. -/
def integer? : Value → Option Int
  | .int n => some n
  | .text s => integerOfLower? (Text.lower (Text.trim s.toList))
  | _ => none

/-- A complaint in which a value is shown, if it can be shown. -/
def complaint (e : Error) (v : Value) : Failure :=
  if v.showable then .config e else .tooLongToShow

/-- An integer at a place in the document. -/
def integer (key : String) (v : Value) : Except Failure Int :=
  match integer? v with
  | some n => .ok n
  | none => .error (complaint (.notInteger key v) v)

/-- An integer of a mapping, with a default for an absent key. -/
def integerAt (entries : List (Value × Value)) (name key : String) (default : Int) :
    Except Failure Int :=
  match lookup? entries name with
  | some v => integer key v
  | none => .ok default

/-- The bytes of a list, up to the first that is none. -/
def bytes (key : String) : List Value → Except Failure (List Int)
  | [] => .ok []
  | v :: vs => do
    let n ← integer key v
    if 0 ≤ n ∧ n ≤ 0xFF then return n :: (← bytes key vs)
    else .error (complaint (.notByte key v) v)

/-- A list of bytes; an absent key stands for none. -/
def byteList (key : String) (v : Option Value) : Except Failure (List Int) :=
  match (v.getD (.list [])).items? with
  | some vs => bytes key vs
  | none => .error (.config (.notByteList key))

/-- The program of a document; an absent key and null stand for none. -/
def program (v : Option Value) : Except Failure (Option Program) :=
  match v.getD .null with
  | .null => .ok none
  | v =>
    match v.entries? with
    | none => .error (.config (.notMapping "program"))
    | some entries =>
      let source := (lookup? entries "source").getD .null
      let path := (lookup? entries "path").getD .null
      if !source.truth && !path.truth then .error (.config .noSource)
      else do
        let address ← integerAt entries "load_address" "program.load_address" 0
        return some ⟨source, path, address⟩

/-- The elements of a value that can be gone through: the items of a list or set, the characters
    of a text, bytes as numbers, the keys of a mapping. -/
def elements (v : Value) : Except Failure (List Value) :=
  match v.bare with
  | .list vs | .set vs => .ok vs
  | .pair a b => .ok [a, b]
  | .text s => .ok (s.toList.map fun c => .text (String.ofList [c]))
  | .bytes bs => .ok (bs.map fun b => .int b.toNat)
  | .map entries => .ok (entries.map (·.1))
  | _ => .error .wrongKind

/-- The preloads of a document, the first of them numbered `index`. -/
def preloads (index : Nat) : List Value → Except Failure (List Preload)
  | [] => .ok []
  | v :: vs => do
    let key := "memory[" ++ toString index ++ "]"
    match v.entries? with
    | some entries =>
      let address ← integer (key ++ ".address") ((lookup? entries "address").getD .null)
      let data ← byteList (key ++ ".data") (lookup? entries "data")
      return ⟨address, data⟩ :: (← preloads (index + 1) vs)
    | none => .error (.config (.notMapping key))

/-- The entries of a mapping that may be absent; whatever is not true stands for none. -/
def optionalEntries : Option Value → Except Failure (List (Value × Value))
  | none => .ok []
  | some v =>
    if v.truth then
      match v.entries? with
      | some entries => .ok entries
      | none => .error .noSuchPart
    else .ok []

/-- The name that a key of a mapping is. -/
def name (key : Value) : Except Failure String :=
  if key.showable then .ok key.plain else .error .tooLongToShow

/-- The registers of an initial state by name, later entries of a name taking over. -/
def registers (d : Dictionary String Int) :
    List (Value × Value) → Except Failure (Dictionary String Int)
  | [] => .ok d
  | (k, v) :: es => do
    let r ← name k
    let n ← integer ("initial_state.registers." ++ r) v
    registers (d.insert r n) es

/-- The flags of an initial state by name, later entries of a name taking over. -/
def flags (d : Dictionary String Value) :
    List (Value × Value) → Except Failure (Dictionary String Value)
  | [] => .ok d
  | (k, v) :: es => do flags (d.insert (← name k) (.bool v.truth)) es

/-- The state to start in. -/
def initialState (v : Option Value) : Except Failure InitialState := do
  let entries ← optionalEntries v
  let pc ← integerAt entries "pc" "initial_state.pc" 0
  let sp ← integerAt entries "sp" "initial_state.sp" 0
  let mask ← integerAt entries "interrupt_mask" "initial_state.interrupt_mask" 0
  let rs ← registers {} (← optionalEntries (lookup? entries "registers"))
  let fs ← flags {} (← optionalEntries (lookup? entries "flags"))
  return ⟨pc, sp, mask, rs.entries, fs.entries⟩

/-- The configuration of a document whose top level is a mapping. -/
def ofEntries (entries : List (Value × Value)) : Except Failure System := do
  let size ← integerAt entries "memory_size" "memory_size" 0x10000
  let program ← program (lookup? entries "program")
  let memory ← preloads 0 (← elements ((lookup? entries "memory").getD (.list [])))
  let initial ← initialState (lookup? entries "initial_state")
  return ⟨.int size, program, memory, initial⟩

/-- The configuration of a document; an empty document asks for nothing special. -/
def ofDocument (v : Value) : Except Failure System :=
  match v.bare with
  | .null => ofEntries []
  | .map entries => ofEntries entries
  | _ => .error (.config .topLevel)

/-- The configuration that a YAML text describes. -/
def ofText (text : String) : Except Failure System :=
  match Yaml.read text with
  | .ok v => ofDocument v
  | .error .malformed => .error (.config .noDocument)
  | .error e => .error (.document e)

/-- The configuration in a file. -/
def ofFile (files : Files) (name : String) : Except Failure System := do
  ofText (← (files.readText name).mapError .file)

end Lab8085.Config
