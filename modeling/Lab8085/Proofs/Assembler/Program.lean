/-
  Lab8085.Proofs.Assembler.Program

  Abstract programs: what an assembly source means, apart from how it is laid out.
  A program is a list of statements, one a line; each may define a label and may hold
  an instruction, which is a row of the instruction table with an argument.

  Two things belong to a program.  `Program.assembly` is its reference encoding: the
  bytes of the statements in order, with the place of every statement and of every
  label counted from the sizes of the statements before it.  `Program.Written` says
  which texts write the program down: letter case, gaps and comments are free.
-/
import Lab8085.Assembly
import Lab8085.Proofs.Assembler.Text

namespace Lab8085

/-- The kinds whose operand is named by a word: a register, the memory byte, a pair. -/
def OperandKind.isNamed : OperandKind → Bool
  | .register | .place | .pairOrSp | .pairOrPsw | .pairBD => true
  | _ => false

namespace Assembly

open Text

/-! ## Statements -/

/-- What the instruction of a statement works with, as it is given in the source. -/
inductive Argument where
  | absent
  | choice (x : Choice)
  | literal (text : List Char)
  | label (name : List Char)

/-- An instruction: a row of the table and its argument. -/
structure Instr where
  row : Descriptor
  argument : Argument

/-- What a line says. -/
structure Statement where
  label : Option (List Char) := none
  instruction : Option Instr := none

/-- A program, one statement for each line. -/
abbrev Program := List Statement

/-- A text in lower case, as far as it is ASCII. -/
def fold (s : List Char) : List Char :=
  s.map Char.toLower

/-! ## Legal programs -/

/-- A name: one or more ASCII letters, digits and underscores. -/
def IsName (s : List Char) : Prop :=
  s ≠ [] ∧ ∀ c ∈ s, isNameChar c = true

/-- A text without blanks that is read as a number. -/
def IsNumber (t : List Char) : Prop :=
  (∀ c ∈ t, isBlank c = false) ∧ ∃ n, Source.Literal.read (String.ofList t) = .ok n

/-- A text without blanks that is read as a restart number. -/
def IsIndex (t : List Char) : Prop :=
  (∀ c ∈ t, isBlank c = false) ∧ ∃ n, Source.Literal.readIndex (String.ofList t) = .ok n

/-- The arguments that instructions of a kind take. -/
inductive Argument.Legal : OperandKind → Argument → Prop
  | absent : Legal .none .absent
  | byte {t : List Char} (h : IsNumber t) : Legal .byte (.literal t)
  | word {t : List Char} (h : IsNumber t) : Legal .word (.literal t)
  | index {t : List Char} (h : IsIndex t) : Legal .index (.literal t)
  | label {name : List Char} (h : IsName name) : Legal .label (.label name)
  | named {kind : OperandKind} {x : Choice} (hk : kind.isNamed = true) (hx : x ∈ kind.choices) :
      Legal kind (.choice x)

/-- An instruction of the 8085 with an argument that it takes. -/
def Instr.Legal (i : Instr) : Prop :=
  i.row ∈ Instruction.table ∧ i.argument.Legal i.row.kind

/-- The labels that a program defines, in lower case. -/
def Program.defined (p : Program) : List (List Char) :=
  (p.filterMap Statement.label).map fold

/-- Every label is a name, every instruction is legal, no label is defined twice (letter case
    apart) and every label that is used is defined. -/
structure Program.WellFormed (p : Program) : Prop where
  names : ∀ s ∈ p, ∀ n ∈ s.label, IsName n
  legal : ∀ s ∈ p, ∀ i ∈ s.instruction, i.Legal
  distinct : p.defined.Nodup
  targets : ∀ s ∈ p, ∀ i ∈ s.instruction, ∀ n, i.argument = .label n → fold n ∈ p.defined

/-! ## Reference encoding -/

/-- The number that a text is read as. -/
def numberOf (t : List Char) : Nat :=
  (Source.Literal.read (String.ofList t)).toOption.getD 0

/-- The restart number that a text is read as. -/
def indexOf (t : List Char) : Fin 8 :=
  (Source.Literal.readIndex (String.ofList t)).toOption.getD 0

namespace Instr

/-- The operand that is built into the opcode. -/
def choice (i : Instr) : Choice :=
  match i.row.kind, i.argument with
  | .index, .literal t => .index (indexOf t)
  | _, .choice x => x
  | _, _ => .absent

/-- The opcode, by the formula of the row. -/
def opcode (i : Instr) : Byte :=
  BitVec.ofInt 8 (i.row.opcodeFor i.choice)

/-- The bytes after the opcode, low byte first; `address` gives the addresses of labels. -/
def operandBytes (address : List Char → Word) (i : Instr) : List Byte :=
  match i.row.kind, i.argument with
  | .byte, .literal t => [BitVec.ofNat 8 (numberOf t)]
  | .word, .literal t =>
    [lowByte (BitVec.ofNat 16 (numberOf t)), highByte (BitVec.ofNat 16 (numberOf t))]
  | .label, .label n => [lowByte (address n), highByte (address n)]
  | _, _ => []

def bytes (address : List Char → Word) (i : Instr) : List Byte :=
  i.opcode :: i.operandBytes address

end Instr

namespace Statement

/-- How many bytes a statement adds to the code. -/
def size (s : Statement) : Nat :=
  s.instruction.elim 0 fun i => i.row.length

def bytes (address : List Char → Word) (s : Statement) : List Byte :=
  s.instruction.elim [] fun i => i.bytes address

end Statement

namespace Program

/-- Where the statements begin when the first of them begins at `offset`. -/
def offsetsFrom (offset : Nat) : Program → List Nat
  | [] => []
  | s :: p => offset :: offsetsFrom (offset + s.size) p

/-- The labels in lower case, each with the place where its statement begins. -/
def labelsFrom (offset : Nat) : Program → List (List Char × Nat)
  | [] => []
  | s :: p => s.label.toList.map (fun n => (fold n, offset)) ++ labelsFrom (offset + s.size) p

/-- The address of a label when the code starts at `origin`: addresses wrap at 65536. -/
def addressOf (origin : Int) (p : Program) (name : List Char) : Word :=
  BitVec.ofInt 16 ((((p.labelsFrom 0).lookup (fold name)).getD 0 : Nat) + origin)

/-- The reference encoding of a program. -/
def assembly (origin : Int) (p : Program) : Assembly where
  code := p.flatMap (Statement.bytes (p.addressOf origin))
  offsets := p.offsetsFrom 0
  symbols := (p.labelsFrom 0).map fun l => (String.ofList l.1, BitVec.ofInt 16 (l.2 + origin))

end Program

/-! ## Written forms -/

/-- A text spells a mnemonic: any letter case, any gap for each space. -/
inductive Spelled : List Char → List Char → Prop
  | nil : Spelled [] []
  | letter {c d : Char} {m s : List Char} (hd : d ≠ ' ') (hc : c.toLower = d)
      (h : Spelled m s) : Spelled (d :: m) (c :: s)
  | space {m g s : List Char} (hg : IsGap g) (hne : g ≠ []) (h : Spelled m s) :
      Spelled (' ' :: m) (g ++ s)

/-- How an argument is named in the source, if there is anything to name. -/
def Argument.text? : Argument → Option (List Char)
  | .absent => none
  | .choice x => x.name?.map String.toList
  | .literal t => some t
  | .label n => some n

/-- A text writes an instruction, from its first visible character to its last. A comma may stand
    between mnemonic and argument; after a mnemonic of one word a gap is enough. -/
inductive Instr.Written (i : Instr) : List Char → Prop
  | bare {m : List Char} (ha : i.argument.text? = none)
      (hm : Spelled i.row.mnemonic.toList m) : Written i m
  | comma {a m g k t : List Char} (ha : i.argument.text? = some a)
      (hm : Spelled i.row.mnemonic.toList m) (hg : IsGap g) (hk : IsGap k)
      (ht : fold t = fold a) : Written i (m ++ g ++ ',' :: (k ++ t))
  | gap {a m g t : List Char} (ha : i.argument.text? = some a)
      (hm : Spelled i.row.mnemonic.toList m) (hone : ' ' ∉ i.row.mnemonic.toList)
      (hg : IsGap g) (hne : g ≠ []) (ht : fold t = fold a) : Written i (m ++ g ++ t)

/-- The beginning of a line: nothing, or a label with its colon. -/
def LabelWritten : Option (List Char) → List Char → Prop
  | none, t => t = []
  | some n, t => ∃ g₁ m g₂, IsGap g₁ ∧ IsGap g₂ ∧ fold m = fold n ∧ t = g₁ ++ m ++ g₂ ++ [':']

/-- The middle of a line: an instruction between gaps, or only a gap. -/
def InstrWritten : Option Instr → List Char → Prop
  | none, t => IsGap t
  | some i, t => ∃ g₁ m g₂, IsGap g₁ ∧ IsGap g₂ ∧ i.Written m ∧ t = g₁ ++ m ++ g₂

/-- The end of a line: nothing, or a semicolon and any text without a line break. -/
def IsComment (t : List Char) : Prop :=
  t = [] ∨ ∃ r, t = ';' :: r ∧ ∀ c ∈ r, isLineBreak c = false

/-- A text without its line feed writes a statement. -/
def Statement.Written (s : Statement) (t : List Char) : Prop :=
  ∃ a b c, LabelWritten s.label a ∧ InstrWritten s.instruction b ∧ IsComment c ∧ t = a ++ b ++ c

/-- A text writes a program: every statement on a line of its own, ended by a line feed. -/
inductive Program.Written : Program → List Char → Prop
  | nil : Written [] []
  | cons {s : Statement} {p : Program} {t r : List Char} (hs : s.Written t)
      (hp : Written p r) : Written (s :: p) (t ++ '\n' :: r)

end Assembly

end Lab8085
