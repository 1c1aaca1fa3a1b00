/-
  Lab8085.Proofs.Assembler.Diagnosis

  Which fault of a source is reported.

  `Faulty` says what is wrong with a line, given the labels of the lines before it: its
  constructors exclude each other, so a line has one cause at most.  The assembler reports the
  first faulty line (`addLines_faulty`), whatever stands behind it.  Only when no line is faulty
  does it look for the targets, and reports the first that no line defines.

  The induction on the lines goes along with the names that the draft has collected.  The labels
  of a line are known from the line alone, so what the draft has collected can be told from the
  lines before.  Numbers are taken to be read whatever their length is.
-/
import Lab8085.Proofs.Assembler.Listing
import Lab8085.Proofs.Assembler.Numeral
import Mathlib.Data.Nat.Find

namespace Lab8085

/-! ## Acceptable operands -/

namespace Source.Literal

open Text

/-- The text of a number: at most four hexadecimal digits and an `h`, or decimal digits of a number
    up to 32767. -/
def IsNumeral (s : List Char) : Prop :=
  (∃ ds, s = ds ++ ['h'] ∧ ds ≠ [] ∧ ds.length ≤ 4 ∧ ∀ c ∈ ds, c ∈ "0123456789abcdef".toList) ∨
  (s ≠ [] ∧ (∀ c ∈ s, c ∈ "0123456789".toList) ∧ Nat.ofDigitChars 10 s 0 ≤ 32767)

/-- The text of a restart number. -/
def IsRestart (s : List Char) : Prop :=
  s ≠ [] ∧ (∀ c ∈ s, c ∈ "0123456789".toList) ∧ Nat.ofDigitChars 10 s 0 ≤ 7

/-- Decimal digits are read as the number that they write. -/
theorem valueFrom_decimal {s : List Char} {acc n : Nat}
    (h : valueFrom 10 decimalDigit? acc s = some n) : n = Nat.ofDigitChars 10 s acc := by
  induction s generalizing acc with
  | nil =>
      cases h
      rfl
  | cons c s ih =>
      rw [valueFrom] at h
      obtain ⟨k, hk, h⟩ := Option.bind_eq_some_iff.1 h
      have hdigit : k = c.toNat - '0'.toNat := by
        rw [decimalDigit?] at hk
        split at hk
        · exact (Option.some.inj hk).symm
        · cases hk
      rw [ih h, hdigit]
      rfl

/-- The number of decimal digits, computed from their code points. -/
theorem positional_decimal {s : List Char} (h : ∀ c ∈ s, c ∈ "0123456789".toList) :
    positional 10 s = Nat.ofDigitChars 10 s 0 := by
  have hvalue := valueFrom_decimal (readsDigits_decimal.valueFrom h 0)
  rwa [Nat.zero_mul, Nat.zero_add] at hvalue

/-- Numerals are the texts that denote a number. -/
theorem isNumeral_iff {s : List Char} : IsNumeral s ↔ ∃ n, Denotes s n := by
  constructor
  · rintro (⟨ds, rfl, hne, hlength, hdigits⟩ | ⟨hne, hdigits, hmax⟩)
    · exact ⟨_, .hexadecimal ⟨hne, hdigits, rfl⟩ hlength⟩
    · exact ⟨_, .decimal ⟨hne, hdigits, rfl⟩ ((positional_decimal hdigits).trans_le hmax)⟩
  · rintro ⟨n, h⟩
    cases h with
    | hexadecimal h hlength => exact .inl ⟨_, rfl, h.1, hlength, h.2.1⟩
    | decimal h hmax =>
        obtain ⟨hne, hdigits, rfl⟩ := h
        exact .inr ⟨hne, hdigits, (positional_decimal hdigits).symm.trans_le hmax⟩

theorem isRestart_iff {s : List Char} : IsRestart s ↔ ∃ k ≤ 7, Writes 10 s k := by
  constructor
  · rintro ⟨hne, hdigits, hmax⟩
    exact ⟨_, (positional_decimal hdigits).trans_le hmax, hne, hdigits, rfl⟩
  · rintro ⟨k, hmax, hne, hdigits, rfl⟩
    exact ⟨hne, hdigits, (positional_decimal hdigits).symm.trans_le hmax⟩

/-- A numeral is read. -/
theorem read_numeral {text : String} (h : IsNumeral (lower (trim text.toList))) :
    ∃ n, read text none = .ok n := by
  obtain ⟨n, hn⟩ := isNumeral_iff.1 h
  exact ⟨n, read_none_eq_ok_iff.2 hn⟩

/-- What is no numeral is malformed. -/
theorem read_malformed {text : String} (h : ¬IsNumeral (lower (trim text.toList))) :
    read text none = .error (.malformedLiteral text) :=
  read_none_eq_error_iff.2 ⟨rfl, fun n hn => h (isNumeral_iff.2 ⟨n, hn⟩)⟩

theorem readIndex_restart {text : String} (h : IsRestart (trim text.toList)) :
    ∃ n, readIndex text none = .ok n := by
  obtain ⟨k, hk, hwrites⟩ := isRestart_iff.1 h
  exact ⟨⟨k, Nat.lt_succ_of_le hk⟩, readIndex_none_eq_ok_iff.2 hwrites⟩

theorem readIndex_outOfRange {text : String} (h : ¬IsRestart (trim text.toList)) :
    readIndex text none = .error (.indexOutOfRange text) :=
  readIndex_none_eq_error_iff.2 ⟨rfl, fun k hk hwrites => h (isRestart_iff.2 ⟨k, hk, hwrites⟩)⟩

end Source.Literal

namespace Assembly

open Source

/-- An operand is acceptable for a kind: a number, a restart number, or the name in lower case of
    one of the choices. A target is any name. -/
def Accepts : OperandKind → String → Prop
  | .none, _ | .label, _ => True
  | .byte, t | .word, t => Literal.IsNumeral (Text.lower (Text.trim t.toList))
  | .index, t => Literal.IsRestart (Text.trim t.toList)
  | kind, t => ∃ x ∈ kind.choices, ∃ name, x.name? = some name ∧ fold name.toList = t.toList

/-- The complaint about an operand that is not acceptable. -/
def refusal : OperandKind → String → Source.Error
  | .index, t => .indexOutOfRange t
  | .register, t => .invalidRegister t (allowedNames .register)
  | .place, t => .invalidRegister t (allowedNames .place)
  | .pairOrSp, t => .invalidPair t (allowedNames .pairOrSp)
  | .pairOrPsw, t => .invalidPair t (allowedNames .pairOrPsw)
  | .pairBD, t => .invalidPair t (allowedNames .pairBD)
  | _, t => .malformedLiteral t

/-- The label that the operand of a row names. -/
def targetOf (d : Descriptor) (t : String) : Option String :=
  if d.kind = .label then some t else none

namespace Tail

def target? : Tail → Option String
  | .bytes _ => none
  | .target name => some name

end Tail

/-- The label that a piece waits for. -/
def Piece.target? (p : Piece) : Option String :=
  p.body.bind fun b => b.2.target?

/-- The names of the choices of a kind are found, and no others. -/
theorem choiceOf?_isSome {kind : OperandKind} {t : String} :
    (choiceOf? kind t).isSome = true ↔
      ∃ x ∈ kind.choices, ∃ name, x.name? = some name ∧ fold name.toList = t.toList := by
  simp only [choiceOf?, List.find?_isSome, Option.any_eq_true, beq_iff_eq]
  exact Iff.rfl

theorem accepts_named {kind : OperandKind} (hk : kind.isNamed = true) (t : String) :
    Accepts kind t ↔ (choiceOf? kind t).isSome = true := by
  cases kind <;> first | exact absurd hk (by decide) | exact choiceOf?_isSome.symm

/-- An operand that is named by a word is resolved or refused. -/
theorem encodeOperand_named {d : Descriptor} (hk : d.kind.isNamed = true) (t : String) :
    (Accepts d.kind t → ∃ c ∈ d.kind.choices,
      encodeOperand none d t = .ok ⟨d.opcodeFor c, .bytes []⟩) ∧
    (¬Accepts d.kind t → encodeOperand none d t = .error (refusal d.kind t)) := by
  have hresolve : encodeOperand none d t =
      resolve d.kind t >>= fun c => .ok ⟨d.opcodeFor c, .bytes []⟩ := by
    obtain ⟨mnemonic, code, kind, action, spacing⟩ := d
    replace hk : kind.isNamed = true := hk
    cases kind <;> first | exact absurd hk (by decide) | rfl
  have hrefuse : choiceOf? d.kind t = none → resolve d.kind t = .error (refusal d.kind t) := by
    intro hnone
    generalize d.kind = kind at hk hnone
    rw [resolve, hnone]
    cases kind <;> first | exact absurd hk (by decide) | rfl
  rw [hresolve, accepts_named hk]
  cases hc : choiceOf? d.kind t with
  | none =>
      rw [hrefuse hc]
      exact ⟨fun h => absurd h (by decide), fun _ => rfl⟩
  | some c =>
      refine ⟨fun _ => ⟨c, List.mem_of_find?_eq_some hc, ?_⟩, fun h => absurd rfl h⟩
      rw [resolve, hc]
      rfl

/-- An operand that is acceptable is encoded, and any other is refused. -/
theorem encodeOperand_spec (d : Descriptor) (t : String) :
    (Accepts d.kind t → ∃ c ∈ d.kind.choices, ∃ tail,
      encodeOperand none d t = .ok ⟨d.opcodeFor c, tail⟩ ∧ tail.target? = targetOf d t) ∧
    (¬Accepts d.kind t → encodeOperand none d t = .error (refusal d.kind t)) := by
  have hnamed (hk : d.kind.isNamed = true) := encodeOperand_named hk t
  obtain ⟨mnemonic, code, kind, action, spacing⟩ := d
  cases kind with
  | none =>
      exact ⟨fun _ => ⟨.absent, List.mem_singleton_self _, .bytes [], rfl, rfl⟩,
        fun h => absurd trivial h⟩
  | byte =>
      refine ⟨fun h => ?_, fun h => ?_⟩
      · obtain ⟨n, hn⟩ := Literal.read_numeral h
        refine ⟨.absent, List.mem_singleton_self _, .bytes [BitVec.ofNat 8 n], ?_, rfl⟩
        simp only [encodeOperand, Literal.readByte, hn]
        rfl
      · simp only [encodeOperand, Literal.readByte, Literal.read_malformed h]
        rfl
  | word =>
      refine ⟨fun h => ?_, fun h => ?_⟩
      · obtain ⟨n, hn⟩ := Literal.read_numeral h
        let w : Word := BitVec.ofNat 16 n
        refine ⟨.absent, List.mem_singleton_self _, .bytes [lowByte w, highByte w], ?_, rfl⟩
        simp only [encodeOperand, Literal.readWord, hn]
        rfl
      · simp only [encodeOperand, Literal.readWord, Literal.read_malformed h]
        rfl
  | label =>
      exact ⟨fun _ => ⟨.absent, List.mem_singleton_self _, .target t, rfl, rfl⟩,
        fun h => absurd trivial h⟩
  | index =>
      refine ⟨fun h => ?_, fun h => ?_⟩
      · obtain ⟨n, hn⟩ := Literal.readIndex_restart h
        refine ⟨.index n, List.mem_map_of_mem (List.mem_finRange n), .bytes [], ?_, rfl⟩
        simp only [encodeOperand, hn]
        rfl
      · simp only [encodeOperand, Literal.readIndex_outOfRange h]
        rfl
  | register | place | pairOrSp | pairOrPsw | pairBD =>
      obtain ⟨hok, herror⟩ := hnamed rfl
      refine ⟨fun h => ?_, herror⟩
      obtain ⟨c, hc, hencode⟩ := hok h
      exact ⟨c, hc, .bytes [], hencode, rfl⟩

/-! ## Faulty lines -/

/-- The label that a line defines. -/
def labelOf (l : List Char) : Option String :=
  match Line.parse l with
  | .ok line => line.label
  | .error _ => none

/-- The labels that lines define, in order. -/
def labelsOf (ls : List (List Char)) : List String :=
  ls.filterMap labelOf

/-- What is wrong with a line when the labels `earlier` are defined before it. A cause counts only
    if none of those before it does. -/
inductive Faulty (earlier : List String) (l : List Char) : Source.Error → Prop
  | emptyLabel (hparse : Line.parse l = .error .emptyLabel) : Faulty earlier l .emptyLabel
  | duplicateLabel {line : Line} {name : String} (hparse : Line.parse l = .ok line)
      (hname : line.label = some name) (hdefined : name ∈ earlier) :
      Faulty earlier l (.duplicateLabel name)
  | unknownMnemonic {line : Line} {m : String} (hparse : Line.parse l = .ok line)
      (hnew : ∀ name ∈ line.label, name ∉ earlier) (hm : line.mnemonic = some m)
      (hunknown : ∀ d ∈ Instruction.table, d.mnemonic ≠ m) :
      Faulty earlier l (.unknownMnemonic m)
  | operandCount {line : Line} {d : Descriptor} (hparse : Line.parse l = .ok line)
      (hnew : ∀ name ∈ line.label, name ∉ earlier) (hm : line.mnemonic = some d.mnemonic)
      (hd : d ∈ Instruction.table) (hcount : line.operands.length ≠ d.kind.operandCount) :
      Faulty earlier l (.operandCount d.kind.operandCount line.operands.length)
  | operand {line : Line} {d : Descriptor} {t : String} (hparse : Line.parse l = .ok line)
      (hnew : ∀ name ∈ line.label, name ∉ earlier) (hm : line.mnemonic = some d.mnemonic)
      (hd : d ∈ Instruction.table) (ht : line.operands = [t]) (hrefused : ¬Accepts d.kind t) :
      Faulty earlier l (refusal d.kind t)

/-- A line has an instruction whose operand names a label. -/
def Refers (l : List Char) (name : String) : Prop :=
  ∃ line, Line.parse l = .ok line ∧ ∃ d ∈ Instruction.table,
    line.mnemonic = some d.mnemonic ∧ d.kind = .label ∧ line.operands = [name]

/-- A line that cannot be parsed has an empty label. -/
theorem parse_error {l : List Char} {e : Source.Error} (h : Line.parse l = .error e) :
    e = .emptyLabel := by
  simp only [Line.parse, Line.ofLower] at h
  split at h
  · cases h
  · split at h
    · cases h
      rfl
    · cases h

theorem mnemonic?_none {m : String} (h : ∀ d ∈ Instruction.table, d.mnemonic ≠ m) :
    Catalog.standard.mnemonic? m = none :=
  List.find?_eq_none.2 fun d hd => by
    rw [beq_iff_eq]
    exact h d hd

namespace Draft

/-- The labels of a draft. -/
def names (d : Draft) : List String :=
  d.labels.map Prod.fst

theorem offset?_of_mem {d : Draft} {name : String} (h : name ∈ d.names) :
    ∃ offset, d.offset? name = some offset := by
  obtain ⟨p, hp, rfl⟩ := List.mem_map.1 h
  exact Option.isSome_iff_exists.1 (List.lookup_isSome_iff.2 ⟨p, hp, beq_self_eq_true p.1⟩)

theorem define_new {d : Draft} {label : Option String}
    (h : ∀ name ∈ label, name ∉ d.names) :
    ∃ d', d.define label = .ok d' ∧ d'.names = d.names ++ label.toList ∧
      d'.offset = d.offset ∧ d'.pieces = d.pieces := by
  cases label with
  | none => exact ⟨d, rfl, (List.append_nil _).symm, rfl, rfl⟩
  | some name =>
      refine ⟨{ d with labels := d.labels ++ [(name, d.offset)] }, ?_, List.map_append, rfl, rfl⟩
      rw [define, offset?_eq_none (h name rfl)]

theorem define_defined {d : Draft} {name : String} (h : name ∈ d.names) :
    d.define (some name) = .error (.duplicateLabel name) := by
  obtain ⟨offset, hoffset⟩ := offset?_of_mem h
  rw [define, hoffset]

end Draft

theorem encode_unknown {m : String} (h : ∀ d ∈ Instruction.table, d.mnemonic ≠ m)
    (xs : List String) : encode none Catalog.standard m xs = .error (.unknownMnemonic m) := by
  rw [encode, mnemonic?_none h]

theorem encode_miscounted {d : Descriptor} (hd : d ∈ Instruction.table) {xs : List String}
    (h : xs.length ≠ d.kind.operandCount) : encode none Catalog.standard d.mnemonic xs =
      .error (.operandCount d.kind.operandCount xs.length) := by
  simp only [encode, mnemonic?_table d hd, if_neg h]

theorem encode_counted {d : Descriptor} (hd : d ∈ Instruction.table) {xs : List String}
    (h : xs.length = d.kind.operandCount) : encode none Catalog.standard d.mnemonic xs =
      encodeOperand none d (xs.headD "") := by
  simp only [encode, mnemonic?_table d hd, if_pos h]

/-- A kind that can refuse an operand takes one. -/
theorem operandCount_of_refused {kind : OperandKind} {t : String} (h : ¬Accepts kind t) :
    kind.operandCount = 1 := by
  cases kind <;> first | exact absurd trivial h | rfl

theorem ofLine_refusal (number : Nat) (kind : OperandKind) (t : String) :
    AssemblyError.ofLine number (refusal kind t) = .atLine number (refusal kind t) := by
  cases kind <;> rfl

section Line

variable {limit : Number.DigitLimit} {catalog : Catalog} {number : Nat} {d d' : Draft}
  {l : List Char} {line : Line}

theorem addLine_of_parse_error {e : Source.Error} (hparse : Line.parse l = .error e) :
    addLine limit catalog number d l = .error (.ofLine number e) := by
  simp only [addLine, bind, Except.bind, hparse]

theorem addLine_of_define_error {e : Source.Error} (hparse : Line.parse l = .ok line)
    (hdefine : d.define line.label = .error e) :
    addLine limit catalog number d l = .error (.ofLine number e) := by
  simp only [addLine, bind, Except.bind, hparse, hdefine]

theorem addLine_of_no_mnemonic (hparse : Line.parse l = .ok line)
    (hdefine : d.define line.label = .ok d') (hm : line.mnemonic = none) :
    addLine limit catalog number d l = .ok (d'.push none) := by
  simp only [addLine, bind, Except.bind, pure, Except.pure, hparse, hdefine, hm]

theorem addLine_of_encode_error {m : String} {e : Source.Error} (hparse : Line.parse l = .ok line)
    (hdefine : d.define line.label = .ok d') (hm : line.mnemonic = some m)
    (he : encode limit catalog m line.operands = .error e) :
    addLine limit catalog number d l = .error (.ofLine number e) := by
  simp only [addLine, bind, Except.bind, hparse, hdefine, hm, he]

theorem addLine_of_encode {m : String} {e : Encoding} {opcode : Byte}
    (hparse : Line.parse l = .ok line) (hdefine : d.define line.label = .ok d')
    (hm : line.mnemonic = some m) (he : encode limit catalog m line.operands = .ok e)
    (hop : byteOf? e.opcode = some opcode) :
    addLine limit catalog number d l = .ok (d'.push (some (opcode, e.tail))) := by
  simp only [addLine, bind, Except.bind, pure, Except.pure, hparse, hdefine, hm, he, hop]

/-- A faulty line is refused, and its cause is reported. -/
theorem addLine_faulty {e : Source.Error} (h : Faulty d.names l e) (number : Nat) :
    addLine none Catalog.standard number d l = .error (.atLine number e) := by
  cases h with
  | emptyLabel hparse => exact addLine_of_parse_error hparse
  | duplicateLabel hparse hname hdefined =>
      refine addLine_of_define_error (e := .duplicateLabel _) hparse ?_
      rw [hname]
      exact Draft.define_defined hdefined
  | unknownMnemonic hparse hnew hm hunknown =>
      obtain ⟨d', hdefine, -⟩ := Draft.define_new hnew
      exact addLine_of_encode_error hparse hdefine hm (encode_unknown hunknown _)
  | operandCount hparse hnew hm hd hcount =>
      obtain ⟨d', hdefine, -⟩ := Draft.define_new hnew
      exact addLine_of_encode_error hparse hdefine hm (encode_miscounted hd hcount)
  | @operand line row t hparse hnew hm hd ht hrefused =>
      obtain ⟨d', hdefine, -⟩ := Draft.define_new hnew
      have hcount : line.operands.length = row.kind.operandCount := by
        rw [ht, operandCount_of_refused hrefused]
        rfl
      rw [← ofLine_refusal]
      refine addLine_of_encode_error hparse hdefine hm ?_
      rw [encode_counted hd hcount, ht]
      exact (encodeOperand_spec row t).2 hrefused

/-- Operands of the right number that are acceptable are encoded. A target is left open exactly if
    the row asks for one. -/
theorem encode_sound {row : Descriptor} (hrow : row ∈ Instruction.table) {xs : List String}
    (hcount : xs.length = row.kind.operandCount) (haccepts : ∀ t, xs = [t] → Accepts row.kind t) :
    ∃ e opcode, encode none Catalog.standard row.mnemonic xs = .ok e ∧
      byteOf? e.opcode = some opcode ∧
      ∀ name, e.tail.target? = some name ↔ row.kind = .label ∧ xs = [name] := by
  have hone : row.kind.operandCount = 1 → xs = [xs.headD ""] := by
    intro h
    obtain ⟨t, rfl⟩ := List.length_eq_one_iff.1 (hcount.trans h)
    rfl
  have haccepted : Accepts row.kind (xs.headD "") := by
    by_contra hrefused
    exact hrefused (haccepts _ (hone (operandCount_of_refused hrefused)))
  obtain ⟨c, hc, tail, hencode, htarget⟩ := (encodeOperand_spec row (xs.headD "")).1 haccepted
  refine ⟨_, _, (encode_counted hrow hcount).trans hencode, byteOf?_table row hrow c hc,
    fun name => ?_⟩
  rw [htarget, targetOf]
  by_cases hk : row.kind = .label
  · have hxs := hone (by rw [hk]; rfl)
    rw [if_pos hk, Option.some_inj]
    constructor
    · rintro rfl
      exact ⟨hk, hxs⟩
    · rintro ⟨-, rfl⟩
      rfl
  · rw [if_neg hk]
    exact iff_of_false nofun fun h => hk h.1

/-- A piece waits for a label exactly if its line refers to it. -/
def Matches (l : List Char) (p : Piece) : Prop :=
  ∀ name, Refers l name ↔ p.target? = some name

/-- Any other line is accepted. It adds its label and its piece. -/
theorem addLine_sound (h : ∀ e, ¬Faulty d.names l e) (number : Nat) :
    ∃ d' p, addLine none Catalog.standard number d l = .ok d' ∧
      d'.names = d.names ++ (labelOf l).toList ∧ d'.pieces = p :: d.pieces ∧ Matches l p := by
  cases hparse : Line.parse l with
  | error e =>
      obtain rfl := parse_error hparse
      exact absurd (.emptyLabel hparse) (h _)
  | ok line =>
      have hlabel : labelOf l = line.label := by rw [labelOf, hparse]
      have hnew : ∀ name ∈ line.label, name ∉ d.names := fun name hname hdefined =>
        h _ (.duplicateLabel hparse hname hdefined)
      obtain ⟨d', hdefine, hnames, -, hpieces⟩ := Draft.define_new hnew
      rw [hlabel, ← hpieces, ← hnames]
      cases hm : line.mnemonic with
      | none =>
          refine ⟨_, _, addLine_of_no_mnemonic hparse hdefine hm, rfl, rfl, fun name => ?_⟩
          refine iff_of_false ?_ nofun
          rintro ⟨line', hparse', row, -, hm', -⟩
          cases hparse.symm.trans hparse'
          cases hm.symm.trans hm'
      | some m =>
          obtain ⟨row, hrow, rfl⟩ : ∃ row ∈ Instruction.table, row.mnemonic = m := by
            by_contra hunknown
            exact h _ (.unknownMnemonic hparse hnew hm fun row hrow he => hunknown ⟨row, hrow, he⟩)
          have hcount : line.operands.length = row.kind.operandCount := by
            by_contra hcount
            exact h _ (.operandCount hparse hnew hm hrow hcount)
          obtain ⟨e, opcode, he, hop, htarget⟩ := encode_sound hrow hcount fun t ht => by
            by_contra hrefused
            exact h _ (.operand hparse hnew hm hrow ht hrefused)
          refine ⟨_, _, addLine_of_encode hparse hdefine hm he hop, rfl, rfl, fun name => ?_⟩
          show _ ↔ e.tail.target? = some name
          rw [htarget]
          constructor
          · rintro ⟨line', hparse', row', hrow', hm', hk, ht⟩
            cases hparse.symm.trans hparse'
            -- a mnemonic has one row
            have hsame : row' = row := by
              have hrows := mnemonic?_table row' hrow'
              rw [← Option.some.inj (hm.symm.trans hm'), mnemonic?_table row hrow] at hrows
              exact (Option.some.inj hrows).symm
            rw [← hsame]
            exact ⟨hk, ht⟩
          · rintro ⟨hk, ht⟩
            exact ⟨line, hparse, row, hrow, hm, hk, ht⟩

end Line

/-! ## Lines one after the other -/

/-- The line numbered `i` of some lines is faulty when the labels `earlier` are defined before
    them. -/
def FaultyAt (earlier : List String) (ls : List (List Char)) (i : Nat) (e : Source.Error) : Prop :=
  ∃ l, ls[i]? = some l ∧ Faulty (earlier ++ labelsOf (ls.take i)) l e

theorem faultyAt_zero {earlier : List String} {l : List Char} {ls : List (List Char)}
    {e : Source.Error} : FaultyAt earlier (l :: ls) 0 e ↔ Faulty earlier l e := by
  rw [FaultyAt, List.take_zero, labelsOf, List.filterMap_nil, List.append_nil]
  exact ⟨fun ⟨_, hl, h⟩ => Option.some.inj hl ▸ h, fun h => ⟨l, rfl, h⟩⟩

theorem faultyAt_succ {earlier : List String} {l : List Char} {ls : List (List Char)} {i : Nat}
    {e : Source.Error} : FaultyAt earlier (l :: ls) (i + 1) e ↔
      FaultyAt (earlier ++ (labelOf l).toList) ls i e := by
  have hlabels : labelsOf ((l :: ls).take (i + 1)) =
      (labelOf l).toList ++ labelsOf (ls.take i) := by
    rw [List.take_succ_cons, labelsOf, List.filterMap_cons]
    cases labelOf l <;> rfl
  rw [FaultyAt, FaultyAt, hlabels, List.append_assoc, List.getElem?_cons_succ]

/-- The lines are refused for the first of them that is faulty, whatever follows it. -/
theorem addLines_faulty {ls : List (List Char)} {d : Draft} {i : Nat} {e : Source.Error}
    (h : FaultyAt d.names ls i e) (hfirst : ∀ j < i, ∀ e', ¬FaultyAt d.names ls j e')
    (number : Nat) :
    addLines none Catalog.standard number d ls = .error (.atLine (number + i) e) := by
  induction ls generalizing d i number with
  | nil =>
      obtain ⟨l, hl, -⟩ := h
      cases hl
  | cons l ls ih =>
      cases i with
      | zero =>
          rw [addLines, addLine_faulty (faultyAt_zero.1 h)]
          rfl
      | succ i =>
          have hsound : ∀ e', ¬Faulty d.names l e' := fun e' he =>
            hfirst 0 (Nat.succ_pos i) e' (faultyAt_zero.2 he)
          obtain ⟨d', p, hline, hnames, -, -⟩ := addLine_sound hsound number
          rw [addLines, hline, Nat.add_comm i 1, ← Nat.add_assoc]
          refine ih ?_ ?_ (number + 1)
          · rw [hnames]
            exact faultyAt_succ.1 h
          · intro j hj e' he
            rw [hnames] at he
            exact hfirst (j + 1) (Nat.succ_lt_succ hj) e' (faultyAt_succ.2 he)

/-- Lines without a fault are accepted, with a piece for each. -/
theorem addLines_sound {ls : List (List Char)} {d : Draft}
    (h : ∀ i e, ¬FaultyAt d.names ls i e) (number : Nat) :
    ∃ d' ps, addLines none Catalog.standard number d ls = .ok d' ∧
      d'.names = d.names ++ labelsOf ls ∧ d'.pieces = ps.reverse ++ d.pieces ∧
      List.Forall₂ Matches ls ps := by
  induction ls generalizing d number with
  | nil => exact ⟨d, [], rfl, (List.append_nil _).symm, rfl, .nil⟩
  | cons l ls ih =>
      obtain ⟨d₁, p, hline, hnames, hpieces, hmatches⟩ :=
        addLine_sound (fun e he => h 0 e (faultyAt_zero.2 he)) number
      obtain ⟨d', ps, hlines, hnames', hpieces', hmatches'⟩ := ih (d := d₁) (fun i e he => by
        rw [hnames] at he
        exact h (i + 1) e (faultyAt_succ.2 he)) (number + 1)
      refine ⟨d', p :: ps, ?_, ?_, ?_, .cons hmatches hmatches'⟩
      · rw [addLines, hline]
        exact hlines
      · rw [hnames', hnames, labelsOf, labelsOf, List.filterMap_cons, List.append_assoc]
        cases labelOf l <;> rfl
      · rw [hpieces', hpieces, List.reverse_cons, List.append_assoc]
        rfl

/-! ## Targets -/

section Targets

variable {d : Draft} {p : Piece}

theorem linkPiece_undefined {name : String} (hp : p.target? = some name) (hname : name ∉ d.names)
    (origin : Int) (number : Nat) :
    linkPiece origin d number p = .error (.atLine number (.undefinedLabel name)) := by
  obtain ⟨offset, body⟩ := p
  obtain ⟨⟨opcode, tail⟩, rfl, htail⟩ := Option.bind_eq_some_iff.1 hp
  cases tail with
  | bytes bs => cases htail
  | target label =>
      cases htail
      simp only [linkPiece, offset?_eq_none hname]

theorem linkPiece_defined (hp : ∀ name, p.target? = some name → name ∈ d.names)
    (origin : Int) (number : Nat) : ∃ bs, linkPiece origin d number p = .ok bs := by
  obtain ⟨offset, body⟩ := p
  rcases body with - | ⟨opcode, bs | name⟩
  · exact ⟨[], rfl⟩
  · exact ⟨opcode :: bs, rfl⟩
  · obtain ⟨o, ho⟩ := Draft.offset?_of_mem (hp name rfl)
    refine ⟨[opcode, lowByte (place origin o), highByte (place origin o)], ?_⟩
    simp only [linkPiece, ho]

/-- Line `i` of some lines refers to a label. -/
def RefersAt (ls : List (List Char)) (i : Nat) (name : String) : Prop :=
  ∃ l, ls[i]? = some l ∧ Refers l name

theorem refersAt_zero {l : List Char} {ls : List (List Char)} {name : String} :
    RefersAt (l :: ls) 0 name ↔ Refers l name :=
  ⟨fun ⟨_, hl, h⟩ => Option.some.inj hl ▸ h, fun h => ⟨l, rfl, h⟩⟩

theorem refersAt_succ {l : List Char} {ls : List (List Char)} {i : Nat} {name : String} :
    RefersAt (l :: ls) (i + 1) name ↔ RefersAt ls i name := by
  rw [RefersAt, RefersAt, List.getElem?_cons_succ]

/-- The first target that is not defined is reported. -/
theorem linkPieces_undefined {ls : List (List Char)} {ps : List Piece} {i : Nat} {name : String}
    (h : List.Forall₂ Matches ls ps) (hname : RefersAt ls i name) (hmissing : name ∉ d.names)
    (hfirst : ∀ j < i, ∀ n, RefersAt ls j n → n ∈ d.names) (origin : Int) (number : Nat) :
    linkPieces origin d number ps = .error (.atLine (number + i) (.undefinedLabel name)) := by
  induction h generalizing i number with
  | nil =>
      obtain ⟨l, hl, -⟩ := hname
      cases hl
  | @cons l p ls ps hmatches _ ih =>
      cases i with
      | zero =>
          rw [linkPieces, linkPiece_undefined ((hmatches name).1 (refersAt_zero.1 hname)) hmissing]
          rfl
      | succ i =>
          obtain ⟨bs, hbs⟩ := linkPiece_defined (fun n hn =>
            hfirst 0 (Nat.succ_pos i) n (refersAt_zero.2 ((hmatches n).2 hn))) origin number
          have hrest := ih (refersAt_succ.1 hname) (fun j hj n hn =>
            hfirst (j + 1) (Nat.succ_lt_succ hj) n (refersAt_succ.2 hn)) (number + 1)
          rw [linkPieces, hbs, Nat.add_comm i 1, ← Nat.add_assoc]
          simp only [bind, Except.bind, hrest]

theorem linkPieces_defined {ls : List (List Char)} {ps : List Piece}
    (h : List.Forall₂ Matches ls ps) (hdefined : ∀ i name, RefersAt ls i name → name ∈ d.names)
    (origin : Int) (number : Nat) : ∃ code, linkPieces origin d number ps = .ok code := by
  induction h generalizing number with
  | nil => exact ⟨[], rfl⟩
  | @cons l p ls ps hmatches _ ih =>
      obtain ⟨bs, hbs⟩ := linkPiece_defined (fun n hn =>
        hdefined 0 n (refersAt_zero.2 ((hmatches n).2 hn))) origin number
      obtain ⟨code, hcode⟩ := ih (fun i n hn => hdefined (i + 1) n (refersAt_succ.2 hn)) (number + 1)
      refine ⟨bs ++ code, ?_⟩
      rw [linkPieces, hbs]
      simp only [bind, Except.bind, hcode]
      rfl

end Targets

/-! ## Sources -/

/-- The first faulty line, and its cause. -/
structure FirstFault (ls : List (List Char)) (i : Nat) (e : Source.Error) : Prop where
  faulty : FaultyAt [] ls i e
  first : ∀ j < i, ∀ e', ¬FaultyAt [] ls j e'

/-- The first line that refers to a label which no line defines. -/
structure FirstUndefined (ls : List (List Char)) (i : Nat) (name : String) : Prop where
  refers : RefersAt ls i name
  missing : name ∉ labelsOf ls
  first : ∀ j < i, ∀ n, RefersAt ls j n → n ∈ labelsOf ls

/-- Whether a line is faulty does not depend on the lines after it. -/
theorem faultyAt_congr {ls ls' : List (List Char)} {i j : Nat} (hj : j ≤ i)
    (h : ls'.take (i + 1) = ls.take (i + 1)) (earlier : List String) (e : Source.Error) :
    FaultyAt earlier ls' j e ↔ FaultyAt earlier ls j e := by
  have hline : ls'[j]? = ls[j]? := by
    rw [← List.getElem?_take_of_lt (Nat.lt_succ_of_le hj), h,
      List.getElem?_take_of_lt (Nat.lt_succ_of_le hj)]
  have hbefore : ls'.take j = ls.take j := by
    have hmin : min j (i + 1) = j := by omega
    rw [← hmin, ← List.take_take, h, List.take_take]
  rw [FaultyAt, FaultyAt, hline, hbefore]

theorem compile_firstFault {source : String} {i : Nat} {e : Source.Error}
    (h : FirstFault (Text.lines source.toList) i e) (origin : Int) :
    compile source origin none = .error (.atLine i e) := by
  have hlines := addLines_faulty (d := {}) h.faulty h.first 0
  rw [Nat.zero_add] at hlines
  rw [compile, compileWith, draft, hlines]
  rfl

/-- The draft of a source without a fault. -/
theorem draft_sound {source : String}
    (h : ∀ i e, ¬FaultyAt [] (Text.lines source.toList) i e) :
    ∃ d, draft none Catalog.standard source = .ok d ∧
      d.names = labelsOf (Text.lines source.toList) ∧
      List.Forall₂ Matches (Text.lines source.toList) d.pieces.reverse := by
  obtain ⟨d, ps, hd, hnames, hpieces, hmatches⟩ := addLines_sound (d := {}) h 0
  refine ⟨d, hd, hnames, ?_⟩
  rwa [hpieces, List.append_nil, List.reverse_reverse]

theorem compile_of_draft {source : String} {d : Draft}
    (hd : draft none Catalog.standard source = .ok d) (origin : Int) :
    compile source origin none = link origin d := by
  rw [compile, compileWith, hd]
  rfl

theorem compile_firstUndefined {source : String} {i : Nat} {name : String}
    (hsound : ∀ i e, ¬FaultyAt [] (Text.lines source.toList) i e)
    (h : FirstUndefined (Text.lines source.toList) i name) (origin : Int) :
    compile source origin none = .error (.atLine i (.undefinedLabel name)) := by
  obtain ⟨d, hd, hnames, hmatches⟩ := draft_sound hsound
  have hlink := linkPieces_undefined hmatches h.refers (hnames ▸ h.missing)
    (hnames ▸ h.first) origin 0
  rw [Nat.zero_add] at hlink
  rw [compile_of_draft hd, link]
  simp only [hlink]
  rfl

theorem compile_sound {source : String}
    (hsound : ∀ i e, ¬FaultyAt [] (Text.lines source.toList) i e)
    (hdefined : ∀ i name, RefersAt (Text.lines source.toList) i name →
      name ∈ labelsOf (Text.lines source.toList)) (origin : Int) :
    ∃ a, compile source origin none = .ok a := by
  obtain ⟨d, hd, hnames, hmatches⟩ := draft_sound hsound
  obtain ⟨code, hcode⟩ := linkPieces_defined hmatches (hnames ▸ hdefined) origin 0
  rw [compile_of_draft hd, link]
  simp only [hcode]
  exact ⟨_, rfl⟩

/-- If something is so of a number, it is so of a least one. -/
theorem exists_least {p : Nat → Prop} (h : ∃ i, p i) : ∃ i, p i ∧ ∀ j < i, ¬p j := by
  classical exact ⟨Nat.find h, Nat.find_spec h, fun j hj => Nat.find_min h hj⟩

/-- Which fault of a source is reported. If a line is faulty, it is the first such line and its
    cause, and no line after it plays a part. If none is but a label is missing, it is the first
    line that refers to one. Otherwise the source assembles. -/
theorem compile_diagnosis (source : String) (origin : Int) :
    let ls := Text.lines source.toList
    (∀ i e, FirstFault ls i e → ∀ (other : String) (origin' : Int),
      (Text.lines other.toList).take (i + 1) = ls.take (i + 1) →
        compile other origin' none = .error (.atLine i e)) ∧
    ((∀ i e, ¬FaultyAt [] ls i e) →
      (∀ i name, FirstUndefined ls i name →
        compile source origin none = .error (.atLine i (.undefinedLabel name))) ∧
      ((∀ i name, RefersAt ls i name → name ∈ labelsOf ls) →
        ∃ a, compile source origin none = .ok a)) ∧
    ((∃ a, compile source origin none = .ok a) ∨
      ∃ i e, compile source origin none = .error (.atLine i e) ∧
        (FirstFault ls i e ∨
          (∀ j e', ¬FaultyAt [] ls j e') ∧ ∃ name, e = .undefinedLabel name ∧
            FirstUndefined ls i name)) := by
  intro ls
  refine ⟨fun i e h other origin' hsame => ?_, fun hsound => ⟨fun i name h =>
    compile_firstUndefined hsound h origin, fun hdefined => compile_sound hsound hdefined origin⟩,
    ?_⟩
  · refine compile_firstFault ⟨?_, fun j hj e' => ?_⟩ origin'
    · rw [faultyAt_congr le_rfl hsame]
      exact h.faulty
    · rw [faultyAt_congr hj.le hsame]
      exact h.first j hj e'
  · -- the first fault, or else the first undefined label, or else neither
    by_cases hfault : ∃ i e, FaultyAt [] ls i e
    · obtain ⟨i, ⟨e, he⟩, hfirst⟩ := exists_least hfault
      have h : FirstFault ls i e := ⟨he, fun j hj e' he' => hfirst j hj ⟨e', he'⟩⟩
      exact .inr ⟨i, e, compile_firstFault h origin, .inl h⟩
    have hsound : ∀ i e, ¬FaultyAt [] ls i e := fun i e he => hfault ⟨i, e, he⟩
    by_cases hmissing : ∃ i name, RefersAt ls i name ∧ name ∉ labelsOf ls
    · obtain ⟨i, ⟨name, hrefers, hname⟩, hfirst⟩ := exists_least hmissing
      have h : FirstUndefined ls i name := ⟨hrefers, hname, fun j hj n hn => by
        by_contra hundefined
        exact hfirst j hj ⟨n, hn, hundefined⟩⟩
      exact .inr ⟨i, _, compile_firstUndefined hsound h origin, .inr ⟨hsound, name, rfl, h⟩⟩
    · refine .inl (compile_sound hsound (fun i name hname => ?_) origin)
      by_contra hundefined
      exact hmissing ⟨i, name, hname, hundefined⟩

/-- A faulty line comes before an undefined label, though it stands behind the reference. -/
example : compile "jmp away\nmvi a, 300\nadd x\n:" 0 none =
    .error (.atLine 2 (.invalidRegister "x" ["B", "C", "D", "E", "H", "L", "A", "M"])) := by
  decide +kernel

end Assembly

end Lab8085
