/-
  Lab8085.Proofs.Assembler.Canonical

  The text of a decoded instruction is source text for it.

  A number that is shown in hexadecimal is read back, whatever its first digit is, because
  the final `h` alone makes it hexadecimal.  An opcode with the bytes after it is a legal
  instruction (`Instr.ofEntry`); the text that the disassembler gives it is one of its
  written forms (`written_ofEntry`), and its bytes are the opcode and the bytes that it was
  decoded from (`bytes_ofEntry`).  Jumps and calls are apart: the address that they show is
  read as the name of a label.
-/
import Lab8085.Proofs.Assembler.Listing
import Lab8085.Proofs.Assembler.Numeral

namespace Lab8085.Source.Literal

open Text

/-! ## Hexadecimal numbers -/

theorem hexDigit?_hexDigit : ∀ n < 16, hexDigit? (hexDigit n).toLower = some n := by
  decide

theorem isNameChar_hexDigit : ∀ n < 16, isNameChar (hexDigit n) = true := by
  decide

/-- What holds of the sixteen digits holds of all that a number is shown with. -/
theorem forall_mem_lowHexDigits {p : Char → Prop} (h : ∀ n < 16, p (hexDigit n)) (k n : Nat) :
    ∀ c ∈ lowHexDigits k n, p c := by
  induction k generalizing n with
  | zero => simp [lowHexDigits]
  | succ k ih =>
      intro c hc
      rcases List.mem_append.1 hc with hc | hc
      · exact ih _ c hc
      · rw [List.mem_singleton.1 hc]
        exact h _ (Nat.mod_lt n (by decide))

theorem isNameChar_lowHexDigits (k n : Nat) : ∀ c ∈ lowHexDigits k n, isNameChar c = true :=
  forall_mem_lowHexDigits isNameChar_hexDigit k n

/-- Digits are read from the left. -/
theorem valueFrom_append (base : Nat) (digit? : Char → Option Nat) (acc : Nat) (s t : List Char) :
    valueFrom base digit? acc (s ++ t) =
      (valueFrom base digit? acc s).bind fun m => valueFrom base digit? m t := by
  induction s generalizing acc with
  | nil => rfl
  | cons c s ih =>
      rw [List.cons_append, valueFrom, valueFrom]
      cases digit? c with
      | none => rfl
      | some n => exact ih (base * acc + n)

/-- The digits of a number are read as that number, if they are enough. -/
theorem valueFrom_lowHexDigits {k n : Nat} (h : n < Nat.pow 16 k) :
    valueFrom 16 hexDigit? 0 ((lowHexDigits k n).map Char.toLower) = some n := by
  induction k generalizing n with
  | zero =>
      obtain rfl : n = 0 := by simpa using h
      rfl
  | succ k ih =>
      have hdiv : n / 16 < Nat.pow 16 k :=
        Nat.div_lt_of_lt_mul (by rwa [Nat.mul_comm])
      have hdigit := hexDigit?_hexDigit (n % 16) (Nat.mod_lt n (by decide))
      rw [lowHexDigits, List.map_append, valueFrom_append, ih hdiv, Option.bind_some,
        List.map_singleton, valueFrom, hdigit]
      exact congrArg some (Nat.div_add_mod n 16)

/-- A number with a final `h`, as it is shown. -/
def shownHex (k n : Nat) : List Char :=
  lowHexDigits k n ++ ['h']

theorem isNameChar_shownHex (k n : Nat) : ∀ c ∈ shownHex k n, isNameChar c = true := by
  intro c hc
  rcases List.mem_append.1 hc with hc | hc
  · exact isNameChar_lowHexDigits k n c hc
  · rw [List.mem_singleton.1 hc]
    decide

/-- What is shown of a number is read as the number. -/
theorem read_shownHex {k n : Nat} (hk : k ≠ 0) (hmax : k ≤ maxHexDigits) (h : n < Nat.pow 16 k) :
    read (String.ofList (shownHex k n)) = .ok n := by
  have hname := isNameChar_shownHex k n
  have hlower : lower (shownHex k n) = (lowHexDigits k n).map Char.toLower ++ ['h'] := by
    rw [lower_ascii fun c hc => isNameChar_lt (hname c hc), shownHex, List.map_append]
    rfl
  have hlength : ((lowHexDigits k n).map Char.toLower).length = k := by
    rw [List.length_map, length_lowHexDigits]
  have htext : lower (trim (String.ofList (shownHex k n)).toList) =
      (lowHexDigits k n).map Char.toLower ++ ['h'] := by
    rw [String.toList_ofList, trim_visible fun c hc => isBlank_of_isNameChar (hname c hc), hlower]
  have hback : (lower (trim (String.ofList (shownHex k n)).toList)).getLast? = some 'h' := by
    rw [htext, List.getLast?_concat]
  have hvalue : value? 16 hexDigit? ((lowHexDigits k n).map Char.toLower) = some n := by
    have hvalue := valueFrom_lowHexDigits h
    have hpos : 0 < ((lowHexDigits k n).map Char.toLower).length := by
      rw [hlength]
      exact Nat.pos_of_ne_zero hk
    obtain ⟨c, s, hs⟩ := List.exists_cons_of_length_pos hpos
    rw [hs] at hvalue ⊢
    exact hvalue
  rw [read_suffixed hback, htext, ofLower?, if_pos List.getLast?_concat, List.dropLast_concat,
    if_pos (hlength.trans_le hmax), hvalue]
  rfl

theorem read_hexByte (b : Byte) : read (String.ofList (hexByte b ++ ['h'])) = .ok b.toNat :=
  read_shownHex (by decide) (by decide) b.isLt

theorem read_hexWord (w : Word) : read (String.ofList (hexWord w ++ ['h'])) = .ok w.toNat :=
  read_shownHex (by decide) (by decide) w.isLt

/-- A restart number is read back. -/
theorem readIndex_toString : ∀ n : Fin 8, readIndex (toString n.val) = .ok n := by
  decide +kernel

end Lab8085.Source.Literal

namespace Lab8085.Assembly

open Text Source

/-! ## Canonical arguments -/

/-- Digits and the final `h` are the characters of a name. -/
theorem isName_shownHex {k n : Nat} : IsName (Literal.shownHex k n) :=
  ⟨by simp [Literal.shownHex], Literal.isNameChar_shownHex k n⟩

/-- The argument that a decoded instruction shows, by the kind of its operand, the operand that is
    built into its opcode and the bytes after it. -/
def Argument.canonical (kind : OperandKind) (c : Choice) (bs : List Byte) : Argument :=
  match kind, c, bs with
  | .none, _, _ => .absent
  | .byte, _, b :: _ => .literal (hexByte b ++ ['h'])
  | .word, _, low :: high :: _ => .literal (hexWord (joinBytes high low) ++ ['h'])
  | .label, _, low :: high :: _ => .label (hexWord (joinBytes high low) ++ ['h'])
  | .index, .index n, _ => .literal (toString n.val).toList
  | _, c, _ => .choice c

/-- The forms of that argument when no byte is missing: one for each way in which an operand is
    given. -/
inductive Argument.Canonical : OperandKind → Choice → List Byte → Argument → Prop
  | absent : Canonical .none .absent [] .absent
  | byte (b : Byte) : Canonical .byte .absent [b] (.literal (hexByte b ++ ['h']))
  | word (w : Word) :
      Canonical .word .absent [lowByte w, highByte w] (.literal (hexWord w ++ ['h']))
  | label (w : Word) :
      Canonical .label .absent [lowByte w, highByte w] (.label (hexWord w ++ ['h']))
  | index (n : Fin 8) : Canonical .index (.index n) [] (.literal (toString n.val).toList)
  | named {kind : OperandKind} {c : Choice} (hk : kind.isNamed = true) (hc : c ∈ kind.choices) :
      Canonical kind c [] (.choice c)

namespace Argument

variable {kind : OperandKind} {c : Choice} {bs : List Byte} {a : Argument}

theorem canonical_spec (hc : c ∈ kind.choices) (hlength : bs.length = kind.extraBytes) :
    Canonical kind c bs (canonical kind c bs) := by
  cases kind with
  | none =>
      obtain rfl := List.mem_singleton.1 hc
      obtain rfl := List.length_eq_zero_iff.1 hlength
      exact .absent
  | byte =>
      obtain rfl := List.mem_singleton.1 hc
      obtain ⟨b, rfl⟩ := List.length_eq_one_iff.1 hlength
      exact .byte b
  | word =>
      obtain rfl := List.mem_singleton.1 hc
      obtain ⟨low, high, rfl⟩ := List.length_eq_two.1 hlength
      simpa [canonical] using Canonical.word (joinBytes high low)
  | label =>
      obtain rfl := List.mem_singleton.1 hc
      obtain ⟨low, high, rfl⟩ := List.length_eq_two.1 hlength
      simpa [canonical] using Canonical.label (joinBytes high low)
  | index =>
      obtain ⟨n, -, rfl⟩ := List.mem_map.1 hc
      obtain rfl := List.length_eq_zero_iff.1 hlength
      exact .index n
  | register | place | pairOrSp | pairOrPsw | pairBD =>
      obtain rfl := List.length_eq_zero_iff.1 hlength
      exact .named rfl hc

/-- A canonical argument is one that an instruction of its kind takes. -/
theorem Canonical.legal (h : Canonical kind c bs a) : a.Legal kind := by
  cases h with
  | absent => exact .absent
  | byte b => exact .byte ⟨isName_shownHex.isBlank, _, Literal.read_hexByte b⟩
  | word w => exact .word ⟨isName_shownHex.isBlank, _, Literal.read_hexWord w⟩
  | label w => exact .label isName_shownHex
  | index n =>
      have hvisible : ∀ n : Fin 8, (toString n.val).toList.all (fun c => decide
          (isBlank c = false)) = true := by
        decide +kernel
      refine .index ⟨forall_mem_of_all (hvisible n), n, ?_⟩
      rw [String.ofList_toList]
      exact Literal.readIndex_toString n
  | named hk hc => exact .named hk hc

/-- It is written as the instruction is shown. -/
theorem Canonical.operandTexts? {d : Descriptor} (h : Canonical d.kind c bs a) (v : Int) :
    Operation.operandTexts? ⟨v, d, c⟩ (numbers bs) = some (a.text?.toList.map String.ofList) := by
  obtain ⟨mnemonic, code, kind, action, spacing⟩ := d
  cases h with
  | absent => rfl
  | byte b =>
      simp only [Operation.operandTexts?, numbers, List.map_cons, List.map_nil, hex_two_byte,
        text?, Option.toList_some, String.ofList_append]
  | word w | label w =>
      simp only [Operation.operandTexts?, numbers, List.map_cons, List.map_nil, joinBits_halves,
        hex_four_word, text?, Option.toList_some, String.ofList_append]
  | index n =>
      simp only [Operation.operandTexts?, text?, Choice.name?, Option.toList_some, List.map_cons,
        List.map_nil, String.ofList_toList]
  | named hk hc =>
      have hnames : c.name?.toList = (c.name?.map String.toList).toList.map String.ofList := by
        cases c.name? <;> simp
      replace hk : kind.isNamed = true := hk
      rw [text?, ← hnames]
      cases kind <;> first | exact absurd hk (by decide) | rfl

variable {d : Descriptor}

/-- The operand in the opcode is the one that was decoded. -/
theorem Canonical.choice_eq (h : Canonical d.kind c bs a) : Instr.choice ⟨d, a⟩ = c := by
  simp only [Instr.choice]
  generalize d.kind = kind at h
  cases h with
  | absent | byte b | word w | label w => rfl
  | index n =>
      simp only [indexOf, String.ofList_toList, Literal.readIndex_toString]
      rfl
  | named hk hc => cases kind <;> first | exact absurd hk (by decide) | rfl

/-- The bytes after the opcode are those that were decoded, when the operand is no target. -/
theorem Canonical.operandBytes_eq (h : Canonical d.kind c bs a) (hlabel : d.kind ≠ .label)
    (address : List Char → Word) : Instr.operandBytes address ⟨d, a⟩ = bs := by
  simp only [Instr.operandBytes]
  generalize d.kind = kind at h hlabel
  cases h with
  | absent | index n => rfl
  | byte b =>
      simp only [numberOf, Literal.read_hexByte, Except.toOption, Option.getD_some,
        BitVec.ofNat_toNat, BitVec.setWidth_eq]
  | word w =>
      simp only [numberOf, Literal.read_hexWord, Except.toOption, Option.getD_some,
        BitVec.ofNat_toNat, BitVec.setWidth_eq]
  | label w => exact absurd rfl hlabel
  | named hk hc => cases kind <;> first | exact absurd hk (by decide) | rfl

/-- The target of a jump or a call is given by the name of a label. -/
theorem Canonical.tail_eq (h : Canonical d.kind c bs a) (hlabel : d.kind = .label) :
    ∃ name, Instr.tail ⟨d, a⟩ = .target name := by
  simp only [Instr.tail]
  rw [hlabel] at h ⊢
  cases h with
  | label w => exact ⟨_, rfl⟩
  | named hk hc => exact absurd hk (by decide)

end Argument

/-! ## Upper case -/

/-- In upper case the words of a mnemonic are still its words; there are one or two. -/
theorem mnemonicWords_upper : ∀ d ∈ Instruction.table,
    joinWords (d.mnemonicWords.map String.toList) = d.mnemonic.toList.map Char.toUpper ∧
    d.mnemonicWords.length ≤ 2 ∧
    (d.mnemonicWords.length = 1 → ' ' ∉ d.mnemonic.toList) ∧
    (d.kind = .none → d.mnemonicWords.length = 1) ∧
    d.mnemonic.toList.all (fun c => decide (c.toUpper.toLower = c)) = true := by
  decide +kernel

/-- Upper case is a spelling. -/
theorem spelled_upper {m : List Char} (h : ∀ c ∈ m, c.toUpper.toLower = c) :
    Spelled m (m.map Char.toUpper) := by
  induction m with
  | nil => exact .nil
  | cons c m ih =>
      have ih := ih fun d hd => h d (List.mem_cons_of_mem c hd)
      by_cases hc : c = ' '
      · subst hc
        exact .space (g := [' ']) (by simp [IsGap]) (by decide) ih
      · exact .letter hc (h c List.mem_cons_self) ih

/-! ## Decoded instructions -/

/-- An opcode with the bytes after it, as an instruction of a source. -/
def Instr.ofEntry (e : Entry) (bs : List Byte) : Instr :=
  ⟨e.descriptor, .canonical e.descriptor.kind e.choice bs⟩

/-- An opcode that is found stands for a row of the table and an operand that the row has. -/
theorem entry_of_opcode? {v : Int} {e : Entry} (h : Catalog.standard.opcode? v = some e) :
    e.opcode = v ∧ e.descriptor ∈ Instruction.table ∧
      e.choice ∈ e.descriptor.kind.choices ∧ e.opcode = e.descriptor.opcodeFor e.choice := by
  have hv : e.opcode = v := by simpa using List.find?_some h
  obtain ⟨d, hd, he⟩ := List.mem_flatMap.1 (List.mem_of_find?_eq_some h)
  obtain ⟨x, hx, rfl⟩ := List.mem_map.1 he
  exact ⟨hv, hd, hx, rfl⟩

section Decoded

variable {b : Byte} {e : Entry} {bs : List Byte}
  (he : Catalog.standard.opcode? b.toNat = some e)
  (hlength : bs.length = e.descriptor.kind.extraBytes)

include he hlength

theorem canonical_ofEntry :
    Argument.Canonical e.descriptor.kind e.choice bs (Instr.ofEntry e bs).argument :=
  Argument.canonical_spec (entry_of_opcode? he).2.2.1 hlength

theorem legal_ofEntry : (Instr.ofEntry e bs).Legal :=
  ⟨(entry_of_opcode? he).2.1, (canonical_ofEntry he hlength).legal⟩

/-- Compiling a decoded instruction gives the bytes that it was decoded from. -/
theorem bytes_ofEntry (hlabel : e.descriptor.kind ≠ .label) (address : List Char → Word) :
    (Instr.ofEntry e bs).bytes address = b :: bs := by
  have hcanonical := canonical_ofEntry he hlength
  obtain ⟨hv, -, -, hopcode⟩ := entry_of_opcode? he
  have hchoice : (Instr.ofEntry e bs).choice = e.choice := hcanonical.choice_eq
  have hb : (Instr.ofEntry e bs).opcode = b := by
    rw [Instr.opcode, hchoice]
    change BitVec.ofInt 8 (e.descriptor.opcodeFor e.choice) = b
    rw [← hopcode, hv, BitVec.ofInt_natCast, BitVec.ofNat_toNat, BitVec.setWidth_eq]
  rw [Instr.bytes, hb]
  exact congrArg (b :: ·) (hcanonical.operandBytes_eq hlabel address)

/-- The text of a decoded instruction: the words of its mnemonic and its canonical argument. -/
theorem text_ofEntry : (Operation.ofBytes e bs).text = instructionText
    (e.descriptor.mnemonicWords ++
      (Instr.ofEntry e bs).argument.text?.toList.map String.ofList) :=
  text_ofBytes (mnemonicWords_table e.descriptor (entry_of_opcode? he).2.1)
    ((canonical_ofEntry he hlength).operandTexts? e.opcode)

/-- The text of a decoded instruction writes it: its mnemonic in upper case, a comma before the
    operand if the mnemonic has two words. -/
theorem written_ofEntry : (Instr.ofEntry e bs).Written (Operation.ofBytes e bs).text.toList := by
  obtain ⟨-, hd, -, -⟩ := entry_of_opcode? he
  have hcanonical := canonical_ofEntry he hlength
  obtain ⟨hjoin, htwo, hone, hnone, hlower⟩ := mnemonicWords_upper e.descriptor hd
  have hspelled : Spelled e.descriptor.mnemonic.toList
      (joinWords (e.descriptor.mnemonicWords.map String.toList)) := by
    rw [hjoin]
    exact spelled_upper (forall_mem_of_all hlower)
  rw [text_ofEntry he hlength]
  cases ha : (Instr.ofEntry e bs).argument.text? with
  | none =>
      have hkind := hcanonical.legal.kind_of_text?_none ha
      obtain ⟨w, hw⟩ := List.length_eq_one_iff.1 (hnone hkind)
      rw [hw] at hspelled ⊢
      exact .bare ha hspelled
  | some t =>
      rcases hwords : e.descriptor.mnemonicWords with - | ⟨w, - | ⟨v, - | ⟨u, ws⟩⟩⟩
      · exact absurd hwords (mnemonicWords_table e.descriptor hd)
      · rw [hwords] at hspelled hone
        have h := Instr.Written.gap ha hspelled (hone rfl) (g := [' ']) (by simp [IsGap])
          (by decide) (t := t) rfl
        simpa [instructionText, joinWords] using h
      · rw [hwords] at hspelled
        have h := Instr.Written.comma ha hspelled (g := []) (k := [' ']) (by simp [IsGap])
          (by simp [IsGap]) (t := t) rfl
        simpa [instructionText, joinWords] using h
      · rw [hwords] at htwo
        simp at htwo

end Decoded

end Lab8085.Assembly
