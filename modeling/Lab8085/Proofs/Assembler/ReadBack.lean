/-
  Lab8085.Proofs.Assembler.ReadBack

  Numbers that are printed are read back.

  Bytes and words are printed with all their digits and a final `h`, which makes them literals
  whatever their first digit is.  A row of a disassembly that prints a number ends in it
  (`Row.EndsIn`), and what is read there is the byte or the word that the row was decoded from:
  there is one case for each form of the canonical argument (`Row.Decoded.readsBack`).
-/
import Lab8085.Proofs.Assembler.Numeral
import Lab8085.Proofs.Assembler.Reassembly

namespace Lab8085

namespace Source.Literal

open Text

/-! ## Printed numbers -/

/-- The form in which numbers are printed: so many hexadecimal digits in upper case and an `h`. -/
def IsPrinted (k : Nat) (t : String) : Prop :=
  ∃ ds, t.toList = ds ++ ['h'] ∧ ds.length = k ∧ ∀ c ∈ ds, c ∈ "0123456789ABCDEF".toList

theorem hexDigit_mem : ∀ n < 16, hexDigit n ∈ "0123456789ABCDEF".toList := by
  decide

theorem isPrinted_shownHex (k n : Nat) : IsPrinted k (String.ofList (shownHex k n)) :=
  ⟨lowHexDigits k n, String.toList_ofList, length_lowHexDigits k n,
    forall_mem_lowHexDigits hexDigit_mem k n⟩

theorem readByte_hexByte (b : Byte) :
    readByte (String.ofList (hexByte b ++ ['h'])) = .ok b := by
  rw [readByte, read_hexByte, Except.map, BitVec.ofNat_toNat, BitVec.setWidth_eq]

theorem readWord_hexWord (w : Word) :
    readWord (String.ofList (hexWord w ++ ['h'])) = .ok w := by
  rw [readWord, read_hexWord, Except.map, BitVec.ofNat_toNat, BitVec.setWidth_eq]

end Source.Literal

/-! ## Rows -/

/-- In the text of an instruction a blank stands before its last operand. -/
theorem Assembly.instructionText_concat {ws : List String} (hws : ws ≠ []) (t : String) :
    ∃ front, instructionText (ws ++ [t]) = front ++ " " ++ t := by
  obtain ⟨w, ws, rfl⟩ := List.exists_cons_of_ne_nil hws
  cases ws with
  | nil =>
      refine ⟨w, ?_⟩
      show w ++ " " ++ ", ".intercalate [t] = w ++ " " ++ t
      rw [String.intercalate_singleton]
  | cons v ws =>
      have hjoin : ", ".intercalate (v :: ws ++ [t]) = ", ".intercalate (v :: ws) ++ ", " ++ t := by
        rw [String.intercalate_append_of_ne_nil (List.cons_ne_nil v ws) (List.cons_ne_nil t []),
          String.intercalate_singleton]
      refine ⟨w ++ " " ++ ", ".intercalate (v :: ws) ++ ",", ?_⟩
      show w ++ " " ++ ", ".intercalate (v :: ws ++ [t]) = _
      rw [hjoin]
      simp only [String.append_assoc]
      rfl

namespace Row

open Assembly Source

/-- The last word of the text of a row. -/
def EndsIn (r : Row) (t : String) : Prop :=
  ∃ front, r.text = front ++ " " ++ t

/-- What a row prints as a number is read as that number: a byte that is no opcode, the byte after
    an opcode, the word after an opcode, low byte first. Other rows print no such number. -/
inductive ReadsBack (r : Row) : Prop
  | data {b : Byte} {t : String} (h : r.content = .data b) (hend : r.EndsIn t)
      (hprinted : Literal.IsPrinted 2 t) (hread : Literal.readByte t = .ok b)
  | byte {opcode b : Byte} {e : Entry} {t : String} (h : r.Decoded opcode e [b])
      (hend : r.EndsIn t) (hprinted : Literal.IsPrinted 2 t) (hread : Literal.readByte t = .ok b)
  | word {opcode : Byte} {w : Word} {e : Entry} {t : String}
      (h : r.Decoded opcode e [lowByte w, highByte w]) (hend : r.EndsIn t)
      (hprinted : Literal.IsPrinted 4 t) (hread : Literal.readWord t = .ok w)
  | plain {opcode : Byte} {e : Entry} (h : r.Decoded opcode e [])
  | missing (h : r.content = .missing)

section Decoded

variable {r : Row} {opcode : Byte} {e : Entry} {bs : List Byte}

/-- The argument of an instruction ends its row. -/
theorem Decoded.endsIn (h : r.Decoded opcode e bs) {t : List Char}
    (ht : (Instr.ofEntry e bs).argument.text? = some t) : r.EndsIn (String.ofList t) := by
  have hwords := mnemonicWords_table e.descriptor (entry_of_opcode? h.entry).2.1
  have htext := text_ofEntry h.entry h.length
  rw [ht] at htext
  obtain ⟨front, hfront⟩ := instructionText_concat hwords (String.ofList t)
  refine ⟨front, ?_⟩
  simp only [Row.text, h.content]
  exact htext.trans hfront

/-- One case for each form of the canonical argument. -/
theorem Decoded.readsBack (h : r.Decoded opcode e bs) : r.ReadsBack := by
  have hcanonical := canonical_ofEntry h.entry h.length
  have hends (t : List Char) (ht : (Instr.ofEntry e bs).argument.text? = some t) :
      r.EndsIn (String.ofList t) := h.endsIn ht
  -- `h` keeps the entry, so its parts are made free for the cases to fix them
  generalize (Instr.ofEntry e bs).argument = a at hcanonical hends
  generalize e.descriptor.kind = kind at hcanonical
  generalize e.choice = c at hcanonical
  cases hcanonical with
  | absent | index n | named hk hc => exact .plain h
  | byte b =>
      exact .byte h (hends _ rfl) (Literal.isPrinted_shownHex 2 b.toNat)
        (Literal.readByte_hexByte b)
  | word w | label w =>
      exact .word h (hends _ rfl) (Literal.isPrinted_shownHex 4 w.toNat)
        (Literal.readWord_hexWord w)

end Decoded

theorem readsBack_data {r : Row} {b : Byte} (h : r.content = .data b) : r.ReadsBack := by
  refine .data h ⟨"DB", ?_⟩ (Literal.isPrinted_shownHex 2 b.toNat) (Literal.readByte_hexByte b)
  rw [Literal.shownHex, String.ofList_append]
  simp only [Row.text, h, Text.hexByte]
  rfl

/-- The rows of a disassembly read back. -/
theorem readsBack_of_mem {peek : Int → Option Byte} {start length : Int} {r : Row}
    (h : r ∈ Disassembly.rows peek start length) : r.ReadsBack := by
  rcases decoded_or_unknown (Disassembly.content_of_mem r h) with
    ⟨opcode, e, bs, hr⟩ | ⟨⟨b, hb⟩ | hmissing, -⟩
  · exact hr.readsBack
  · exact readsBack_data hb
  · exact .missing hmissing

end Row

/-! ## The grammar and the readers -/

namespace Source.Literal

open Text

/-- The grammar of numeric literals. A text is read as a number if it denotes one, once it is
    trimmed and in lower case, and is malformed otherwise; the number fits in a word. A byte is
    the remainder of the number, a word has its two halves, and both are refused as the number is.
    A restart number is a row of decimal digits with a value up to seven. A limit on the digits
    of decimal numbers makes no other difference. What a disassembly prints as a number is read
    back. -/
theorem literal_grammar :
    (∀ t : String,
      let s := trim t.toList
      let u := lower s
      -- a number is read exactly from a literal of it
      (∀ n, read t none = .ok n ↔ Denotes u n) ∧
      (∀ n, read t none = .ok n → n ≤ 0xFFFF) ∧
      (∀ e, read t none = .error e ↔ e = .malformedLiteral t ∧ ∀ n, ¬Denotes u n) ∧
      -- a byte and a word are read from the same texts
      (∀ b, readByte t none = .ok b ↔ ∃ n, Denotes u n ∧ b.toNat = n % 256) ∧
      (∀ w, readWord t none = .ok w ↔
        ∃ n, Denotes u n ∧ (lowByte w).toNat + 256 * (highByte w).toNat = n) ∧
      (∀ e, (readByte t none = .error e ↔ read t none = .error e) ∧
        (readWord t none = .error e ↔ read t none = .error e)) ∧
      -- a restart number, in whose text no letter case counts
      (∀ k : Fin 8, readIndex t none = .ok k ↔ Writes 10 s k) ∧
      (∀ e, readIndex t none = .error e ↔ e = .indexOutOfRange t ∧ ∀ k ≤ 7, ¬Writes 10 s k) ∧
      -- a limit refuses what is too long, whatever its value
      ∀ limit,
        (IsOverlong limit u → read t limit = .error (.tooManyDigits u.length)) ∧
        (¬IsOverlong limit u → read t limit = read t none) ∧
        (IsOverlong limit s → readIndex t limit = .error (.tooManyDigits s.length)) ∧
        (¬IsOverlong limit s → readIndex t limit = readIndex t none)) ∧
    ∀ (peek : Int → Option Byte) (start length : Int),
      ∀ r ∈ Disassembly.rows peek start length, r.ReadsBack := by
  refine ⟨fun t => ⟨fun n => read_none_eq_ok_iff, fun n h => (read_none_eq_ok_iff.1 h).le,
    fun e => read_none_eq_error_iff, fun b => readByte_none_eq_ok_iff,
    fun w => readWord_none_eq_ok_iff, fun e => ⟨map_eq_error_iff _, map_eq_error_iff _⟩,
    fun k => readIndex_none_eq_ok_iff, fun e => readIndex_none_eq_error_iff, fun limit => ?_⟩,
    fun _ _ _ _ hr => Row.readsBack_of_mem hr⟩
  obtain ⟨hlong, hfits⟩ := within_eq limit (lower (trim t.toList)) (read t none)
  obtain ⟨hlongIndex, hfitsIndex⟩ := within_eq limit (trim t.toList) (readIndex t none)
  rw [read_within t limit, readIndex_within t limit]
  exact ⟨hlong, hfits, hlongIndex, hfitsIndex⟩

/-- A number between blanks outside ASCII, in mixed case. -/
def spaced : String := "\u2003fF00H\u00A0"

/-- A memory that holds a jump and nothing else. -/
def jumping (address : Int) : Option Byte :=
  [0xC3, 0x34, 0x12][address.toNat]?

/-- Blanks and letter case do not count, leading zeros do for the limit, and the target of a jump is
    read back. -/
theorem literal_grammar_spaced :
    Denotes "ff00h".toList 0xFF00 ∧ read spaced none = .ok 0xFF00 ∧
      readByte spaced none = .ok 0x00 ∧ readWord spaced none = .ok 0xFF00 ∧
      ¬IsOverlong .standard "ff00h".toList ∧ read spaced .standard = .ok 0xFF00 ∧
      IsOverlong (some 3) "0007".toList ∧
      readIndex "0007" (some 3) = .error (.tooManyDigits 4) ∧
      Disassembly.rowAt jumping 0 ∈ Disassembly.rows jumping 0 1 ∧
      (Disassembly.rowAt jumping 0).ReadsBack := by
  obtain ⟨htexts, hrows⟩ := literal_grammar
  obtain ⟨hread, -, -, hbyte, hword, -, -, -, hlimit⟩ := htexts spaced
  obtain ⟨-, -, -, -, -, -, -, -, hindexLimit⟩ := htexts "0007"
  have hspaced : lower (trim spaced.toList) = "ff00h".toList := by decide +kernel
  have hdenotes : Denotes "ff00h".toList 0xFF00 :=
    .hexadecimal (s := "ff00".toList) ⟨nofun, forall_mem_of_all (by decide), rfl⟩ (by decide)
  have hfits : ¬IsOverlong .standard "ff00h".toList := fun h =>
    absurd (h.1 'h' (by decide)) (by decide)
  have hlong : IsOverlong (some 3) "0007".toList := ⟨forall_mem_of_all (by decide), rfl⟩
  have hmem : Disassembly.rowAt jumping 0 ∈ Disassembly.rows jumping 0 1 := by
    rw [Disassembly.rows_one (by decide)]
    exact List.mem_singleton_self _
  rw [hspaced] at hread hbyte hword hlimit
  have hnumber : read spaced none = .ok 0xFF00 := (hread _).2 hdenotes
  have hstandard := (hlimit .standard).2.1 hfits
  have hindex : trim "0007".toList = "0007".toList := by decide +kernel
  rw [hindex] at hindexLimit
  exact ⟨hdenotes, hnumber, (hbyte 0x00).2 ⟨_, hdenotes, rfl⟩,
    (hword 0xFF00).2 ⟨_, hdenotes, rfl⟩, hfits, hstandard.trans hnumber, hlong,
    (hindexLimit (some 3)).2.2.1 hlong, hmem, hrows _ _ _ _ hmem⟩

end Source.Literal

end Lab8085
