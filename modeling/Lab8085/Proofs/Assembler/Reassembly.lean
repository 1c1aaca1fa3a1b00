/-
  Lab8085.Proofs.Assembler.Reassembly

  A disassembly, one row a line, is a source.

  The rows are read as a program without labels (`Row.statement`).  A row with an instruction
  writes its statement, a data byte and a gap in memory write mnemonics that do not exist,
  and a jump or a call names a label that nothing defines.  What is left compiles to the
  bytes of the rows: the induction is on the walk of the disassembler, and the sizes of the
  statements are the lengths of the rows, so that offsets and addresses advance together.
-/
import Lab8085.Given
import Lab8085.Proofs.Assembler.Canonical
import Lab8085.Proofs.Assembler.RoundTrip
import Lab8085.Proofs.Disassembly

namespace Lab8085

/-! ## Listings as sources -/

/-- A jump or a call, whose target is the name of a label in a source. -/
def Action.isBranch : Action → Bool
  | .jump _ | .call _ => true
  | _ => false

/-- The rows that show a jump or a call. -/
def Row.isBranch (r : Row) : Bool :=
  match r.content with
  | .instruction _ o =>
    (Catalog.standard.opcode? o.opcode).any fun e => e.descriptor.action.isBranch
  | _ => false

/-- The text of a disassembly, one row a line. -/
def Disassembly.listing (rows : List Row) : String :=
  "\n".intercalate (rows.map Row.text)

namespace Text

/-- A text without a break is its only line. -/
theorem lines_of_not_break {s : List Char} (hne : s ≠ [])
    (h : ∀ c ∈ s, isLineBreak c = false) : lines s = [s] := by
  induction s with
  | nil => exact absurd rfl hne
  | cons c s ih =>
      rw [lines_cons_of_not_break (h c List.mem_cons_self)]
      cases s with
      | nil => rfl
      | cons d s =>
          rw [ih (by simp) fun e he => h e (List.mem_cons_of_mem c he)]
          rfl

/-- The lines of texts with line feeds between them are the texts, unless one of them is empty or
    has a break of its own. -/
theorem lines_intercalate {ts : List (List Char)}
    (h : ∀ t ∈ ts, t ≠ [] ∧ ∀ c ∈ t, isLineBreak c = false) :
    lines (['\n'].intercalate ts) = ts := by
  induction ts with
  | nil => rfl
  | cons t ts ih =>
      obtain ⟨hne, hbreak⟩ := h t List.mem_cons_self
      have ih := ih fun u hu => h u (List.mem_cons_of_mem t hu)
      cases ts with
      | nil =>
          rw [List.intercalate_singleton, lines_of_not_break hne hbreak]
      | cons u us =>
          rw [List.intercalate_cons_cons, List.append_assoc, List.singleton_append,
            lines_append_lineFeed hbreak, ih]

/-- So are the lines of texts that are each ended by a line feed. -/
theorem lines_flatMap {ts : List (List Char)} (h : ∀ t ∈ ts, ∀ c ∈ t, isLineBreak c = false) :
    lines (ts.flatMap fun t => t ++ ['\n']) = ts := by
  induction ts with
  | nil => rfl
  | cons t ts ih =>
      rw [List.flatMap_cons, List.append_assoc, List.singleton_append,
        lines_append_lineFeed (h t List.mem_cons_self),
        ih fun u hu => h u (List.mem_cons_of_mem t hu)]

end Text

namespace Assembly

open Text Source

/-! ## Lines of an accepted source -/

/-- Every line of an accepted source is parsed, encoded and linked. -/
theorem Coded.mem {symbols : List (String × Word)} {offset : Nat} {ls : List (List Char)}
    {offsets : List Nat} {code : List Byte} (h : Coded symbols offset ls offsets code)
    {l : List Char} (hl : l ∈ ls) :
    ∃ line body bs, Line.parse l = .ok line ∧ Body line body ∧ LinkedPiece symbols body bs := by
  induction h with
  | nil => exact absurd hl List.not_mem_nil
  | cons hparse hbody hbytes _ ih =>
      rcases List.mem_cons.1 hl with rfl | hl
      · exact ⟨_, _, _, hparse, hbody, hbytes⟩
      · exact ih hl

/-- A line whose words are separated by spaces alone. -/
theorem parse_of_words {s w : List Char} {ws : List (List Char)}
    (hs : ∀ c ∈ s, isNameChar c = true ∨ c = ' ') (hw : words (fold s) = w :: ws) :
    Line.parse s = .ok ⟨none, some (String.ofList w), ws.map String.ofList⟩ := by
  have hinstr : ∀ c ∈ s, IsInstrChar c := fun c hc => (hs c hc).imp_right Or.inl
  have hcolon : ':' ∉ fold s := by
    intro hmem
    obtain ⟨c, hc, he⟩ := List.mem_map.1 hmem
    exact (hinstr c hc).toLower_ne_colon he
  have hcomma : ',' ∉ fold s := by
    intro hmem
    obtain ⟨c, hc, he⟩ := List.mem_map.1 hmem
    rcases hs c hc with hn | rfl
    · exact (ne_of_isNameChar (isNameChar_toLower hn)).2.2.2 he
    · exact absurd he (by decide)
  have hbefore := before_lower_comment (c := []) (fun c hc => (hinstr c hc).isCodeChar) (Or.inl rfl)
  rw [List.append_nil] at hbefore
  rw [Line.parse, hbefore, Line.ofLower, Line.cutAt?_eq_none hcolon]
  simp only [ofInstruction_of_words hcomma hw]

/-- A line is not accepted when its first word is no mnemonic. -/
theorem Coded.false_of_unknown {symbols : List (String × Word)} {offset : Nat}
    {ls : List (List Char)} {offsets : List Nat} {code : List Byte}
    (h : Coded symbols offset ls offsets code) {s w : List Char} {ws : List (List Char)}
    (hmem : s ∈ ls) (hs : ∀ c ∈ s, isNameChar c = true ∨ c = ' ') (hw : words (fold s) = w :: ws)
    (hunknown : Catalog.standard.mnemonic? (String.ofList w) = none) : False := by
  obtain ⟨line, body, bs, hparse, hbody, -⟩ := h.mem hmem
  rw [parse_of_words hs hw] at hparse
  cases hparse
  cases hbody with
  | empty hm => cases hm
  | code hm he hop =>
      cases hm
      simp [encode, hunknown] at he

end Assembly

/-! ## Rows -/

open Assembly Source

namespace Row

/-- What a row says as a line of a source: its instruction. -/
def statement (r : Row) : Statement where
  instruction :=
    match r.content with
    | .instruction bs o =>
      (Catalog.standard.opcode? o.opcode).map fun e => Instr.ofEntry e bs.tail
    | _ => none

/-- The row shows the instruction of an opcode with all its bytes. -/
structure Decoded (r : Row) (b : Byte) (e : Entry) (bs : List Byte) : Prop where
  entry : Catalog.standard.opcode? b.toNat = some e
  length : bs.length = e.descriptor.kind.extraBytes
  content : r.content = .instruction (b :: bs) (Operation.ofBytes e bs)

namespace Decoded

variable {r : Row} {b : Byte} {e : Entry} {bs : List Byte}

theorem opcode (h : r.Decoded b e bs) :
    Catalog.standard.opcode? (Operation.ofBytes e bs).opcode = some e := by
  have hv : (Operation.ofBytes e bs).opcode = b.toNat := (entry_of_opcode? h.entry).1
  rw [hv, h.entry]

theorem statement_eq (h : r.Decoded b e bs) :
    r.statement = { instruction := some (Instr.ofEntry e bs) } := by
  simp only [statement, h.content, h.opcode, Option.map_some, List.tail_cons]

theorem legal (h : r.Decoded b e bs) : r.statement.Legal := by
  rw [h.statement_eq]
  refine ⟨by simp, fun i hi => ?_⟩
  obtain rfl := Option.some.inj hi
  exact legal_ofEntry h.entry h.length

theorem written (h : r.Decoded b e bs) : r.statement.Written r.text.toList := by
  have htext : r.text = (Operation.ofBytes e bs).text := by
    simp only [text, h.content]
  rw [h.statement_eq, htext]
  -- neither label nor comment, and no gaps around the instruction
  have hgap : Text.IsGap [] := by simp [Text.IsGap]
  have hinstr : InstrWritten (some (Instr.ofEntry e bs)) (Operation.ofBytes e bs).text.toList :=
    ⟨[], _, [], hgap, hgap, written_ofEntry h.entry h.length,
      by rw [List.nil_append, List.append_nil]⟩
  exact ⟨[], _, [], rfl, hinstr, Or.inl rfl, by rw [List.nil_append, List.append_nil]⟩

/-- The size of the statement is the length of the row. -/
theorem size_eq (h : r.Decoded b e bs) : r.statement.size = r.length := by
  simp only [h.statement_eq, Statement.size, Row.length, h.content]
  rfl

theorem isBranch_iff (h : r.Decoded b e bs) :
    r.isBranch = true ↔ e.descriptor.kind = .label := by
  have htable : ∀ d ∈ Instruction.table, d.action.isBranch = true ↔ d.kind = .label := by
    decide +kernel
  simp only [isBranch, h.content, h.opcode, Option.any_some]
  exact htable _ (entry_of_opcode? h.entry).2.1

/-- The line of the row is encoded as its instruction. -/
theorem body_eq (h : r.Decoded b e bs) {line : Line} {body : Option (Byte × Tail)}
    (hparse : Line.parse r.text.toList = .ok line) (hbody : Body line body) :
    ∃ opcode, body = some (opcode, (Instr.ofEntry e bs).tail) := by
  rw [h.written.parse h.legal, h.statement_eq] at hparse
  cases hparse
  cases hbody with
  | empty hm => cases hm
  | code hm he hop =>
      cases hm
      have hencode := (legal_ofEntry h.entry h.length).encode
      simp only [Statement.parts, Option.bind_some] at he
      rw [hencode] at he
      cases he
      exact ⟨_, rfl⟩

/-- Only jumps and calls have a label for an argument. -/
theorem argument_ne_label (h : r.Decoded b e bs) (hbranch : r.isBranch = false) (n : List Char) :
    (Instr.ofEntry e bs).argument ≠ .label n := by
  intro hn
  have hlegal := (legal_ofEntry h.entry h.length).2
  rw [hn] at hlegal
  generalize hk : (Instr.ofEntry e bs).row.kind = kind at hlegal
  cases hlegal
  rw [h.isBranch_iff.2 hk] at hbranch
  exact Bool.noConfusion hbranch

theorem bytes_eq (h : r.Decoded b e bs) (hbranch : r.isBranch = false)
    (address : List Char → Word) : r.statement.bytes address = r.bytes := by
  have hlabel : e.descriptor.kind ≠ .label := by
    rw [Ne, ← h.isBranch_iff, hbranch]
    exact Bool.false_ne_true
  simp only [h.statement_eq, Statement.bytes, Option.elim_some, Row.bytes, h.content]
  exact bytes_ofEntry h.entry h.length hlabel address

end Decoded

/-- A row without an instruction begins with a word that is no mnemonic. -/
structure Unknown (r : Row) (w : List Char) (ws : List (List Char)) : Prop where
  chars : ∀ c ∈ r.text.toList, Text.isNameChar c = true ∨ c = ' '
  words : Text.words (fold r.text.toList) = w :: ws
  mnemonic : Catalog.standard.mnemonic? (String.ofList w) = none

theorem unknown_missing {r : Row} (h : r.content = .missing) : r.Unknown "err".toList [] := by
  have htext : r.text.toList = "ERR".toList := by
    simp only [text, h]
  constructor
  · rw [htext]
    exact Text.forall_mem_of_all (by decide)
  · rw [htext]
    decide
  · decide +kernel

theorem unknown_data {r : Row} {v : Byte} (h : r.content = .data v) :
    r.Unknown "db".toList [fold (Literal.shownHex 2 v.toNat)] := by
  have hname := isName_shownHex (k := 2) (n := v.toNat)
  have htext : r.text.toList = "DB".toList ++ [' '] ++ Literal.shownHex 2 v.toNat := by
    simp only [text, h, String.toList_append, String.toList_ofList]
    rw [List.append_assoc]
    rfl
  constructor
  · rw [htext]
    intro c hc
    rcases List.mem_append.1 hc with hc | hc
    · exact Text.forall_mem_of_all
        (p := fun c => Text.isNameChar c = true ∨ c = ' ') (by decide) c hc
    · exact Or.inl (hname.2 c hc)
  · have hfold : fold ("DB".toList ++ [' '] ++ Literal.shownHex 2 v.toNat) =
        "db".toList ++ [' '] ++ fold (Literal.shownHex 2 v.toNat) := by
      rw [fold, List.map_append]
      rfl
    rw [htext, hfold, Text.words_append_gap (Text.forall_mem_of_all (by decide)) (by decide)
      (by simp [Text.IsGap]) (by decide), Text.words_visible hname.fold.isBlank hname.fold.1]
  · decide +kernel

/-- What the disassembler finds at an address is an instruction, or nothing that a source could
    hold. -/
theorem decoded_or_unknown {peek : Int → Option Byte} {r : Row}
    (h : r.content = Disassembly.contentAt peek r.address) :
    (∃ b e bs, r.Decoded b e bs) ∨
      ((∃ v, r.content = .data v) ∨ r.content = .missing) ∧ ∃ w ws, r.Unknown w ws := by
  cases hcontent : r.content with
  | instruction bs o =>
      obtain ⟨b, e, operands, rfl, he, rfl, hlength, -⟩ :=
        Disassembly.contentAt_instruction (h.symm.trans hcontent)
      exact Or.inl ⟨b, e, operands, he, hlength, hcontent⟩
  | data v => exact Or.inr ⟨Or.inl ⟨v, rfl⟩, _, _, unknown_data hcontent⟩
  | missing => exact Or.inr ⟨Or.inr rfl, _, _, unknown_missing hcontent⟩

/-- The text of a row is a line of its own. -/
theorem text_line {peek : Int → Option Byte} {r : Row}
    (h : r.content = Disassembly.contentAt peek r.address) :
    r.text.toList ≠ [] ∧ ∀ c ∈ r.text.toList, Text.isLineBreak c = false := by
  rcases decoded_or_unknown h with ⟨b, e, bs, hr⟩ | ⟨-, w, ws, hr⟩
  · refine ⟨fun hnil => ?_, hr.written.isLineBreak hr.legal⟩
    -- an empty line has no mnemonic
    have hparse := hr.written.parse hr.legal
    rw [hnil, hr.statement_eq] at hparse
    cases hparse
  · refine ⟨fun hnil => ?_, fun c hc => ?_⟩
    · have hwords := hr.words
      rw [hnil] at hwords
      cases hwords
    · rcases hr.chars c hc with hn | rfl
      · exact Text.isLineBreak_of_isCodeChar (Text.isCodeChar_of_isNameChar hn)
      · decide

end Row

namespace Disassembly

variable {peek : Int → Option Byte} {rows : List Row}

/-- The lines of a listing are the texts of its rows. -/
theorem lines_listing (h : ∀ r ∈ rows, r.content = contentAt peek r.address) :
    Text.lines (listing rows).toList = rows.map fun r => r.text.toList := by
  have hlisting : (listing rows).toList = ['\n'].intercalate (rows.map fun r => r.text.toList) := by
    rw [listing, String.toList_intercalate, List.map_map]
    rfl
  rw [hlisting]
  apply Text.lines_intercalate
  intro t ht
  obtain ⟨r, hr, rfl⟩ := List.mem_map.1 ht
  exact Row.text_line (h r hr)

/-- The statements of rows define no labels. -/
theorem defined_statements (rows : List Row) : Program.defined (rows.map Row.statement) = [] := by
  induction rows with
  | nil => rfl
  | cons r rs ih => exact ih

theorem labelsFrom_statements (rows : List Row) (offset : Nat) :
    Program.labelsFrom offset (rows.map Row.statement) = [] := by
  induction rows generalizing offset with
  | nil => rfl
  | cons r rs ih => exact ih _

theorem legal_statements (h : ∀ r ∈ rows, ∃ b e bs, r.Decoded b e bs) :
    ∀ s ∈ rows.map Row.statement, s.Legal := by
  intro s hs
  obtain ⟨r, hr, rfl⟩ := List.mem_map.1 hs
  obtain ⟨b, e, bs, hr⟩ := h r hr
  exact hr.legal

/-- A listing of instructions writes the program of their statements. -/
theorem draft_listing (hrows : ∀ r ∈ rows, r.content = contentAt peek r.address)
    (h : ∀ r ∈ rows, ∃ b e bs, r.Decoded b e bs) :
    draft .standard Catalog.standard (listing rows) =
      .ok (Draft.extend {} (rows.map Row.statement)) := by
  have hwritten : Program.Written (rows.map Row.statement)
      ((rows.map fun r => r.text.toList).flatMap fun t => t ++ ['\n']) := by
    clear hrows
    induction rows with
    | nil => exact .nil
    | cons r rs ih =>
        obtain ⟨b, e, bs, hr⟩ := h r List.mem_cons_self
        have ih := ih fun r' hr' => h r' (List.mem_cons_of_mem r hr')
        simpa using Program.Written.cons hr.written ih
  have hbreak : ∀ t ∈ rows.map (fun r => r.text.toList), ∀ c ∈ t,
      Text.isLineBreak c = false := by
    intro t ht
    obtain ⟨r, hr, rfl⟩ := List.mem_map.1 ht
    exact (Row.text_line (hrows r hr)).2
  have hdraft := addLines_written hwritten (legal_statements h) 0 {} (by rw [defined_statements]; exact .nil)
  rw [draft, lines_listing hrows, ← hdraft, Text.lines_flatMap hbreak]

/-- Without jumps and calls that program is assembled. -/
theorem compile_instructions (hrows : ∀ r ∈ rows, r.content = contentAt peek r.address)
    (h : ∀ r ∈ rows, ∃ b e bs, r.Decoded b e bs) (hbranch : ∀ r ∈ rows, r.isBranch = false)
    (origin : Int) :
    compile (listing rows) origin =
      .ok (Program.assembly origin (rows.map Row.statement)) := by
  have hpieces : (Draft.extend {} (rows.map Row.statement)).pieces.reverse =
      Program.piecesFrom 0 (rows.map Row.statement) := by
    rw [Draft.extend, List.append_nil, List.reverse_reverse]
  -- no statement has a target
  have htargets : ∀ s ∈ rows.map Row.statement, ∀ i ∈ s.instruction, ∀ n,
      i.argument ≠ .label n := by
    intro s hs i hi
    obtain ⟨r, hmem, rfl⟩ := List.mem_map.1 hs
    obtain ⟨b, e, bs, hr⟩ := h r hmem
    rw [hr.statement_eq] at hi
    obtain rfl := Option.some.inj hi
    exact hr.argument_ne_label (hbranch r hmem)
  have hcode : linkPieces origin (Draft.extend {} (rows.map Row.statement)) 0
      (Program.piecesFrom 0 (rows.map Row.statement)) =
        .ok ((rows.map Row.statement).flatMap
          (Statement.bytes (Program.addressOf origin (rows.map Row.statement)))) :=
    linkPieces_program (legal_statements h)
      (fun s hs i hi n hn => absurd hn (htargets s hs i hi n)) 0 0
  have hlabels : (Draft.extend {} (rows.map Row.statement)).labels = [] := by
    rw [Draft.extend, labelsFrom_statements]
    rfl
  rw [compile, compileWith, draft_listing hrows h]
  simp only [bind, Except.bind, link, hpieces, hcode, hlabels, Program.offset_piecesFrom,
    Program.assembly, labelsFrom_statements]
  rfl

/-- If a listing is assembled then none of its rows stands in the way. -/
theorem instructions_of_compile (hrows : ∀ r ∈ rows, r.content = contentAt peek r.address)
    {origin : Int} {a : Assembly} (ha : compile (listing rows) origin = .ok a) :
    ∀ r ∈ rows, (∃ b e bs, r.Decoded b e bs) ∧ r.isBranch = false := by
  have hcoded := compile_coded ha
  rw [lines_listing hrows] at hcoded
  have hdecoded : ∀ r ∈ rows, ∃ b e bs, r.Decoded b e bs := by
    intro r hr
    rcases Row.decoded_or_unknown (hrows r hr) with hdecoded | ⟨-, w, ws, hunknown⟩
    · exact hdecoded
    · exact (hcoded.false_of_unknown (List.mem_map_of_mem hr) hunknown.chars hunknown.words
        hunknown.mnemonic).elim
  -- instructions alone define no labels
  have hsymbols : a.symbols = [] := by
    rw [compile, compileWith, draft_listing hrows hdecoded] at ha
    obtain ⟨d, hd, ha⟩ := bind_ok ha
    cases hd
    obtain ⟨code, -, ha⟩ := bind_ok ha
    cases ha
    rw [Draft.extend, labelsFrom_statements]
    rfl
  intro r hr
  refine ⟨hdecoded r hr, Bool.eq_false_iff.2 fun hbranch => ?_⟩
  obtain ⟨b, e, bs, hdecoded⟩ := hdecoded r hr
  obtain ⟨line, body, code, hparse, hbody, hlinked⟩ := hcoded.mem (List.mem_map_of_mem hr)
  obtain ⟨opcode, rfl⟩ := hdecoded.body_eq hparse hbody
  obtain ⟨name, htail⟩ : ∃ name, (Instr.ofEntry e bs).tail = .target name :=
    (canonical_ofEntry hdecoded.entry hdecoded.length).tail_eq (hdecoded.isBranch_iff.1 hbranch)
  -- the target of the branch is looked up among no symbols
  rw [hsymbols] at hlinked
  cases hlinked with
  | code hlinked =>
      rw [htail] at hlinked
      cases hlinked with
      | target hlookup => cases hlookup

/-! ## The walk of the disassembler -/

theorem content_of_mem {stop address : Int} {fuel : Nat} :
    ∀ r ∈ rowsFrom peek stop fuel address, r.content = contentAt peek r.address := by
  induction fuel generalizing address with
  | zero => exact fun r hr => absurd hr List.not_mem_nil
  | succ fuel ih =>
      intro r hr
      rw [rowsFrom] at hr
      split at hr
      · rcases List.mem_cons.1 hr with rfl | hr
        · rfl
        · exact ih r hr
      · exact absurd hr List.not_mem_nil

/-- Offsets of statements and addresses of rows advance together. -/
theorem offsetsFrom_rowsFrom (peek : Int → Option Byte) (stop start : Int) (fuel offset : Nat)
    (h : ∀ r ∈ rowsFrom peek stop fuel (start + offset), ∃ b e bs, r.Decoded b e bs) :
    (Program.offsetsFrom offset ((rowsFrom peek stop fuel (start + offset)).map
        Row.statement)).map Int.ofNat =
      (rowsFrom peek stop fuel (start + offset)).map fun r => r.address - start := by
  induction fuel generalizing offset with
  | zero => rfl
  | succ fuel ih =>
      by_cases hlt : start + offset < stop
      · rw [rowsFrom_succ hlt] at h ⊢
        obtain ⟨b, e, bs, hr⟩ := h _ List.mem_cons_self
        have hnext : start + offset + (rowAt peek (start + offset)).length =
            start + (offset + (rowAt peek (start + offset)).statement.size : Nat) := by
          rw [hr.size_eq]
          omega
        have haddress : Int.ofNat offset = (rowAt peek (start + offset)).address - start := by
          simp only [rowAt, Int.ofNat_eq_natCast]
          omega
        rw [hnext] at h ⊢
        rw [List.map_cons, Program.offsetsFrom, List.map_cons, List.map_cons, haddress,
          ih _ fun r hr => h r (List.mem_cons_of_mem _ hr)]
      · rw [rowsFrom, if_neg hlt]
        rfl

/-- The bytes of the statements are the bytes of the rows. -/
theorem flatMap_statements (h : ∀ r ∈ rows, ∃ b e bs, r.Decoded b e bs)
    (hbranch : ∀ r ∈ rows, r.isBranch = false) (address : List Char → Word) :
    (rows.map Row.statement).flatMap (Statement.bytes address) = rows.flatMap Row.bytes := by
  induction rows with
  | nil => rfl
  | cons r rs ih =>
      obtain ⟨b, e, bs, hr⟩ := h r List.mem_cons_self
      rw [List.map_cons, List.flatMap_cons, List.flatMap_cons,
        hr.bytes_eq (hbranch r List.mem_cons_self),
        ih (fun r' hr' => h r' (List.mem_cons_of_mem r hr'))
          fun r' hr' => hbranch r' (List.mem_cons_of_mem r hr')]

end Disassembly

namespace Bus

open Disassembly

/-- **Disassembler output reassembles.**  The rows of a range, one a line, are a source that
    compiles, for every origin, exactly when there is no data byte, no gap in memory, no jump and
    no call among them.  Compiling it gives the bytes of the rows and, for each row, the offset of
    its address from the start of the range. -/
theorem compile_disassembly (b : Bus) (start length origin : Int) :
    ∃ rows, b.disassembleGiven (.int start) length = .ok rows ∧
      ((∃ a, compile (listing rows) origin = .ok a) ↔
        ∀ r ∈ rows, (∀ v, r.content ≠ .data v) ∧ r.content ≠ .missing ∧ r.isBranch = false) ∧
      ∀ a, compile (listing rows) origin = .ok a →
        a.code = rows.flatMap Row.bytes ∧
        a.offsets.map Int.ofNat = rows.map fun r => r.address - start := by
  let peek : Int → Option Byte := fun a => (b.peek a).toOption
  have hrows : ∀ r ∈ rows peek start length, r.content = contentAt peek r.address := content_of_mem
  refine ⟨rows peek start length, rfl, ⟨?_, fun h => ?_⟩, fun a ha => ?_⟩
  · rintro ⟨a, ha⟩ r hr
    obtain ⟨⟨v, e, bs, hdecoded⟩, hbranch⟩ := instructions_of_compile hrows ha r hr
    rw [hdecoded.content]
    exact ⟨fun v hv => RowContent.noConfusion hv, fun hv => RowContent.noConfusion hv, hbranch⟩
  · have hdecoded : ∀ r ∈ rows peek start length, ∃ b e bs, r.Decoded b e bs := by
      intro r hr
      obtain ⟨hdata, hmissing, -⟩ := h r hr
      rcases Row.decoded_or_unknown (hrows r hr) with hr | ⟨⟨v, hv⟩ | hv, -⟩
      · exact hr
      · exact absurd hv (hdata v)
      · exact absurd hv hmissing
    exact ⟨_, compile_instructions hrows hdecoded (fun r hr => (h r hr).2.2) origin⟩
  · have hdecoded := fun r hr => (instructions_of_compile hrows ha r hr).1
    have hbranch := fun r hr => (instructions_of_compile hrows ha r hr).2
    rw [compile_instructions hrows hdecoded hbranch] at ha
    cases ha
    refine ⟨flatMap_statements hdecoded hbranch _, ?_⟩
    have hzero : start + (0 : Nat) = start := Int.add_zero start
    let stop := min (start + length) 0x10000
    have hoffsets := offsetsFrom_rowsFrom peek stop start (stop - start).toNat 0
    rw [hzero] at hoffsets
    exact hoffsets hdecoded

/-- A literal that begins with a letter, a pair and a restart number. -/
example :
    let found := rows (fun x => [0xD3#8, 0xFF#8, 0xF5#8, 0xEF#8][x.toNat]?) 0 4
    listing found = "OUT FFh\nPUSH PSW\nRST 5" ∧
      compile (listing found) 0 = .ok ⟨[0xD3#8, 0xFF#8, 0xF5#8, 0xEF#8], [0, 2, 3], []⟩ := by
  decide +kernel

end Bus

end Lab8085
