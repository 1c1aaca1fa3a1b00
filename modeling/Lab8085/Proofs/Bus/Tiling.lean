/-
  Lab8085.Proofs.Bus.Tiling

  The rows of a disassembly tile its range.

  A disassembly walks over a bus: it looks at an address, notes what stands there and goes on
  behind it, by one, two or three addresses (`Walk`).  On every bus the walk comes to an end,
  since it always goes on by one address at least.  It peeks and so leaves the bus as it was.
  Where a byte is missing it notes a gap and goes on by one; so a row covers as many addresses
  as it has bytes, or one for a gap (`Row.covered`), and the next row follows at once
  (`Tiles`).  That every address lies in exactly one row is read off the tiling.
-/
import Lab8085.Proofs.Assembler.Reassembly
import Lab8085.Proofs.Bus.Store

namespace Lab8085

/-! ## Rows and the addresses that they cover -/

/-- How many addresses a row covers: those of the bytes that it dumps, or the one address of an
    error. -/
def Row.covered (r : Row) : Nat :=
  if r.text = "ERR" then 1 else r.bytes.length

namespace Disassembly

/-- Rows from an address on, each at the end of the one before. As long as they have not come to
    `stop` there is another one. -/
inductive Tiles (stop : Int) : Int → List Row → Prop where
  | done {address : Int} (h : stop ≤ address) : Tiles stop address []
  | row {address : Int} {r : Row} {rs : List Row} (haddress : r.address = address)
      (h : address < stop) (hrs : Tiles stop (address + r.covered) rs) :
      Tiles stop address (r :: rs)

/-- Where the last of some rows ends. -/
def endOf (start : Int) (rows : List Row) : Int :=
  rows.getLast?.elim start fun r => r.address + r.covered

variable {peek : Int → Option Byte} {stop address : Int} {rows : List Row}

/-- The rows of a tiling begin below its stop. -/
theorem Tiles.mem (h : Tiles stop address rows) : ∀ r ∈ rows, address ≤ r.address ∧
    r.address < stop := by
  induction h with
  | done _ =>
      intro r hr
      exact absurd hr List.not_mem_nil
  | @row address r rs haddress hlt _ ih =>
      intro r' hr'
      rcases List.mem_cons.1 hr' with rfl | hr'
      · omega
      · have := ih r' hr'
        omega

/-- The last row of a tiling ends at its stop or behind. -/
theorem Tiles.stop_le (h : Tiles stop address rows) : stop ≤ endOf address rows := by
  induction h with
  | done h => exact h
  | @row address r rs haddress _ _ ih =>
      cases rs with
      | nil =>
          show stop ≤ r.address + r.covered
          rw [haddress]
          exact ih
      | cons r' rs => exact ih

/-- Every address of the range lies in exactly one row. -/
theorem Tiles.existsUnique (h : Tiles stop address rows) {x : Int} (hlow : address ≤ x)
    (hhigh : x < stop) : ∃! r, r ∈ rows ∧ r.address ≤ x ∧ x < r.address + r.covered := by
  induction h with
  | done h => omega
  | @row address r rs haddress hlt hrs ih =>
      by_cases hx : x < address + r.covered
      · -- the first row covers the address, and the others begin behind it
        refine ⟨r, ⟨List.mem_cons_self, by omega, by omega⟩, ?_⟩
        rintro r' ⟨hr', hle, -⟩
        rcases List.mem_cons.1 hr' with rfl | hr'
        · rfl
        · have := (hrs.mem r' hr').1
          omega
      · obtain ⟨r', ⟨hr', hle, hlt'⟩, hunique⟩ := ih (by omega)
        refine ⟨r', ⟨List.mem_cons_of_mem r hr', hle, hlt'⟩, ?_⟩
        rintro r'' ⟨hr'', hle'', hlt''⟩
        rcases List.mem_cons.1 hr'' with rfl | hr''
        · omega
        · exact hunique r'' ⟨hr'', hle'', hlt''⟩

/-! ## What stands at an address -/

/-- Bytes are missing from a range when one of them is. -/
theorem peekBytes_eq_none_iff {n : Nat} :
    peekBytes peek address n = none ↔ ∃ i < n, peek (address + i) = none := by
  constructor
  · intro h
    by_contra hall
    have hsome : ∀ i < n, ∃ b, peek (address + i) = some b := by
      intro i hi
      apply Option.ne_none_iff_exists'.1
      intro hnone
      exact hall ⟨i, hi, hnone⟩
    clear hall
    induction n generalizing address with
    | zero => cases h
    | succ n ih =>
        obtain ⟨b, hb⟩ := hsome 0 (Nat.succ_pos n)
        rw [Int.natCast_zero, Int.add_zero] at hb
        rw [peekBytes_succ, hb, Option.bind_some, Option.map_eq_none_iff] at h
        refine ih h fun i hi => ?_
        have hnext : address + 1 + (i : Int) = address + (i + 1 : Nat) := by omega
        rw [hnext]
        exact hsome (i + 1) (by omega)
  · rintro ⟨i, hi, hnone⟩
    exact peekBytes_none (by omega) (by omega) hnone

/-- There is a gap at an address when its byte is missing, or one that belongs to the opcode
    there. -/
theorem contentAt_missing_iff : contentAt peek address = .missing ↔ peek address = none ∨
    ∃ b e i, peek address = some b ∧ Catalog.standard.opcode? b.toNat = some e ∧
      i < e.descriptor.kind.extraBytes ∧ peek (address + 1 + (i : Nat)) = none := by
  cases hb : peek address with
  | none => simp [contentAt_none hb]
  | some b =>
      cases he : Catalog.standard.opcode? b.toNat with
      | none => simp [contentAt_data hb he, he]
      | some e =>
          have hmissing : contentAt peek address = .missing ↔
              peekBytes peek (address + 1) e.descriptor.kind.extraBytes = none := by
            rw [contentAt_opcode hb he]
            cases peekBytes peek (address + 1) e.descriptor.kind.extraBytes <;> simp
          rw [hmissing, peekBytes_eq_none_iff]
          simp [he]

/-- A data byte is found where it stands. -/
theorem peek_of_contentAt_data {v : Byte} (h : contentAt peek address = .data v) :
    peek address = some v := by
  cases hb : peek address with
  | none =>
      rw [contentAt_none hb] at h
      cases h
  | some b =>
      cases he : Catalog.standard.opcode? b.toNat with
      | none =>
          rw [contentAt_data hb he] at h
          cases h
          rfl
      | some e =>
          rw [contentAt_opcode hb he] at h
          cases hbytes : peekBytes peek (address + 1) e.descriptor.kind.extraBytes with
          | none =>
              rw [hbytes] at h
              cases h
          | some bs =>
              rw [hbytes] at h
              cases h

/-- The bytes of a row are those from its address on. -/
theorem get_bytes {r : Row} (h : r.content = contentAt peek r.address) (i : Nat)
    (hi : i < r.bytes.length) : peek (r.address + i) = some r.bytes[i] := by
  cases hcontent : r.content with
  | instruction bs o =>
      obtain ⟨_, _, _, -, -, -, -, hbytes⟩ := contentAt_instruction (h.symm.trans hcontent)
      have hbs : r.bytes = bs := by simp only [Row.bytes, hcontent]
      simp only [hbs] at hi ⊢
      exact (get_of_peekBytes hbytes).2 i hi
  | data v =>
      have hbs : r.bytes = [v] := by simp only [Row.bytes, hcontent]
      obtain rfl : i = 0 := by
        rw [hbs, List.length_singleton] at hi
        omega
      simp only [hbs, List.getElem_cons_zero, Int.natCast_zero, Int.add_zero]
      exact peek_of_contentAt_data (h.symm.trans hcontent)
  | missing =>
      have hbs : r.bytes = [] := by simp only [Row.bytes, hcontent]
      rw [hbs] at hi
      exact absurd hi (Nat.not_lt_zero i)

/-- No other row has the text of a gap. -/
theorem text_eq_err_iff {r : Row} (h : r.content = contentAt peek r.address) :
    r.text = "ERR" ↔ r.content = .missing := by
  constructor
  · intro htext
    rcases Row.decoded_or_unknown h with ⟨b, e, bs, hr⟩ | ⟨⟨v, hv⟩ | hmissing, -⟩
    · -- the text would be read as a mnemonic that the table does not have
      have hparse := hr.written.parse hr.legal
      have herr : Source.Line.parse "ERR".toList = .ok ⟨none, some "err", []⟩ := by decide +kernel
      rw [htext, herr, hr.statement_eq] at hparse
      have hmnemonic : (Assembly.Instr.ofEntry e bs).row.mnemonic = "err" := by
        injection hparse with hparse
        injection hparse with _ hm _
        exact (Option.some.inj hm).symm
      have htable : ∀ d ∈ Instruction.table, d.mnemonic ≠ "err" := by decide +kernel
      exact absurd hmnemonic (htable _ (Assembly.entry_of_opcode? hr.entry).2.1)
    · have hdb : r.text = "DB " ++ String.ofList (Text.hexByte v) ++ "h" := by
        simp only [Row.text, hv]
      have hlist := congrArg String.toList (hdb.symm.trans htext)
      rw [String.toList_append, String.toList_append] at hlist
      have hhead : 'D' = 'E' := (List.cons.inj hlist).1
      exact absurd hhead (by decide)
    · exact hmissing
  · intro hmissing
    simp only [Row.text, hmissing]

/-- A row covers the addresses that the walk goes on by. -/
theorem covered_eq_length {r : Row} (h : r.content = contentAt peek r.address) :
    r.covered = r.length := by
  have htext := text_eq_err_iff h
  rw [Row.covered]
  cases hcontent : r.content with
  | instruction bs o =>
      rw [if_neg (by rw [htext, hcontent]; exact RowContent.noConfusion)]
      simp only [Row.bytes, Row.length, hcontent]
      exact length_of_contentAt (h.symm.trans hcontent)
  | data v =>
      rw [if_neg (by rw [htext, hcontent]; exact RowContent.noConfusion)]
      simp only [Row.bytes, Row.length, hcontent, List.length_singleton]
  | missing =>
      rw [if_pos (htext.2 hcontent)]
      simp only [Row.length, hcontent]

/-- The walk goes on by one address at least. -/
theorem length_pos {r : Row} (h : r.content = contentAt peek r.address) : 0 < r.length := by
  cases hcontent : r.content with
  | instruction bs o =>
      obtain ⟨_, _, _, rfl, -, -, -, -⟩ := contentAt_instruction (h.symm.trans hcontent)
      have hlength := length_of_contentAt (h.symm.trans hcontent)
      rw [List.length_cons] at hlength
      simp only [Row.length, hcontent]
      omega
  | data v =>
      simp only [Row.length, hcontent]
      exact Nat.one_pos
  | missing =>
      simp only [Row.length, hcontent]
      exact Nat.one_pos

/-- Rows as many as there are addresses are enough to come to the end of a range. -/
theorem tiles_rowsFrom {fuel : Nat} (hfuel : (stop - address).toNat ≤ fuel) :
    Tiles stop address (rowsFrom peek stop fuel address) := by
  induction fuel generalizing address with
  | zero => exact .done (by omega)
  | succ fuel ih =>
      by_cases hlt : address < stop
      · have hrow : (rowAt peek address).content =
            contentAt peek (rowAt peek address).address := rfl
        have hpos := length_pos hrow
        rw [rowsFrom_succ hlt]
        refine .row rfl hlt ?_
        rw [covered_eq_length hrow]
        exact ih (by omega)
      · rw [rowsFrom, if_neg hlt]
        exact .done (by omega)

end Disassembly

/-! ## The walk over a bus -/

namespace Bus

open Disassembly

/-- Looks at an address without a record. -/
def glance (address : Int) : Act Byte := do
  ofExcept ((← get).peek address)

/-- Looks at some addresses one after the other. -/
def glances (address : Int) : Nat → Act (List Byte)
  | 0 => return []
  | n + 1 => do
    let b ← glance address
    return b :: (← glances (address + 1) n)

/-- Looks what stands at an address. Where the bus has no byte on the way that is a gap; other
    failures are not caught. -/
def inspect (address : Int) : Act RowContent :=
  tryCatch (do
      let opcode ← glance address
      match Catalog.standard.opcode? opcode.toNat with
      | none => return .data opcode
      | some e =>
        let bs ← glances (address + 1) e.descriptor.kind.extraBytes
        return .instruction (opcode :: bs) (Operation.ofBytes e bs))
    fun
      | .unmapped _ | .outsideChip .. => return .missing
      | e => throw e

/-- A walk from an address on, with the rows that it notes: from one bus it leads to another. It
    goes on as long as it has come neither to `stop` nor past the last address. -/
inductive Walk (stop : Int) : Int → Bus → List Row → Bus → Prop where
  | done {address : Int} {b : Bus} (h : ¬(address < stop ∧ address ≤ 0xFFFF)) :
      Walk stop address b [] b
  | row {address : Int} {b c d : Bus} {x : RowContent} {rs : List Row}
      (h : address < stop ∧ address ≤ 0xFFFF) (hx : inspect address b = .ok x c)
      (hrs : Walk stop (address + Row.length ⟨address, x⟩) c rs d) :
      Walk stop address b (⟨address, x⟩ :: rs) d

/-- No range of the bus holds an address. -/
def Lacks (b : Bus) (address : Int) : Prop :=
  b.region? address = none

/-- A byte is lacking at an address, its own or an operand byte of the instruction there. -/
inductive Gap (b : Bus) (address : Int) : Prop where
  | first (h : b.Lacks address)
  | operand {v : Byte} {e : Entry} {i : Nat} (hv : b.peek address = .ok v)
      (he : Catalog.standard.opcode? v.toNat = some e)
      (hi : i < e.descriptor.kind.extraBytes) (h : b.Lacks (address + 1 + i))

/-- A row shows what stands on the bus: an error exactly at a gap, and otherwise the bytes in
    hexadecimal, each that of its address. -/
structure Shows (b : Bus) (r : Row) : Prop where
  gap : r.text = "ERR" ↔ b.Gap r.address
  dump : r.dump = if r.text = "ERR" then "??" else Assembly.hexDump r.bytes
  bytes : ∀ i (hi : i < r.bytes.length), b.peek (r.address + i) = .ok r.bytes[i]

variable {b : Bus} {h : History}

/-- The bytes of a bus, by their addresses. -/
def byte? (b : Bus) (address : Int) : Option Byte :=
  (b.peek address).toOption

/-- An address lacks a byte, which is the only reason for a peek to fail, or has one. -/
theorem Reflects.peek_cases (hb : Reflects h b) (address : Int) :
    (b.Lacks address ∧ b.byte? address = none ∧ b.peek address = .error (.unmapped address)) ∨
    ∃ v, ¬b.Lacks address ∧ b.byte? address = some v ∧ b.peek address = .ok v := by
  cases hregion : b.region? address with
  | none =>
      have hpeek : b.peek address = .error (.unmapped address) := by
        rw [Bus.peek, Bus.resolve, hregion]
        rfl
      refine .inl ⟨hregion, ?_, hpeek⟩
      rw [byte?, hpeek]
      rfl
  | some r =>
      have hresolve : b.resolve address = .ok (r.chip, address - r.first) := by
        rw [Bus.resolve, hregion]
      obtain ⟨v, hv, -⟩ := hb.peek_of_resolve hresolve
      refine .inr ⟨v, ?_, ?_, hv⟩
      · rw [Lacks, hregion]
        exact Option.some_ne_none r
      · rw [byte?, hv]
        rfl

theorem Reflects.byte?_eq_none_iff (hb : Reflects h b) {address : Int} :
    b.byte? address = none ↔ b.Lacks address := by
  rcases hb.peek_cases address with ⟨hlacks, hnone, -⟩ | ⟨v, hhas, hsome, -⟩
  · exact iff_of_true hnone hlacks
  · rw [hsome]
    exact iff_of_false (Option.some_ne_none v) hhas

theorem Reflects.peek_eq_ok_iff (hb : Reflects h b) {address : Int} {v : Byte} :
    b.peek address = .ok v ↔ b.byte? address = some v := by
  rcases hb.peek_cases address with ⟨-, hnone, hpeek⟩ | ⟨w, -, hsome, hpeek⟩
  · rw [hnone, hpeek]
    exact iff_of_false nofun nofun
  · rw [hsome, hpeek]
    simp

theorem Reflects.gap_iff (hb : Reflects h b) {address : Int} :
    b.Gap address ↔ contentAt b.byte? address = .missing := by
  rw [contentAt_missing_iff]
  constructor
  · intro hgap
    cases hgap with
    | first h => exact .inl (hb.byte?_eq_none_iff.2 h)
    | operand hv he hi h =>
        exact .inr ⟨_, _, _, hb.peek_eq_ok_iff.1 hv, he, hi, hb.byte?_eq_none_iff.2 h⟩
  · rintro (h | ⟨v, e, i, hv, he, hi, h⟩)
    · exact .first (hb.byte?_eq_none_iff.1 h)
    · exact .operand (hb.peek_eq_ok_iff.2 hv) he hi (hb.byte?_eq_none_iff.1 h)

/-! ### What the walk finds -/

theorem Reflects.glance (hb : Reflects h b) (address : Int) :
    Bus.glance address b = match b.byte? address with
      | some v => .ok v b
      | none => .error (.unmapped address) b := by
  have hglance : Bus.glance address b = (ofExcept (b.peek address) : Act Byte) b := rfl
  rcases hb.peek_cases address with ⟨-, hnone, hpeek⟩ | ⟨v, -, hsome, hpeek⟩
  · rw [hglance, hnone, ofExcept_of_error hpeek]
  · rw [hglance, hsome, ofExcept_of_ok hpeek]

/-- Some looks in a row find all bytes, or end at the first that is lacking. -/
theorem Reflects.glances (hb : Reflects h b) (address : Int) (n : Nat) :
    match peekBytes b.byte? address n with
    | some bs => Bus.glances address n b = .ok bs b
    | none => ∃ x, Bus.glances address n b = .error (.unmapped x) b := by
  induction n generalizing address with
  | zero => rfl
  | succ n ih =>
      have ih := ih (address + 1)
      have hglance := hb.glance address
      rw [peekBytes_succ, Bus.glances]
      cases hv : b.byte? address with
      | none =>
          rw [hv] at hglance
          exact ⟨address, bind_of_error hglance _⟩
      | some v =>
          rw [hv] at hglance
          rw [Option.bind_some, bind_of_ok hglance]
          cases hbs : peekBytes b.byte? (address + 1) n with
          | none =>
              rw [hbs] at ih
              obtain ⟨x, hx⟩ := ih
              exact ⟨x, bind_of_error hx _⟩
          | some bs =>
              rw [hbs] at ih
              exact bind_of_ok ih _

/-- The walk finds what the rows of a disassembly show, and the bus is as it was. -/
theorem Reflects.inspect (hb : Reflects h b) (address : Int) :
    Bus.inspect address b = .ok (contentAt b.byte? address) b := by
  have hglance := hb.glance address
  rw [Bus.inspect]
  cases hv : b.byte? address with
  | none =>
      rw [hv] at hglance
      simp only [tryCatch, tryCatchThe, MonadExceptOf.tryCatch, EStateM.tryCatch,
        bind_of_error hglance, contentAt_none hv]
      rfl
  | some v =>
      rw [hv] at hglance
      simp only [tryCatch, tryCatchThe, MonadExceptOf.tryCatch, EStateM.tryCatch,
        bind_of_ok hglance]
      cases he : Catalog.standard.opcode? v.toNat with
      | none =>
          rw [contentAt_data hv he]
          rfl
      | some e =>
          have hbytes := hb.glances (address + 1) e.descriptor.kind.extraBytes
          rw [contentAt_opcode hv he]
          cases hbs : peekBytes b.byte? (address + 1) e.descriptor.kind.extraBytes with
          | none =>
              rw [hbs] at hbytes
              obtain ⟨x, hx⟩ := hbytes
              simp only [bind_of_error hx]
              rfl
          | some bs =>
              rw [hbs] at hbytes
              simp only [bind_of_ok hbytes]
              rfl

/-- The walk notes the rows of a disassembly, comes to an end and leaves the bus as it was. -/
theorem Reflects.walk (hb : Reflects h b) (last : Int) {address : Int} {fuel : Nat}
    (hfuel : (min last 0x10000 - address).toNat ≤ fuel) :
    Walk last address b (rowsFrom b.byte? (min last 0x10000) fuel address) b := by
  induction fuel generalizing address with
  | zero =>
      rw [rowsFrom]
      exact .done (by omega)
  | succ fuel ih =>
      by_cases hlt : address < min last 0x10000
      · have hcontent : (rowAt b.byte? address).content = contentAt b.byte? address := rfl
        have hpos : 0 < (rowAt b.byte? address).length := length_pos hcontent
        have hrest : Walk last (address + (rowAt b.byte? address).length) b
            (rowsFrom b.byte? (min last 0x10000) fuel
              (address + (rowAt b.byte? address).length)) b :=
          ih (by omega)
        rw [rowsFrom_succ hlt]
        exact .row (by omega) (hb.inspect address) hrest
      · rw [rowsFrom, if_neg hlt]
        exact .done (by omega)

theorem Reflects.shows (hb : Reflects h b) {r : Row}
    (hr : r.content = contentAt b.byte? r.address) : b.Shows r := by
  have htext := text_eq_err_iff hr
  refine ⟨?_, ?_, fun i hi => ?_⟩
  · rw [htext, hr]
    exact hb.gap_iff.symm
  · cases hcontent : r.content with
    | missing =>
        rw [if_pos (htext.2 hcontent)]
        simp only [Row.dump, hcontent]
    | instruction bs o =>
        rw [if_neg (by rw [htext, hcontent]; exact RowContent.noConfusion)]
        simp only [Row.dump, hcontent, Assembly.hexDump]
    | data v =>
        rw [if_neg (by rw [htext, hcontent]; exact RowContent.noConfusion)]
        simp only [Row.dump, hcontent, Assembly.hexDump]
  · exact hb.peek_eq_ok_iff.2 (get_bytes hr i hi)

/-- **Disassembly tiles its range.**  On every bus and for every start and length the walk of the
    disassembler comes to an end with its rows, and the bus is as it was.  The first row begins at
    the start, every other at the end of the one before, all of them below the end of the range
    and below 65536; the last one ends there or behind, so that every address of the range lies in
    exactly one row.  The rows dump what stands at their addresses, and a row is an error exactly
    where a byte is unmapped. -/
theorem disassembly_tiles (ops : List Operation) (start length : Int) :
    let b := (carriedOut ops).1
    let stop := min (start + length) 0x10000
    ∃ rows, b.disassembleGiven (.int start) length = .ok rows ∧
      Walk (start + length) start b rows b ∧
      Tiles stop start rows ∧
      (stop ≤ start → rows = []) ∧
      (∀ r ∈ rows, r.address < start + length ∧ r.address < 0x10000) ∧
      stop ≤ endOf start rows ∧
      (∀ x, start ≤ x → x < stop →
        ∃! r, r ∈ rows ∧ r.address ≤ x ∧ x < r.address + r.covered) ∧
      ∀ r ∈ rows, b.Shows r := by
  intro b stop
  have hb : Reflects (carriedOut ops).2 b := reflects_carriedOut ops
  have htiles : Tiles stop start (rows b.byte? start length) := tiles_rowsFrom (Nat.le_refl _)
  refine ⟨rows b.byte? start length, rfl, hb.walk _ (Nat.le_refl _), htiles, fun hempty => ?_,
    fun r hr => ?_, htiles.stop_le, fun x hlow hhigh => htiles.existsUnique hlow hhigh,
    fun r hr => ?_⟩
  · cases htiles' : rows b.byte? start length with
    | nil => rfl
    | cons r rs =>
        rw [htiles'] at htiles
        have := htiles.mem r List.mem_cons_self
        omega
  · have := (htiles.mem r hr).2
    omega
  · exact hb.shows (content_of_mem r hr)

/-- Two ranges with a gap between them. The jump at 1 has its last byte in the gap, so it is an
    error and the walk goes on at its second byte; the instruction at the end of the range is
    shown whole. -/
example : let b := (carriedOut [.chip (.int 3), .register 0 2 (some 0), .load 1 0xC3,
      .chip (.int 3), .register 4 6 (some 1), .load 4 0x08, .load 5 0x3E, .load 6 0x0F]).1
    (b.disassembleGiven (.int (-1)) 7).toOption.map (·.map fun r => (r.address, r.dump, r.text)) =
      some [(-1, "??", "ERR"), (0, "00", "NOP"), (1, "??", "ERR"), (2, "00", "NOP"),
        (3, "??", "ERR"), (4, "08", "DB 08h"), (5, "3E 0F", "MVI A, 0Fh")] := by
  decide +kernel

end Bus

end Lab8085
