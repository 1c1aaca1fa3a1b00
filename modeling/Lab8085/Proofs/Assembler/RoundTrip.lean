/-
  Lab8085.Proofs.Assembler.RoundTrip

  Assembled code disassembles to its own instructions.

  A listing of an assembly has a row for every line that holds an instruction (`Lists`): the
  row has the address of the line, shows its bytes and its canonical text.  The walk of the
  disassembler over the loaded code gives such a listing.  The induction is on the lines;
  its invariant is that the walk stands where the code of the next line begins, which holds
  because decoding finds as many bytes as encoding wrote.
-/
import Lab8085.Monitor.Session
import Lab8085.Proofs.Assembler.Listing

namespace Lab8085

/-! ## Listings -/

namespace Assembly

open Source

/-- A line that holds an instruction: where its code begins, its mnemonic and its operands. -/
structure CodeLine where
  offset : Nat
  mnemonic : String
  operands : List String
  deriving DecidableEq

/-- Those of some lines that hold an instruction, given the offsets at which the code of each line
    begins. -/
def codeLinesOf : List (List Char) → List Nat → List CodeLine
  | l :: ls, offset :: offsets =>
    match Line.parse l with
    | .ok ⟨_, some m, xs⟩ => ⟨offset, m, xs⟩ :: codeLinesOf ls offsets
    | _ => codeLinesOf ls offsets
  | _, _ => []

/-- The lines of a source that hold an instruction. -/
def codeLines (source : String) (a : Assembly) : List CodeLine :=
  codeLinesOf (Text.lines source.toList) a.offsets

/-- Bytes as they are dumped, in hexadecimal. -/
def hexDump (bs : List Byte) : String :=
  " ".intercalate (bs.map fun b => String.ofList (Text.hexByte b))

/-- A row shows a line whose code ends at the offset `stop`. It is an instruction, not a data byte
    or a gap in memory. -/
structure Shows (a : Assembly) (origin : Int) (x : CodeLine) (stop : Nat) (r : Row) : Prop where
  address : r.address = origin + x.offset
  advances : x.offset < stop
  dump : r.dump = hexDump ((a.code.drop x.offset).take (stop - x.offset))
  content : ∃ bs o, r.content = .instruction bs o
  text : ∃ d ∈ Instruction.table, d.mnemonic = x.mnemonic ∧
    ∃ texts, Shown a.symbols d.kind x.operands texts ∧
      r.text = instructionText (upperWords x.mnemonic ++ texts)

/-- Where the code of the first of some lines begins; without any, where the code ends. -/
def nextOffset (a : Assembly) : List CodeLine → Nat
  | [] => a.code.length
  | x :: _ => x.offset

/-- Rows that show lines one for one and in order. -/
inductive Lists (a : Assembly) (origin : Int) : List CodeLine → List Row → Prop
  | nil : Lists a origin [] []
  | cons {x : CodeLine} {xs : List CodeLine} {r : Row} {rs : List Row}
      (hrow : a.Shows origin x (a.nextOffset xs) r) (h : Lists a origin xs rs) :
      Lists a origin (x :: xs) (r :: rs)

theorem codeLinesOf_empty {l : List Char} {line : Line} (hparse : Line.parse l = .ok line)
    (hm : line.mnemonic = none) (ls : List (List Char)) (offset : Nat) (offsets : List Nat) :
    codeLinesOf (l :: ls) (offset :: offsets) = codeLinesOf ls offsets := by
  obtain ⟨label, mnemonic, xs⟩ := line
  cases hm
  rw [codeLinesOf, hparse]

theorem codeLinesOf_code {l : List Char} {line : Line} {m : String}
    (hparse : Line.parse l = .ok line) (hm : line.mnemonic = some m) (ls : List (List Char))
    (offset : Nat) (offsets : List Nat) :
    codeLinesOf (l :: ls) (offset :: offsets) =
      ⟨offset, m, line.operands⟩ :: codeLinesOf ls offsets := by
  obtain ⟨label, mnemonic, xs⟩ := line
  cases hm
  rw [codeLinesOf, hparse]

/-- The code of the next line begins where the code before it ends. -/
theorem Coded.nextOffset {a : Assembly} {symbols : List (String × Word)} {offset : Nat}
    {ls : List (List Char)} {offsets : List Nat} {code : List Byte}
    (h : Coded symbols offset ls offsets code) (hend : offset + code.length = a.code.length) :
    a.nextOffset (codeLinesOf ls offsets) = offset := by
  induction h with
  | nil => exact hend.symm
  | cons hparse hbody hbytes _ ih =>
      cases hbody with
      | empty hm =>
          cases hbytes
          rw [codeLinesOf_empty hparse hm]
          exact ih hend
      | code hm => rw [codeLinesOf_code hparse hm, Assembly.nextOffset]

end Assembly

/-! ## Bytes in memory -/

namespace Disassembly

/-- The bytes from an address on. -/
def Holds (peek : Int → Option Byte) : Int → List Byte → Prop
  | _, [] => True
  | address, b :: bs => peek address = some b ∧ Holds peek (address + 1) bs

variable {peek : Int → Option Byte}

theorem holds_append (address : Int) (xs ys : List Byte) :
    Holds peek address (xs ++ ys) ↔
      Holds peek address xs ∧ Holds peek (address + xs.length) ys := by
  induction xs generalizing address with
  | nil => simp [Holds]
  | cons x xs ih =>
      have hnext : address + 1 + (xs.length : Int) = address + (x :: xs).length := by
        rw [List.length_cons]
        omega
      rw [List.cons_append, Holds, Holds, ih, hnext, and_assoc]

theorem Holds.peekBytes {address : Int} {bs : List Byte} (h : Holds peek address bs) :
    peekBytes peek address bs.length = some bs := by
  induction bs generalizing address with
  | nil => rfl
  | cons b bs ih =>
      rw [List.length_cons, Disassembly.peekBytes, h.1, ih h.2]
      rfl

/-- An opcode with all its bytes is found as an instruction. -/
theorem Holds.contentAt {address : Int} {opcode : Byte} {bs : List Byte} {e : Entry}
    (h : Holds peek address (opcode :: bs))
    (he : Catalog.standard.opcode? opcode.toNat = some e)
    (hlength : bs.length = e.descriptor.kind.extraBytes) :
    contentAt peek address = .instruction (opcode :: bs) (Operation.ofBytes e bs) := by
  have hbytes := h.2.peekBytes
  rw [hlength] at hbytes
  simp only [Disassembly.contentAt, h.1, he, hbytes]

/-- At the end of its range a disassembly has no more rows. -/
theorem rowsFrom_stop (stop : Int) (fuel : Nat) : rowsFrom peek stop fuel stop = [] := by
  cases fuel with
  | zero => rfl
  | succ fuel => rw [rowsFrom, if_neg (Int.lt_irrefl stop)]

theorem rowsFrom_succ {stop address : Int} (h : address < stop) (fuel : Nat) :
    rowsFrom peek stop (fuel + 1) address =
      rowAt peek address :: rowsFrom peek stop fuel (address + (rowAt peek address).length) := by
  rw [rowsFrom, if_pos h]

section Walk

open Assembly

variable {a : Assembly} {origin : Int} {offset : Nat}

/-- The row at the code of an instruction is as long as the code and shows the line. -/
theorem shows_rowAt {m : String} {xs : List String} {e : Encoding} {opcode : Byte}
    {bs code : List Byte} (he : encode .standard Catalog.standard m xs = .ok e)
    (hop : byteOf? e.opcode = some opcode) (hlinked : Linked a.symbols e.tail bs)
    (hcode : a.code.drop offset = opcode :: bs ++ code)
    (hpeek : Holds peek (origin + offset) (opcode :: bs)) :
    (rowAt peek (origin + offset)).length = (opcode :: bs).length ∧
      a.Shows origin ⟨offset, m, xs⟩ (offset + (opcode :: bs).length)
        (rowAt peek (origin + offset)) := by
  obtain ⟨entry, texts, hentry, htable, hmnemonic, hlength, hshown, htext⟩ :=
    encode_decoded he hop hlinked
  have hcontent := hpeek.contentAt hentry hlength
  have hslice : (a.code.drop offset).take (opcode :: bs).length = opcode :: bs := by
    rw [hcode, List.take_left]
  refine ⟨?_, rfl, ?_, ?_, ⟨_, _, hcontent⟩, entry.descriptor, htable, hmnemonic, texts, hshown, ?_⟩
  · -- decoding asks for as many bytes as encoding wrote
    rw [Row.length, rowAt, hcontent, List.length_cons, hlength, Nat.add_comm]
    rfl
  · exact Nat.lt_add_of_pos_right (Nat.succ_pos bs.length)
  · rw [Nat.add_sub_cancel_left, hslice]
    simp only [Row.dump, rowAt, hcontent, Row.bytes, hexDump]
  · simp only [Row.text, rowAt, hcontent]
    exact htext

/-- The rows from an offset of an assembly on list the lines from there on. -/
theorem lists_rowsFrom {ls : List (List Char)} {offsets : List Nat} {code : List Byte}
    (h : Coded a.symbols offset ls offsets code) (hcode : a.code.drop offset = code)
    (hend : offset + code.length = a.code.length) (hpeek : Holds peek (origin + offset) code)
    {fuel : Nat} (hfuel : code.length ≤ fuel) :
    a.Lists origin (codeLinesOf ls offsets)
      (rowsFrom peek (origin + a.code.length) fuel (origin + offset)) := by
  induction h generalizing fuel with
  | nil =>
      rw [← hend, List.length_nil, Nat.add_zero, rowsFrom_stop]
      exact .nil
  | @cons offset l ls line body bs code offsets hparse hbody hbytes hrest ih =>
      have hdrop : a.code.drop (offset + bs.length) = code := by
        rw [← List.drop_drop, hcode, List.drop_left]
      have hend' : offset + bs.length + code.length = a.code.length := by
        rw [← hend, List.length_append, Nat.add_assoc]
      have haddress : origin + offset + bs.length = origin + (offset + bs.length : Nat) := by
        omega
      rw [holds_append, haddress] at hpeek
      rw [List.length_append] at hfuel
      cases hbody with
      | empty hm =>
          cases hbytes
          rw [codeLinesOf_empty hparse hm]
          exact ih hdrop hend' hpeek.2 (by omega)
      | code hm he hop =>
          cases hbytes with
          | @code opcode _ bytes hlinked =>
              obtain ⟨hlength, hshows⟩ := shows_rowAt he hop hlinked hcode hpeek.1
              rw [← hrest.nextOffset hend'] at hshows
              rw [List.length_cons] at hend' hfuel
              obtain ⟨fuel, rfl⟩ : ∃ n, fuel = n + 1 := ⟨fuel - 1, by omega⟩
              rw [codeLinesOf_code hparse hm, rowsFrom_succ (by omega), hlength, haddress]
              exact .cons hshows (ih hdrop hend' hpeek.2 (by omega))

end Walk

end Disassembly

/-! ## Loading -/

namespace Machine

open Disassembly

theorem byteOf_toNat (b : Byte) : byteOf (.int b.toNat) = .ok b := by
  have hb := b.isLt
  have hrange : (0 : Int) ≤ b.toNat ∧ (b.toNat : Int) ≤ 0xFF := by omega
  simp only [byteOf, Value.asInt?, if_pos hrange, BitVec.ofInt_natCast, BitVec.ofNat_toNat,
    BitVec.setWidth_eq]

theorem peek?_put (m : Machine) (address x : Int) (b : Byte) (h : m.memory.has address = true) :
    ({ m with memory := m.memory.put address.toNat b } : Machine).peek? x =
      if x = address then some b else m.peek? x := by
  simp only [Memory.has, Bool.and_eq_true, decide_eq_true_eq] at h
  simp only [peek?, Memory.get?_put]
  by_cases hx : 0 ≤ x
  · have hiff : x.toNat = address.toNat ∧ address.toNat < m.memory.size ↔ x = address := by
      omega
    simp only [if_pos hx, hiff]
  · have hne : x ≠ address := by omega
    rw [if_neg hx, if_neg hx, if_neg hne]

/-- Bytes that are placed where memory is installed are there afterwards; the memory below stays
    as it was. -/
theorem placeGiven_bytes (m : Machine) {address : Int} (haddress : 0 ≤ address) (places : Nat)
    (bs : List Byte) (hfits : address + places + bs.length ≤ m.size) :
    ∃ n, m.placeGiven (.int address) places (bs.map fun b => .int b.toNat) = (n, none) ∧
      Holds n.peek? (address + places) bs ∧ ∀ x < address + places, n.peek? x = m.peek? x := by
  induction bs generalizing m places with
  | nil => exact ⟨m, rfl, trivial, fun _ _ => rfl⟩
  | cons b bs ih =>
      rw [List.length_cons] at hfits
      have hhas : m.memory.has (address + places) = true := by
        simp only [Memory.has, Bool.and_eq_true, decide_eq_true_eq]
        rw [size] at hfits
        omega
      have hnext : address + (places + 1 : Nat) = address + places + 1 := by omega
      let m' : Machine := { m with memory := m.memory.put (address + places).toNat b }
      have hsize : m'.size = m.size := Memory.size_put _ _ _
      obtain ⟨n, hplace, hholds, hbelow⟩ := ih m' (places + 1) (by omega)
      rw [hnext] at hholds hbelow
      refine ⟨n, ?_, ⟨?_, hholds⟩, fun x hx => ?_⟩
      · rw [List.map_cons, placeGiven]
        simp only [shifted, Value.asInt?, hhas, if_true, byteOf_toNat]
        exact hplace
      · rw [hbelow _ (by omega), m.peek?_put _ _ b hhas, if_pos rfl]
      · rw [hbelow x (by omega), m.peek?_put _ _ b hhas, if_neg (by omega)]

end Machine

/-! ## Sources -/

namespace Monitor

open Disassembly

/-- What a source was loaded as is what its disassembly lists. -/
theorem disassemble_loaded {source : String} {origin : Int} {a : Assembly}
    (hsource : Assembly.compile source origin = .ok a) {m : Machine} (hsize : m.size ≤ maxMemory)
    (horigin : 0 ≤ origin) (hfits : origin + a.code.length ≤ m.size)
    (notify : Event → Act Unit) (d : Desk) :
    -- every line has an offset
    a.offsets.length = (Text.lines source.toList).length ∧
    ∃ n rows, perform notify (.loadSource source (.int origin)) (m, d) = .ok (.assembly a) (n, d) ∧
      perform notify (.disassemble (.int origin) a.code.length) (n, d) = .ok (.rows rows) (n, d) ∧
      -- there is a row for each line that holds an instruction, and it shows that line
      a.Lists origin (a.codeLines source) rows := by
  have hcoded := Assembly.compile_coded hsource
  obtain ⟨n, hplace, hholds, -⟩ := m.placeGiven_bytes horigin 0 a.code (by omega)
  have hstop : min (origin + a.code.length) 0x10000 = origin + (a.code.length : Int) := by
    rw [maxMemory] at hsize
    omega
  have hlength : (origin + a.code.length - origin).toNat = a.code.length := by omega
  have hzero : origin + (0 : Nat) = origin := Int.add_zero origin
  refine ⟨hcoded.length_offsets, n, rows n.peek? origin a.code.length, ?_, rfl, ?_⟩
  · have hgiven : Assembly.compileGiven Catalog.standard source (.int origin) = .ok a := by
      rw [Assembly.compile] at hsource
      simp only [Assembly.compileGiven, Value.asInt?, hsource]
      rfl
    simp only [perform, loadSource, hgiven, orFail, place, Bind.bind, EStateM.bind, Pure.pure,
      EStateM.pure, hplace]
  · have hlists := lists_rowsFrom hcoded List.drop_zero (Nat.zero_add _) hholds
      (Nat.le_refl a.code.length)
    rw [hzero] at hlists
    rwa [rows, hstop, hlength]

/-- A source with a line that holds nothing, a jump back and immediate operands of both sizes. -/
def blinking : String :=
  "top: DCR m ; again\n\n jnz Top\nlxi sp, 1234\nmvi B, 0ffh"

/-- Its assembly for the last nine addresses. -/
def blinkingAssembly : Assembly where
  code := [0x35, 0xC2, 0xF7, 0xFF, 0x31, 0xD2, 0x04, 0x06, 0xFF]
  offsets := [0, 1, 1, 4, 7]
  symbols := [("top", 0xFFF7)]

/-- The code that ends where memory does is listed to the end. -/
theorem disassemble_blinking :
    Assembly.compile blinking 0xFFF7 = .ok blinkingAssembly ∧ ∃ n rows,
      perform (notify 0) (.loadSource blinking (.int 0xFFF7)) (Machine.ofSize maxMemory, {}) =
        .ok (.assembly blinkingAssembly) (n, {}) ∧
      perform (notify 0) (.disassemble (.int 0xFFF7) 9) (n, {}) = .ok (.rows rows) (n, {}) ∧
      blinkingAssembly.Lists 0xFFF7
        [⟨0, "dcr", ["m"]⟩, ⟨1, "jnz", ["top"]⟩, ⟨4, "lxi sp", ["1234"]⟩, ⟨7, "mvi b", ["0ffh"]⟩]
        rows := by
  have hsource : Assembly.compile blinking 0xFFF7 = .ok blinkingAssembly := by decide +kernel
  have hlines : blinkingAssembly.codeLines blinking =
      [⟨0, "dcr", ["m"]⟩, ⟨1, "jnz", ["top"]⟩, ⟨4, "lxi sp", ["1234"]⟩,
        ⟨7, "mvi b", ["0ffh"]⟩] := by
    decide +kernel
  have hsize : (Machine.ofSize maxMemory).size = maxMemory := Memory.size_zeroed maxMemory
  obtain ⟨-, n, rows, hload, hrows, hlists⟩ :=
    disassemble_loaded hsource (Nat.le_of_eq hsize) (by decide)
      (by rw [hsize]; decide) (notify 0) {}
  rw [hlines] at hlists
  exact ⟨hsource, n, rows, hload, hrows, hlists⟩

end Monitor

end Lab8085
