/-
  Lab8085.Proofs.Assembler.Listing

  What the lines of an accepted source contribute to its code.

  Any source that compiles can be read off line by line: each line has a piece, which is
  empty or the encoding of the line's instruction (`Body`), and the pieces are laid out one
  after the other (`Laid`).  Linking turns a piece into bytes; a target becomes the address
  that the symbols give for its label (`Linked`).  An encoded instruction is the one that its
  opcode stands for, with as many bytes as that asks for, and its text is the canonical one
  (`encode_decoded`).
-/
import Lab8085.Disassembly
import Lab8085.Proofs.Assembler.Compile

namespace Lab8085.Assembly

open Source

/-- A computation that succeeds does so in both its parts. -/
theorem bind_ok {ε α β : Type} {x : Except ε α} {f : α → Except ε β} {b : β}
    (h : (x >>= f) = .ok b) : ∃ a, x = .ok a ∧ f a = .ok b := by
  cases x with
  | error e => cases h
  | ok a => exact ⟨a, rfl, h⟩

/-! ## Canonical texts -/

/-- How an operand of a kind is shown: a number in hexadecimal, a target by the address of its
    label, a built-in operand by its name in upper case. -/
inductive Shown (symbols : List (String × Word)) : OperandKind → List String → List String → Prop
  | absent : Shown symbols .none [] []
  | byte {x : String} {b : Byte} (h : Literal.readByte x = .ok b) :
      Shown symbols .byte [x] [String.ofList (Text.hexByte b) ++ "h"]
  | word {x : String} {w : Word} (h : Literal.readWord x = .ok w) :
      Shown symbols .word [x] [String.ofList (Text.hexWord w) ++ "h"]
  | label {x : String} {w : Word} (h : symbols.lookup x = some w) :
      Shown symbols .label [x] [String.ofList (Text.hexWord w) ++ "h"]
  | index {x : String} {n : Fin 8} (h : Literal.readIndex x = .ok n) :
      Shown symbols .index [x] [toString n.val]
  | named {kind : OperandKind} {c : Choice} {x name : String} (hk : kind.isNamed = true)
      (hc : c ∈ kind.choices) (hname : c.name? = some name)
      (hx : fold name.toList = x.toList) : Shown symbols kind [x] [name]

/-- The words of a text in upper case. -/
def upperWords (s : String) : List String :=
  (Text.words (s.toList.map Char.toUpper)).map String.ofList

/-- An instruction by its words: a blank after the first, commas between the others. -/
def instructionText : List String → String
  | [] => ""
  | [w] => w
  | w :: ws => w ++ " " ++ ", ".intercalate ws

/-! ## Lines -/

/-- The piece of a line: nothing, or its instruction as the standard catalog encodes it. -/
inductive Body (line : Line) : Option (Byte × Tail) → Prop
  | empty (h : line.mnemonic = none) : Body line none
  | code {m : String} {e : Encoding} {opcode : Byte} (hm : line.mnemonic = some m)
      (he : encode .standard Catalog.standard m line.operands = .ok e)
      (hop : byteOf? e.opcode = some opcode) : Body line (some (opcode, e.tail))

/-- The pieces of some lines, laid out from an offset on. -/
inductive Laid : Nat → List (List Char) → List Piece → Prop
  | nil {offset : Nat} : Laid offset [] []
  | cons {offset : Nat} {l : List Char} {ls : List (List Char)} {line : Line}
      {body : Option (Byte × Tail)} {ps : List Piece} (hparse : Line.parse l = .ok line)
      (hbody : Body line body) (h : Laid (offset + (Piece.mk offset body).length) ls ps) :
      Laid offset (l :: ls) (⟨offset, body⟩ :: ps)

/-- Defining a label changes neither the code nor where it ends. -/
theorem define_same {d d' : Draft} {label : Option String} (h : d.define label = .ok d') :
    d'.offset = d.offset ∧ d'.pieces = d.pieces := by
  cases label with
  | none =>
      cases h
      exact ⟨rfl, rfl⟩
  | some name =>
      simp only [Draft.define] at h
      split at h
      · cases h
      · cases h
        exact ⟨rfl, rfl⟩

/-- A line that is accepted is parsed and adds its piece. -/
theorem addLine_body {number : Nat} {d d' : Draft} {l : List Char}
    (h : addLine .standard Catalog.standard number d l = .ok d') :
    ∃ line body, Line.parse l = .ok line ∧ Body line body ∧
      d'.offset = d.offset + (Piece.mk d.offset body).length ∧
      d'.pieces = ⟨d.offset, body⟩ :: d.pieces := by
  simp only [addLine, bind, Except.bind, pure, Except.pure] at h
  cases hparse : Line.parse l with
  | error e => simp [hparse] at h
  | ok line =>
      cases hdefine : d.define line.label with
      | error e => simp [hparse, hdefine] at h
      | ok d₁ =>
          obtain ⟨hoffset, hpieces⟩ := define_same hdefine
          cases hm : line.mnemonic with
          | none =>
              simp only [hparse, hdefine, hm] at h
              cases h
              refine ⟨line, none, rfl, .empty hm, ?_, ?_⟩
              · rw [Draft.push, hoffset]
              · rw [Draft.push, hoffset, hpieces]
          | some m =>
              cases he : encode .standard Catalog.standard m line.operands with
              | error e => simp [hparse, hdefine, hm, he] at h
              | ok e =>
                  cases hop : byteOf? e.opcode with
                  | none => simp [hparse, hdefine, hm, he, hop] at h
                  | some opcode =>
                      simp only [hparse, hdefine, hm, he, hop] at h
                      cases h
                      refine ⟨line, some (opcode, e.tail), rfl, .code hm he hop, ?_, ?_⟩
                      · rw [Draft.push, hoffset]
                      · rw [Draft.push, hoffset, hpieces]

/-- The lines of an accepted source are laid out one after the other. -/
theorem addLines_laid {number : Nat} {d d' : Draft} {ls : List (List Char)}
    (h : addLines .standard Catalog.standard number d ls = .ok d') :
    ∃ ps, Laid d.offset ls ps ∧ d'.pieces = ps.reverse ++ d.pieces := by
  induction ls generalizing number d with
  | nil =>
      cases h
      exact ⟨[], .nil, rfl⟩
  | cons l ls ih =>
      obtain ⟨d₁, hline, hrest⟩ := bind_ok h
      obtain ⟨line, body, hparse, hbody, hoffset, hpieces⟩ := addLine_body hline
      obtain ⟨ps, hlaid, hd'⟩ := ih hrest
      rw [hoffset] at hlaid
      refine ⟨⟨d.offset, body⟩ :: ps, .cons hparse hbody hlaid, ?_⟩
      rw [hd', hpieces, List.reverse_cons, List.append_assoc]
      rfl

/-! ## Linking -/

/-- The bytes of a tail when the symbols give the addresses of the labels. -/
inductive Linked (symbols : List (String × Word)) : Tail → List Byte → Prop
  | bytes (bs : List Byte) : Linked symbols (.bytes bs) bs
  | target {label : String} {w : Word} (h : symbols.lookup label = some w) :
      Linked symbols (.target label) [lowByte w, highByte w]

/-- The bytes of a piece. -/
inductive LinkedPiece (symbols : List (String × Word)) : Option (Byte × Tail) → List Byte → Prop
  | empty : LinkedPiece symbols none []
  | code {opcode : Byte} {tail : Tail} {bs : List Byte} (h : Linked symbols tail bs) :
      LinkedPiece symbols (some (opcode, tail)) (opcode :: bs)

theorem Linked.length {symbols : List (String × Word)} {tail : Tail} {bs : List Byte}
    (h : Linked symbols tail bs) : bs.length = tail.length := by
  cases h <;> rfl

theorem LinkedPiece.length {symbols : List (String × Word)} {p : Piece} {bs : List Byte}
    (h : LinkedPiece symbols p.body bs) : bs.length = p.length := by
  obtain ⟨offset, body⟩ := p
  cases h with
  | empty => rfl
  | code h =>
      rw [Piece.length, List.length_cons, h.length, Nat.add_comm]

/-- The symbols of an assembly give the places of the labels of its draft. -/
theorem lookup_symbols (origin : Int) (labels : List (String × Nat)) (name : String) :
    (labels.map fun l => (l.1, place origin l.2)).lookup name =
      (labels.lookup name).map (place origin) := by
  induction labels with
  | nil => rfl
  | cons l ls ih =>
      rw [List.map_cons, List.lookup_cons, List.lookup_cons, ih]
      cases name == l.1 <;> rfl

theorem linkPiece_linked {origin : Int} {d : Draft} {number : Nat} {p : Piece} {bs : List Byte}
    (h : linkPiece origin d number p = .ok bs) :
    LinkedPiece (d.labels.map fun l => (l.1, place origin l.2)) p.body bs := by
  simp only [linkPiece] at h
  split at h
  · next hbody =>
      cases h
      rw [hbody]
      exact .empty
  · next opcode bytes hbody =>
      cases h
      rw [hbody]
      exact .code (.bytes bytes)
  · next opcode label hbody =>
      split at h
      · cases h
      · next offset hoffset =>
          cases h
          rw [hbody]
          refine .code (.target ?_)
          rw [lookup_symbols, ← Draft.offset?, hoffset]
          rfl

/-- Lines with the offsets at which their code begins and their bytes, from an offset on. -/
inductive Coded (symbols : List (String × Word)) :
    Nat → List (List Char) → List Nat → List Byte → Prop
  | nil {offset : Nat} : Coded symbols offset [] [] []
  | cons {offset : Nat} {l : List Char} {ls : List (List Char)} {line : Line}
      {body : Option (Byte × Tail)} {bs code : List Byte} {offsets : List Nat}
      (hparse : Line.parse l = .ok line) (hbody : Body line body)
      (hbytes : LinkedPiece symbols body bs)
      (h : Coded symbols (offset + bs.length) ls offsets code) :
      Coded symbols offset (l :: ls) (offset :: offsets) (bs ++ code)

theorem Laid.coded {origin : Int} {d : Draft} {offset : Nat} {ls : List (List Char)}
    {ps : List Piece} (h : Laid offset ls ps) {number : Nat} {code : List Byte}
    (hlink : linkPieces origin d number ps = .ok code) :
    Coded (d.labels.map fun l => (l.1, place origin l.2)) offset ls (ps.map Piece.offset)
      code := by
  induction h generalizing number code with
  | nil =>
      cases hlink
      exact .nil
  | @cons offset l ls line body ps hparse hbody hlaid ih =>
      obtain ⟨bs, hpiece, hlink⟩ := bind_ok hlink
      obtain ⟨rest, hrest, hlink⟩ := bind_ok hlink
      cases hlink
      have hbytes := linkPiece_linked hpiece
      have hcoded := ih hrest
      rw [← hbytes.length] at hcoded
      exact .cons hparse hbody hbytes hcoded

/-- The lines of an accepted source, with their offsets and their bytes. -/
theorem compile_coded {source : String} {origin : Int} {a : Assembly}
    (h : compile source origin = .ok a) :
    Coded a.symbols 0 (Text.lines source.toList) a.offsets a.code := by
  obtain ⟨d, hdraft, h⟩ := bind_ok h
  obtain ⟨code, hlink, h⟩ := bind_ok h
  obtain ⟨ps, hlaid, hpieces⟩ := addLines_laid hdraft
  have hps : d.pieces.reverse = ps := by
    rw [hpieces, List.append_nil, List.reverse_reverse]
  cases h
  rw [hps] at hlink ⊢
  exact hlaid.coded hlink

theorem Coded.length_offsets {symbols : List (String × Word)} {offset : Nat}
    {ls : List (List Char)} {offsets : List Nat} {code : List Byte}
    (h : Coded symbols offset ls offsets code) : offsets.length = ls.length := by
  induction h with
  | nil => rfl
  | cons _ _ _ _ ih => rw [List.length_cons, List.length_cons, ih]

/-! ## Decoding what was encoded -/

/-- Every row of the table is found again by each of its opcodes, with the operand that is built
    into it. -/
theorem opcode?_table : ∀ d ∈ Instruction.table, ∀ x ∈ d.kind.choices,
    Catalog.standard.opcode? (d.opcodeFor x) = some ⟨d.opcodeFor x, d, x⟩ := by
  decide +kernel

theorem mnemonicWords_table : ∀ d ∈ Instruction.table, d.mnemonicWords ≠ [] := by
  decide +kernel

theorem toNat_byteOf? {v : Int} {b : Byte} (h : byteOf? v = some b) : (b.toNat : Int) = v := by
  simp only [byteOf?] at h
  split at h
  · next hv =>
      cases h
      rw [BitVec.toNat_ofInt]
      omega
  · cases h

/-- Two bytes, low byte first, make the word that they are the halves of. -/
theorem joinBits_halves (w : Word) :
    joinBits (lowByte w).toNat ((highByte w).toNat * 256) = w.toNat := by
  have hcast : ((highByte w).toNat * 256 : Int) = ((highByte w).toNat * 256 : Nat) := by omega
  have hjoin : (highByte w).toNat <<< 8 ||| (lowByte w).toNat = w.toNat := by
    rw [← BitVec.toNat_append]
    exact congrArg BitVec.toNat (joinBytes_high_low w)
  rw [hcast]
  show (((lowByte w).toNat ||| (highByte w).toNat * 256 : Nat) : Int) = w.toNat
  rw [← hjoin, Nat.or_comm, Nat.shiftLeft_eq]

/-- The numbers that bytes are shown by. -/
def numbers (bs : List Byte) : List Int :=
  bs.map fun b => (b.toNat : Int)

/-- A name that is resolved is that of the choice, in lower case. -/
theorem resolve_choice {kind : OperandKind} {x : String} {c : Choice}
    (h : resolve kind x = .ok c) :
    c ∈ kind.choices ∧ ∃ name, c.name? = some name ∧ fold name.toList = x.toList := by
  cases hc : choiceOf? kind x with
  | none =>
      simp only [resolve, hc] at h
      split at h <;> cases h
  | some c' =>
      simp only [resolve, hc] at h
      cases h
      rw [choiceOf?] at hc
      have hfound := List.find?_some hc
      obtain ⟨name, hname, hx⟩ := (Option.any_eq_true _ _).1 hfound
      exact ⟨List.mem_of_find?_eq_some hc, name, hname, beq_iff_eq.1 hx⟩

/-- What an operand of a row comes to: a choice `c` for its opcode `v`, and bytes after it that are
    as many as the kind asks for and are shown by the canonical text of the operand. -/
def Decodes (d : Descriptor) (xs : List String) (v : Int) (tail : Tail) : Prop :=
  ∃ c ∈ d.kind.choices, v = d.opcodeFor c ∧
    ∀ symbols bs, Linked symbols tail bs → bs.length = d.kind.extraBytes ∧
      ∃ texts, Shown symbols d.kind xs texts ∧
        Operation.operandTexts? ⟨v, d, c⟩ (numbers bs) = some texts

theorem decodes_named {d : Descriptor} (hk : d.kind.isNamed = true) {x : String} {e : Encoding}
    (h : encodeOperand .standard d x = .ok e) : Decodes d [x] e.opcode e.tail := by
  obtain ⟨mnemonic, code, kind, action, spacing⟩ := d
  replace hk : kind.isNamed = true := hk
  have hoperand : encodeOperand .standard ⟨mnemonic, code, kind, action, spacing⟩ x =
      resolve kind x >>= fun c =>
        .ok ⟨Descriptor.opcodeFor ⟨mnemonic, code, kind, action, spacing⟩ c, .bytes []⟩ := by
    cases kind <;> first | exact absurd hk (by decide) | rfl
  rw [hoperand] at h
  obtain ⟨c, hc, h⟩ := bind_ok h
  cases h
  obtain ⟨hmem, name, hname, hx⟩ := resolve_choice hc
  refine ⟨c, hmem, rfl, fun symbols bs hbs => ?_⟩
  cases hbs
  refine ⟨?_, [name], .named hk hmem hname hx, ?_⟩
  · cases kind <;> first | exact absurd hk (by decide) | rfl
  · have htexts (v : Int) : Operation.operandTexts?
        ⟨v, ⟨mnemonic, code, kind, action, spacing⟩, c⟩ (numbers []) =
          some c.name?.toList := by
      cases kind <;> first | exact absurd hk (by decide) | rfl
    rw [htexts, hname]
    rfl

/-- An operand of a row is built into its opcode or follows it, as its kind says, and is shown by
    its canonical text. -/
theorem encodeOperand_decoded {d : Descriptor} {xs : List String} {e : Encoding}
    (hcount : xs.length = d.kind.operandCount)
    (h : encodeOperand .standard d (xs.headD "") = .ok e) :
    Decodes d xs e.opcode e.tail := by
  obtain ⟨mnemonic, code, kind, action, spacing⟩ := d
  simp only at hcount
  cases kind with
  | none =>
      obtain rfl := List.length_eq_zero_iff.1 hcount
      cases h
      refine ⟨.absent, List.mem_singleton_self _, rfl, fun symbols bs hbs => ?_⟩
      cases hbs
      exact ⟨rfl, [], .absent, rfl⟩
  | byte =>
      obtain ⟨x, rfl⟩ := List.length_eq_one_iff.1 hcount
      obtain ⟨b, hx, h⟩ := bind_ok h
      cases h
      refine ⟨.absent, List.mem_singleton_self _, rfl, fun symbols bs hbs => ?_⟩
      cases hbs
      refine ⟨rfl, _, .byte hx, ?_⟩
      simp only [Operation.operandTexts?, numbers, List.map_cons, List.map_nil,
        Text.hex_two_byte]
  | word =>
      obtain ⟨x, rfl⟩ := List.length_eq_one_iff.1 hcount
      obtain ⟨w, hx, h⟩ := bind_ok h
      cases h
      refine ⟨.absent, List.mem_singleton_self _, rfl, fun symbols bs hbs => ?_⟩
      cases hbs
      refine ⟨rfl, _, .word hx, ?_⟩
      simp only [Operation.operandTexts?, numbers, List.map_cons, List.map_nil,
        joinBits_halves, Text.hex_four_word]
  | label =>
      obtain ⟨x, rfl⟩ := List.length_eq_one_iff.1 hcount
      cases h
      refine ⟨.absent, List.mem_singleton_self _, rfl, fun symbols bs hbs => ?_⟩
      cases hbs with
      | target hw =>
          refine ⟨rfl, _, .label hw, ?_⟩
          simp only [Operation.operandTexts?, numbers, List.map_cons, List.map_nil,
            joinBits_halves, Text.hex_four_word]
  | index =>
      obtain ⟨x, rfl⟩ := List.length_eq_one_iff.1 hcount
      obtain ⟨n, hx, h⟩ := bind_ok h
      cases h
      refine ⟨.index n, List.mem_map_of_mem (List.mem_finRange n), rfl,
        fun symbols bs hbs => ?_⟩
      cases hbs
      exact ⟨rfl, _, .index hx, rfl⟩
  | register | place | pairOrSp | pairOrPsw | pairBD =>
      obtain ⟨x, rfl⟩ := List.length_eq_one_iff.1 hcount
      exact decodes_named rfl h

/-- The text of an operation is made of the words of its mnemonic and its operands. -/
theorem text_make (e : Entry) (ns : List Int) (texts : List String)
    (hwords : e.descriptor.mnemonicWords ≠ []) :
    (Operation.make e ns texts).text =
      instructionText (e.descriptor.mnemonicWords ++ texts) := by
  obtain ⟨w, ws, hw⟩ := List.exists_cons_of_ne_nil hwords
  simp only [Operation.make, Operation.text, hw, List.headD_cons, List.tail_cons, List.cons_append]
  cases ws ++ texts <;> rfl

/-- The text of an operation that was decoded from bytes, when its operands are known. -/
theorem text_ofBytes {e : Entry} {bs : List Byte} {texts : List String}
    (hwords : e.descriptor.mnemonicWords ≠ [])
    (htexts : Operation.operandTexts? e (numbers bs) = some texts) :
    (Operation.ofBytes e bs).text = instructionText (e.descriptor.mnemonicWords ++ texts) := by
  change (Operation.make e (numbers bs)
    ((Operation.operandTexts? e (numbers bs)).getD [])).text = _
  rw [htexts, Option.getD_some]
  exact text_make _ _ _ hwords

/-- An instruction that was encoded is found again by its opcode, with its text. -/
theorem encode_decoded {m : String} {xs : List String} {e : Encoding} {opcode : Byte}
    (he : encode .standard Catalog.standard m xs = .ok e) (hop : byteOf? e.opcode = some opcode)
    {symbols : List (String × Word)} {bs : List Byte} (hbs : Linked symbols e.tail bs) :
    ∃ entry texts, Catalog.standard.opcode? opcode.toNat = some entry ∧
      entry.descriptor ∈ Instruction.table ∧ entry.descriptor.mnemonic = m ∧
      bs.length = entry.descriptor.kind.extraBytes ∧
      Shown symbols entry.descriptor.kind xs texts ∧
      (Operation.ofBytes entry bs).text = instructionText (upperWords m ++ texts) := by
  cases hm : Catalog.standard.mnemonic? m with
  | none => simp [encode, hm] at he
  | some d =>
      simp only [encode, hm] at he
      rw [Catalog.mnemonic?] at hm
      have hd : d ∈ Instruction.table := List.mem_of_find?_eq_some hm
      have hfound := List.find?_some hm
      obtain rfl : d.mnemonic = m := beq_iff_eq.1 hfound
      split at he
      · next hcount =>
          obtain ⟨c, hc, hopcode, hdecodes⟩ := encodeOperand_decoded hcount he
          obtain ⟨hlength, texts, hshown, htexts⟩ := hdecodes symbols bs hbs
          refine ⟨⟨e.opcode, d, c⟩, texts, ?_, hd, rfl, hlength, hshown, ?_⟩
          · rw [toNat_byteOf? hop, hopcode]
            exact opcode?_table d hd c hc
          · have hupper : upperWords d.mnemonic = d.mnemonicWords := rfl
            rw [hupper]
            exact text_ofBytes (mnemonicWords_table d hd) htexts
      · cases he

end Lab8085.Assembly
