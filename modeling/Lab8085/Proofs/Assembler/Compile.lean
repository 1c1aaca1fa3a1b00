/-
  Lab8085.Proofs.Assembler.Compile

  Compiling a written program gives its reference encoding.

  The induction is on the lines.  Its invariant says what a draft holds after some
  statements: the sum of their sizes, their labels with the places where they begin,
  and one piece for each.  Labels that are defined later play no part until all lines
  are done; then every target is looked up in the complete list, so that forward and
  backward references are linked alike.
-/
import Lab8085.Proofs.Assembler.Line

namespace Lab8085.Assembly

open Text Source

/-! ## One instruction -/

theorem mnemonic?_table : ∀ d ∈ Instruction.table,
    Catalog.standard.mnemonic? d.mnemonic = some d := by
  decide +kernel

/-- Every opcode of the table is a byte. -/
theorem byteOf?_table : ∀ d ∈ Instruction.table, ∀ x ∈ d.kind.choices,
    byteOf? (d.opcodeFor x) = some (BitVec.ofInt 8 (d.opcodeFor x)) := by
  decide +kernel

/-- The names of the choices of a kind tell them apart. -/
theorem choiceOf?_name {kind : OperandKind} (hk : kind.isNamed = true) : ∀ x ∈ kind.choices,
    choiceOf? kind (String.ofList (fold (x.name?.getD "").toList)) = some x := by
  cases kind <;> first | exact absurd hk (by decide) | decide +kernel

namespace Instr

/-- What follows the opcode before targets are known. -/
def tail (i : Instr) : Tail :=
  match i.row.kind, i.argument with
  | .byte, .literal t => .bytes [BitVec.ofNat 8 (numberOf t)]
  | .word, .literal t =>
    .bytes [lowByte (BitVec.ofNat 16 (numberOf t)), highByte (BitVec.ofNat 16 (numberOf t))]
  | .label, .label n => .target (String.ofList (fold n))
  | _, _ => .bytes []

variable {i : Instr}

/-- The operand in the opcode is one that the row expands to. -/
theorem Legal.choice_mem (h : i.Legal) : i.choice ∈ i.row.kind.choices := by
  obtain ⟨row, argument⟩ := i
  obtain ⟨-, h⟩ := h
  simp only at h
  simp only [choice]
  generalize row.kind = kind at h
  cases h with
  | absent | byte | word | label => exact List.mem_singleton_self _
  | index =>
      simp only [OperandKind.choices, List.mem_map]
      exact ⟨_, List.mem_finRange _, rfl⟩
  | named hk hx =>
      cases kind <;> exact hx

theorem Legal.byteOf? (h : i.Legal) :
    byteOf? (i.row.opcodeFor i.choice) = some i.opcode :=
  byteOf?_table i.row h.1 _ h.choice_mem

/-- Numbers are read alike in any letter case. -/
theorem read_fold {t : List Char} (h : IsNumber t) :
    Literal.read (String.ofList (fold t)) = .ok (numberOf t) := by
  obtain ⟨hv, n, hn⟩ := h
  have hf : Literal.read (String.ofList (fold t)) = .ok n := Literal.read_toLower hv hn
  rw [hf, numberOf, hn]
  rfl

theorem readByte_fold {t : List Char} (h : IsNumber t) :
    Literal.readByte (String.ofList (fold t)) = .ok (BitVec.ofNat 8 (numberOf t)) := by
  rw [Literal.readByte, read_fold h]
  rfl

theorem readWord_fold {t : List Char} (h : IsNumber t) :
    Literal.readWord (String.ofList (fold t)) = .ok (BitVec.ofNat 16 (numberOf t)) := by
  rw [Literal.readWord, read_fold h]
  rfl

theorem readIndex_fold {t : List Char} (h : IsIndex t) :
    Literal.readIndex (String.ofList (fold t)) = .ok (indexOf t) := by
  obtain ⟨hv, n, hn⟩ := h
  have hf : fold t = t := Literal.map_toLower_of_digits (Literal.digits_of_readIndex hv hn).2
  rw [hf, indexOf, hn]
  rfl

theorem resolve_name {kind : OperandKind} (hk : kind.isNamed = true) {x : Choice}
    (hx : x ∈ kind.choices) {n : String} (hn : x.name? = some n) :
    resolve kind (String.ofList (fold n.toList)) = .ok x := by
  have h := choiceOf?_name hk x hx
  rw [hn, Option.getD_some] at h
  rw [resolve, h]

/-- A legal instruction is encoded by the formula of its row, its label left open. -/
theorem Legal.encode (h : i.Legal) :
    encode .standard Catalog.standard i.row.mnemonic
        (i.argument.text?.toList.map fun a => String.ofList (fold a)) =
      .ok ⟨i.row.opcodeFor i.choice, i.tail⟩ := by
  obtain ⟨row, argument⟩ := i
  obtain ⟨hrow, h⟩ := h
  simp only at hrow h
  simp only [Assembly.encode, mnemonic?_table row hrow]
  generalize hk : row.kind = kind at h
  cases h with
  | absent => simp [Argument.text?, OperandKind.operandCount, encodeOperand, hk, choice, tail,
      Descriptor.opcodeFor]
  | byte hn => simp [Argument.text?, OperandKind.operandCount, encodeOperand, hk, choice, tail,
      Descriptor.opcodeFor, readByte_fold hn]
  | word hn => simp [Argument.text?, OperandKind.operandCount, encodeOperand, hk, choice, tail,
      Descriptor.opcodeFor, readWord_fold hn]
  | index hn => simp [Argument.text?, OperandKind.operandCount, encodeOperand, hk, choice, tail,
      Descriptor.opcodeFor, readIndex_fold hn]
  | label hn => simp [Argument.text?, OperandKind.operandCount, encodeOperand, hk, choice, tail,
      Descriptor.opcodeFor]
  | @named _ x hnamed hx =>
      -- the name is looked up among the choices of the kind, which finds the choice again
      obtain ⟨n, hname, -⟩ := isName_of_choice hnamed x hx
      have hr := resolve_name hnamed hx hname
      cases kind <;> first | exact absurd hnamed (by decide) |
        simp [Argument.text?, hname, OperandKind.operandCount, encodeOperand, hk, choice, tail, hr]

end Instr

/-! ## Statements and drafts -/

/-- What a statement adds to a draft whose code ends at `offset`. -/
def Statement.piece (offset : Nat) (s : Statement) : Piece :=
  ⟨offset, s.instruction.map fun i => (i.opcode, i.tail)⟩

namespace Program

/-- The pieces of the statements, first to last. -/
def piecesFrom (offset : Nat) : Program → List Piece
  | [] => []
  | s :: p => s.piece offset :: piecesFrom (offset + s.size) p

/-- How many bytes a program has. -/
def size : Program → Nat
  | [] => 0
  | s :: p => s.size + size p

end Program

/-- A label as drafts keep it. -/
def entry (l : List Char × Nat) : String × Nat :=
  (String.ofList l.1, l.2)

/-- The draft after the statements of a program. -/
def Draft.extend (d : Draft) (p : Program) : Draft where
  offset := d.offset + p.size
  labels := d.labels ++ (p.labelsFrom d.offset).map entry
  pieces := (p.piecesFrom d.offset).reverse ++ d.pieces

theorem Instr.Legal.length_tail {i : Instr} (h : i.Legal) : 1 + i.tail.length = i.row.length := by
  obtain ⟨row, argument⟩ := i
  obtain ⟨-, h⟩ := h
  simp only at h
  simp only [tail, Descriptor.length]
  generalize row.kind = kind at h
  cases h with
  | absent | byte | word | index | label => rfl
  | named hk hx => cases kind <;> first | exact absurd hk (by decide) | rfl

theorem Statement.Legal.length_piece {s : Statement} (h : s.Legal) (offset : Nat) :
    (s.piece offset).length = s.size := by
  cases hi : s.instruction with
  | none => simp [piece, Piece.length, size, hi]
  | some i =>
      have hl := (h.2 i hi).length_tail
      simp [piece, Piece.length, size, hi, hl]

/-- A written statement adds its label, its piece and its size. -/
theorem addLine_written {s : Statement} {t : List Char} (hs : s.Legal) (h : s.Written t)
    (number : Nat) {d : Draft}
    (hnew : ∀ n ∈ s.label, d.offset? (String.ofList (fold n)) = none) :
    addLine .standard Catalog.standard number d t = .ok {
      offset := d.offset + s.size
      labels := d.labels ++ s.label.toList.map fun n => (String.ofList (fold n), d.offset)
      pieces := s.piece d.offset :: d.pieces } := by
  have hdefine : d.define s.parts.label = .ok { d with
      labels := d.labels ++ s.label.toList.map fun n => (String.ofList (fold n), d.offset) } := by
    cases hl : s.label with
    | none => simp [Statement.parts, hl, Draft.define]
    | some n => simp [Statement.parts, hl, Draft.define, hnew n hl]
  have hlength := hs.length_piece d.offset
  rw [addLine, h.parse hs]
  cases hi : s.instruction with
  | none =>
      have hm : s.parts.mnemonic = none := by simp [Statement.parts, hi]
      have hp : s.piece d.offset = ⟨d.offset, none⟩ := by simp [Statement.piece, hi]
      simp only [bind, Except.bind, hdefine, hm, pure, Except.pure]
      rw [hp] at hlength ⊢
      rw [Draft.push, hlength]
  | some i =>
      have hm : s.parts.mnemonic = some i.row.mnemonic := by simp [Statement.parts, hi]
      have ho : s.parts.operands =
          i.argument.text?.toList.map fun a => String.ofList (fold a) := by
        simp [Statement.parts, hi]
      have hp : s.piece d.offset = ⟨d.offset, some (i.opcode, i.tail)⟩ := by
        simp [Statement.piece, hi]
      have hi := hs.2 i hi
      simp only [bind, Except.bind, hdefine, hm, pure, Except.pure, ho, hi.encode, hi.byteOf?]
      rw [hp] at hlength ⊢
      rw [Draft.push, hlength]

theorem offset?_eq_none {d : Draft} {label : String} (h : label ∉ d.labels.map Prod.fst) :
    d.offset? label = none := by
  rw [Draft.offset?, List.lookup_eq_none_iff]
  intro p hp
  rw [bne_iff_ne]
  intro he
  exact h (he ▸ List.mem_map_of_mem hp)

/-- The lines of a written program extend a draft by the program, whatever the draft is. -/
theorem addLines_written {p : Program} {text : List Char} (h : p.Written text)
    (hs : ∀ s ∈ p, s.Legal) (number : Nat) (d : Draft)
    (hnew : (d.labels.map Prod.fst ++ p.defined.map String.ofList).Nodup) :
    addLines .standard Catalog.standard number d (lines text) = .ok (d.extend p) := by
  induction h generalizing number d with
  | nil => simp [lines_nil, addLines, Draft.extend, Program.size, Program.labelsFrom,
      Program.piecesFrom]
  | @cons s p t r hst hp ih =>
      have hl : s.Legal := hs s List.mem_cons_self
      have hdefined : Program.defined (s :: p) = s.label.toList.map fold ++ p.defined := by
        cases hn : s.label <;> simp [Program.defined, hn]
      rw [hdefined, List.map_append, ← List.append_assoc] at hnew
      -- labels of the draft and of the whole program are distinct, so this one is new
      have hfresh : ∀ n ∈ s.label, d.offset? (String.ofList (fold n)) = none := by
        intro n hn
        apply offset?_eq_none
        intro hmem
        have hdis := (List.nodup_append.1 (List.nodup_append.1 hnew).1).2.2
        refine hdis _ hmem (String.ofList (fold n)) ?_ rfl
        exact List.mem_map_of_mem (List.mem_map_of_mem (Option.mem_toList.2 hn))
      rw [lines_append_lineFeed (hst.isLineBreak hl), addLines, addLine_written hl hst number hfresh]
      simp only [bind, Except.bind]
      rw [ih fun s' hs' => hs s' (List.mem_cons_of_mem _ hs')]
      · simp [Draft.extend, Program.size, Program.labelsFrom, Program.piecesFrom, entry,
          Nat.add_assoc, Function.comp_def]
      · simpa [List.map_append, List.map_map, Function.comp_def] using hnew

/-! ## Linking -/

/-- Keeping labels as texts changes no look-up. -/
theorem lookup_entry (ls : List (List Char × Nat)) (name : List Char) :
    (ls.map entry).lookup (String.ofList name) = ls.lookup name := by
  induction ls with
  | nil => rfl
  | cons l ls ih =>
      obtain ⟨n, offset⟩ := l
      rw [List.map_cons, entry, List.lookup_cons, List.lookup_cons, ih]
      have he : (String.ofList name == String.ofList n) = (name == n) := by
        rw [Bool.eq_iff_iff, beq_iff_eq, beq_iff_eq]
        exact ⟨fun e => String.ofList_injective e, fun e => by rw [e]⟩
      rw [he]

/-- The places of the defined labels are known. -/
theorem Program.lookup_isSome {p : Program} {name : List Char} (h : name ∈ p.defined)
    (offset : Nat) : ((p.labelsFrom offset).lookup name).isSome = true := by
  -- whatever the places are, the labels are those that the program defines
  have hkeys : ∀ (p : Program) (offset : Nat),
      (p.labelsFrom offset).map Prod.fst = p.defined := by
    intro p
    induction p with
    | nil => intro offset; rfl
    | cons s p ih =>
        intro offset
        rw [Program.labelsFrom, List.map_append, ih]
        cases hn : s.label <;> simp [Program.defined, hn]
  rw [Option.isSome_iff_ne_none]
  intro hnone
  rw [List.lookup_eq_none_iff] at hnone
  rw [← hkeys p offset] at h
  obtain ⟨l, hl, rfl⟩ := List.mem_map.1 h
  simpa using hnone l hl

theorem Program.offset_piecesFrom (p : Program) (offset : Nat) :
    (p.piecesFrom offset).map Piece.offset = p.offsetsFrom offset := by
  induction p generalizing offset with
  | nil => rfl
  | cons s p ih =>
      rw [Program.piecesFrom, Program.offsetsFrom, List.map_cons, ih]
      rfl

section Link

variable {d : Draft} {origin : Int} {address : List Char → Word}

/-- A piece is linked to the bytes of its statement once its target is known. -/
theorem linkPiece_statement {s : Statement} (hs : s.Legal)
    (ht : ∀ i ∈ s.instruction, ∀ n, i.argument = .label n →
      ∃ o, d.offset? (String.ofList (fold n)) = some o ∧ place origin o = address n)
    (offset number : Nat) :
    linkPiece origin d number (s.piece offset) = .ok (s.bytes address) := by
  cases hi : s.instruction with
  | none => simp [linkPiece, Statement.piece, Statement.bytes, hi]
  | some i =>
      have hl := hs.2 i hi
      replace ht := ht i hi
      simp only [linkPiece, Statement.piece, Statement.bytes, hi, Option.map_some,
        Option.elim_some, Instr.bytes]
      obtain ⟨row, argument⟩ := i
      obtain ⟨-, hl⟩ := hl
      simp only at hl ht
      simp only [Instr.tail, Instr.operandBytes]
      generalize row.kind = kind at hl
      cases hl with
      | absent | byte | word | index => rfl
      | @label n hn =>
          obtain ⟨o, ho, ha⟩ := ht n rfl
          simp only [ho, ha]
      | named hk hx => cases kind <;> first | exact absurd hk (by decide) | rfl

theorem linkPieces_program {p : Program} (hs : ∀ s ∈ p, s.Legal)
    (ht : ∀ s ∈ p, ∀ i ∈ s.instruction, ∀ n, i.argument = .label n →
      ∃ o, d.offset? (String.ofList (fold n)) = some o ∧ place origin o = address n)
    (offset number : Nat) :
    linkPieces origin d number (p.piecesFrom offset) =
      .ok (p.flatMap (Statement.bytes address)) := by
  induction p generalizing offset number with
  | nil => rfl
  | cons s p ih =>
      rw [Program.piecesFrom, linkPieces,
        linkPiece_statement (hs s List.mem_cons_self) (ht s List.mem_cons_self)]
      simp only [bind, Except.bind]
      rw [ih (fun s' hs' => hs s' (List.mem_cons_of_mem _ hs'))
        (fun s' hs' => ht s' (List.mem_cons_of_mem _ hs')), List.flatMap_cons]
      rfl

end Link

/-! ## Whole programs -/

/-- **The assembler is correct.**  Every text that writes a well-formed program compiles, for
    every origin, to the reference encoding of the program: its bytes, the place of every line
    and the address of every label. -/
theorem compile_written {p : Program} (hp : p.WellFormed) {text : List Char}
    (h : p.Written text) (origin : Int) :
    compile (String.ofList text) origin = .ok (p.assembly origin) := by
  have hs : ∀ s ∈ p, s.Legal := fun s hm => ⟨hp.names s hm, hp.legal s hm⟩
  have hnew : ((({} : Draft).labels.map Prod.fst) ++ p.defined.map String.ofList).Nodup := by
    rw [List.map_nil, List.nil_append]
    exact List.Pairwise.map String.ofList
      (fun a b hab he => hab (String.ofList_injective he)) hp.distinct
  have hdraft := addLines_written h hs 0 {} hnew
  have hlabels : (Draft.extend {} p).labels = (p.labelsFrom 0).map entry := by
    rw [Draft.extend, List.nil_append]
  have hpieces : (Draft.extend {} p).pieces.reverse = p.piecesFrom 0 := by
    rw [Draft.extend, List.append_nil, List.reverse_reverse]
  have htargets : ∀ s ∈ p, ∀ i ∈ s.instruction, ∀ n, i.argument = .label n →
      ∃ o, (Draft.extend {} p).offset? (String.ofList (fold n)) = some o ∧
        place origin o = p.addressOf origin n := by
    intro s hm i hi n hn
    obtain ⟨o, ho⟩ := Option.isSome_iff_exists.1
      (Program.lookup_isSome (hp.targets s hm i hi n hn) 0)
    refine ⟨o, ?_, ?_⟩
    · rw [Draft.offset?, hlabels, lookup_entry, ho]
    · rw [place, Program.addressOf, ho, Option.getD_some]
  -- the draft is complete: its pieces are linked in order
  have hcode := linkPieces_program hs htargets 0 0
  rw [compile, compileWith, draft, String.toList_ofList, hdraft]
  simp only [bind, Except.bind, link, hpieces, hcode, hlabels, Program.offset_piecesFrom,
    List.map_map]
  rfl

/-- A program with a reference ahead, a label on a line of its own and a negative origin: its
    addresses wrap below zero. -/
def countdown : Program :=
  [{ label := some "LOOP".toList,
     instruction := some ⟨⟨"dcr", 0x05, .place, .decrement, 8⟩, .choice (.place (.register .a))⟩ },
   { instruction := some ⟨⟨"jz", 0xCA, .label, .jump (.on .z), 1⟩, .label "Done".toList⟩ },
   { instruction := some ⟨⟨"mvi b", 0x06, .byte, .move (.register .b), 1⟩,
       .literal "0aH".toList⟩ },
   { label := some "done".toList }]

/-- A careless way of writing it down. -/
def countdownText : List Char :=
  "Loop :Dcr  a ; next: jump\n jZ,\tDONE\nmvi \tB, 0Ah ;\n\tdonE:\n".toList

theorem countdown_wellFormed : countdown.WellFormed where
  names := by
    intro s hs n hn
    have key : ∀ s ∈ countdown, s.label.all (fun n => n ≠ [] && n.all isNameChar) = true := by
      decide +kernel
    have h := key s hs
    rw [hn] at h
    simpa [IsName] using h
  legal := by
    intro s hs i hi
    simp only [countdown, List.mem_cons, List.not_mem_nil, or_false] at hs
    rcases hs with rfl | rfl | rfl | rfl
    · obtain rfl := Option.some.inj hi
      exact ⟨by decide +kernel, .named rfl (by decide)⟩
    · obtain rfl := Option.some.inj hi
      exact ⟨by decide +kernel, .label ⟨by decide, forall_mem_of_all (by decide)⟩⟩
    · obtain rfl := Option.some.inj hi
      exact ⟨by decide +kernel, .byte ⟨forall_mem_of_all (by decide), 10, by decide +kernel⟩⟩
    · simp at hi
  distinct := by decide
  targets := by
    intro s hs i hi n hn
    simp only [countdown, List.mem_cons, List.not_mem_nil, or_false] at hs
    rcases hs with rfl | rfl | rfl | rfl
    · obtain rfl := Option.some.inj hi
      simp at hn
    · obtain rfl := Option.some.inj hi
      obtain rfl := Argument.label.inj hn
      decide
    · obtain rfl := Option.some.inj hi
      simp at hn
    · simp at hi

theorem countdown_written : countdown.Written countdownText := by
  have hgap : ∀ g ∈ ["".toList, " ".toList, "  ".toList, "\t".toList, " \t".toList], IsGap g := by
    intro g hg
    have key : ∀ g ∈ ["".toList, " ".toList, "  ".toList, "\t".toList, " \t".toList],
        g.all (fun c => decide (c = ' ' ∨ c = '\t')) = true := by
      decide
    exact forall_mem_of_all (key g hg)
  have h₁ : Spelled "dcr".toList "Dcr".toList :=
    .letter (by decide) (by decide) (.letter (by decide) (by decide)
      (.letter (by decide) (by decide) .nil))
  have h₂ : Spelled "jz".toList "jZ".toList :=
    .letter (by decide) (by decide) (.letter (by decide) (by decide) .nil)
  have h₃ : Spelled "mvi b".toList "mvi \tB".toList :=
    .letter (by decide) (by decide) (.letter (by decide) (by decide)
      (.letter (by decide) (by decide) (.space (g := " \t".toList) (hgap _ (by decide))
        (by decide) (.letter (by decide) (by decide) .nil))))
  have htext : countdownText =
      "Loop :Dcr  a ; next: jump".toList ++ '\n' :: (" jZ,\tDONE".toList ++ '\n' ::
        ("mvi \tB, 0Ah ;".toList ++ '\n' :: ("\tdonE:".toList ++ '\n' :: []))) := by
    decide
  rw [htext]
  refine .cons ?_ (.cons ?_ (.cons ?_ (.cons ?_ .nil)))
  · refine ⟨"Loop :".toList, "Dcr  a ".toList, "; next: jump".toList,
      ⟨"".toList, "Loop".toList, " ".toList, hgap _ (by decide), hgap _ (by decide), by decide,
        by decide⟩,
      ⟨"".toList, _, " ".toList, hgap _ (by decide), hgap _ (by decide),
        .gap (a := "A".toList) (g := "  ".toList) (t := "a".toList) rfl h₁ (by decide)
          (hgap _ (by decide)) (by decide) (by decide), by decide⟩,
      Or.inr ⟨" next: jump".toList, by decide, forall_mem_of_all (by decide)⟩, by decide⟩
  · refine ⟨"".toList, " jZ,\tDONE".toList, "".toList, rfl,
      ⟨" ".toList, _, "".toList, hgap _ (by decide), hgap _ (by decide),
        .comma (a := "Done".toList) (g := "".toList) (k := "\t".toList) (t := "DONE".toList) rfl
          h₂ (hgap _ (by decide)) (hgap _ (by decide)) (by decide), by decide⟩,
      Or.inl (by decide), by decide⟩
  · refine ⟨"".toList, "mvi \tB, 0Ah ".toList, ";".toList, rfl,
      ⟨"".toList, _, " ".toList, hgap _ (by decide), hgap _ (by decide),
        .comma (a := "0aH".toList) (g := "".toList) (k := " ".toList) (t := "0Ah".toList) rfl
          h₃ (hgap _ (by decide)) (hgap _ (by decide)) (by decide), by decide⟩,
      Or.inr ⟨"".toList, by decide, forall_mem_of_all (by decide)⟩, by decide⟩
  · exact ⟨"\tdonE:".toList, "".toList, "".toList,
      ⟨"\t".toList, "donE".toList, "".toList, hgap _ (by decide), hgap _ (by decide), by decide,
        by decide⟩,
      hgap _ (by decide), Or.inl (by decide), by decide⟩

/-- The assembly of that text for the origin -3. -/
theorem compile_countdown :
    countdown.WellFormed ∧ countdown.Written countdownText ∧
      compile (String.ofList countdownText) (-3) = .ok {
        code := [0x3D, 0xCA, 0x03, 0x00, 0x06, 0x0A]
        offsets := [0, 1, 4, 6]
        symbols := [("loop", 0xFFFD), ("done", 0x0003)] } := by
  refine ⟨countdown_wellFormed, countdown_written, ?_⟩
  rw [compile_written countdown_wellFormed countdown_written]
  decide +kernel

end Lab8085.Assembly
