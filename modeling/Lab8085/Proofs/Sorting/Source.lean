/-
  Lab8085.Proofs.Sorting.Source

  A sorting program: its source, the statements that the source writes down, and its code.

  The two counters are written in the source as numerals, of which it does not matter how they
  are spelled.  So the source is not assembled by evaluation: it is the plain text of a program
  (`sortSource_text`), whose draft is known, and only the link of that draft is evaluated.
-/
import Lab8085.Proofs.Assembler.Compile
import Lab8085.Proofs.Assembler.Printing

namespace Lab8085.Sorting

open Assembly Text

/-- The source of a bubble sort of the bytes from 3000h on. The counters of both loops are one less
    than the number of bytes. -/
def sortSource (outer inner : String) : String :=
  "MVI B, " ++ outer ++ "\n" ++ "START:\nLXI H, 3000H\n" ++
  "MVI C, " ++ inner ++ "\n" ++ "BACK:\nMOV A, M\nINX H\nCMP M\nJC SKIP\nJZ SKIP\n" ++
  "MOV D, M\nMOV M, A\nDCX H\nMOV M, D\nINX H\n" ++
  "SKIP:\nDCR C\nJNZ BACK\nDCR B\nJNZ START\nHLT\n"

/-! ## Statements -/

/-- A line with a label. -/
def labelled (name : String) : Statement where
  label := some name.toList

/-- A line with an instruction. -/
def saying (row : Descriptor) (x : Argument) : Statement where
  instruction := some ⟨row, x⟩

/-- The counter of the outer loop. -/
def outerLine (numeral : List Char) : Statement :=
  saying ⟨"mvi b", 0x06, .byte, .move (.register .b), 1⟩ (.literal numeral)

/-- The counter of the inner loop. -/
def innerLine (numeral : List Char) : Statement :=
  saying ⟨"mvi c", 0x0E, .byte, .move (.register .c), 1⟩ (.literal numeral)

/-- The lines between the counters. -/
def startLines : Program :=
  [labelled "START",
   saying ⟨"lxi h", 0x21, .word, .loadPair .h, 1⟩ (.literal "3000H".toList)]

/-- The lines behind the counters. -/
def loopLines : Program :=
  [labelled "BACK",
   saying ⟨"mov a", 0x78, .place, .move (.register .a), 1⟩ (.choice (.place .memory)),
   saying ⟨"inx", 0x03, .pairOrSp, .incrementPair, 1⟩ (.choice (.pair .h)),
   saying ⟨"cmp", 0xB8, .place, .compare, 1⟩ (.choice (.place .memory)),
   saying ⟨"jc", 0xDA, .label, .jump (.on .c), 1⟩ (.label "SKIP".toList),
   saying ⟨"jz", 0xCA, .label, .jump (.on .z), 1⟩ (.label "SKIP".toList),
   saying ⟨"mov d", 0x50, .place, .move (.register .d), 1⟩ (.choice (.place .memory)),
   saying ⟨"mov m", 0x70, .register, .move .memory, 1⟩ (.choice (.place (.register .a))),
   saying ⟨"dcx", 0x0B, .pairOrSp, .decrementPair, 1⟩ (.choice (.pair .h)),
   saying ⟨"mov m", 0x70, .register, .move .memory, 1⟩ (.choice (.place (.register .d))),
   saying ⟨"inx", 0x03, .pairOrSp, .incrementPair, 1⟩ (.choice (.pair .h)),
   labelled "SKIP",
   saying ⟨"dcr", 0x05, .place, .decrement, 8⟩ (.choice (.place (.register .c))),
   saying ⟨"jnz", 0xC2, .label, .jump (.off .z), 1⟩ (.label "BACK".toList),
   saying ⟨"dcr", 0x05, .place, .decrement, 8⟩ (.choice (.place (.register .b))),
   saying ⟨"jnz", 0xC2, .label, .jump (.off .z), 1⟩ (.label "START".toList),
   saying ⟨"hlt", 0x76, .none, .halt, 1⟩ .absent]

/-- What the source says. -/
def sortProgram (outer inner : List Char) : Program :=
  outerLine outer :: (startLines ++ innerLine inner :: loopLines)

theorem text_startLines : startLines.text = "START:\nLXI H, 3000H\n".toList := by
  decide

theorem text_loopLines : loopLines.text =
    "BACK:\nMOV A, M\nINX H\nCMP M\nJC SKIP\nJZ SKIP\n".toList ++
      ("MOV D, M\nMOV M, A\nDCX H\nMOV M, D\nINX H\n".toList ++
        "SKIP:\nDCR C\nJNZ BACK\nDCR B\nJNZ START\nHLT\n".toList) := by
  decide +kernel

/-- A mnemonic of two words has a comma before its numeral. -/
theorem text_saying_literal {row : Descriptor} (h : ' ' ∈ row.mnemonic.toList)
    (numeral : List Char) : (saying row (.literal numeral)).text =
      row.mnemonic.toList.map Char.toUpper ++ ([',', ' '] ++ numeral) := by
  simp only [saying, Statement.text, Option.elim, List.nil_append, Instr.text, Argument.text?,
    if_pos h]

theorem text_outerLine (numeral : List Char) :
    (outerLine numeral).text = "MVI B, ".toList ++ numeral := by
  have hrow : "mvi b".toList.map Char.toUpper ++ [',', ' '] = "MVI B, ".toList := by decide
  rw [outerLine, text_saying_literal (by decide), ← hrow, List.append_assoc]

theorem text_innerLine (numeral : List Char) :
    (innerLine numeral).text = "MVI C, ".toList ++ numeral := by
  have hrow : "mvi c".toList.map Char.toUpper ++ [',', ' '] = "MVI C, ".toList := by decide
  rw [innerLine, text_saying_literal (by decide), ← hrow, List.append_assoc]

/-- The source is the plain text of what it says. -/
theorem sortSource_text (outer inner : String) :
    (sortSource outer inner).toList = (sortProgram outer.toList inner.toList).text := by
  have hbreak : ['\n'] = "\n".toList := by decide
  have htext : (sortProgram outer.toList inner.toList).text =
      (outerLine outer.toList).text ++ ['\n'] ++ (startLines.text ++
        ((innerLine inner.toList).text ++ ['\n'] ++ loopLines.text)) := by
    simp only [sortProgram, Program.text, List.flatMap_cons, List.flatMap_append]
  rw [htext, text_outerLine, text_startLines, text_innerLine, text_loopLines, hbreak]
  delta sortSource
  simp only [String.toList_append, List.append_assoc]

/-! ## Numerals -/

/-- A text without blanks that is read as a number. -/
structure Numeral (t : String) (n : Nat) : Prop where
  visible : ∀ c ∈ t.toList, isBlank c = false
  value : Source.Literal.read t = .ok n

theorem Numeral.isNumber {t : String} {n : Nat} (h : Numeral t n) : IsNumber t.toList := by
  refine ⟨h.visible, n, ?_⟩
  rw [String.ofList_toList]
  exact h.value

theorem Numeral.numberOf_eq {t : String} {n : Nat} (h : Numeral t n) : numberOf t.toList = n := by
  rw [numberOf, String.ofList_toList, h.value]
  rfl

/-- Every number that fits into a byte has a numeral. -/
theorem exists_numeral {n : Nat} (h : n < 256) : ∃ t, Numeral t n := by
  let b : Byte := BitVec.ofNat 8 n
  have hb : b.toNat = n := by
    rw [BitVec.toNat_ofNat, Nat.mod_eq_of_lt h]
  have hread := Source.Literal.read_hexByte b
  rw [hb] at hread
  refine ⟨String.ofList (hexByte b ++ ['h']), ?_, hread⟩
  rw [String.toList_ofList]
  intro c hc
  exact isBlank_of_isNameChar (Source.Literal.isNameChar_shownHex 2 b.toNat c hc)

/-! ## Code -/

/-- The code of the sorting program for address 0, given its counters. -/
def sortCode (outer inner : Byte) : List Byte :=
  [0x06, outer,            -- 00        MVI B
   0x21, 0x00, 0x30,       -- 02 START: LXI H
   0x0E, inner,            -- 05        MVI C
   0x7E,                   -- 07 BACK:  MOV A, M
   0x23,                   -- 08        INX H
   0xBE,                   -- 09        CMP M
   0xDA, 0x15, 0x00,       -- 0A        JC SKIP
   0xCA, 0x15, 0x00,       -- 0D        JZ SKIP
   0x56,                   -- 10        MOV D, M
   0x77,                   -- 11        MOV M, A
   0x2B,                   -- 12        DCX H
   0x72,                   -- 13        MOV M, D
   0x23,                   -- 14        INX H
   0x0D,                   -- 15 SKIP:  DCR C
   0xC2, 0x07, 0x00,       -- 16        JNZ BACK
   0x05,                   -- 19        DCR B
   0xC2, 0x02, 0x00,       -- 1A        JNZ START
   0x76]                   -- 1D        HLT

/-- Its assembly. -/
def sortAssembly (outer inner : Byte) : Assembly where
  code := sortCode outer inner
  offsets := [0, 2, 2, 5, 7, 7, 8, 9, 10, 13, 16, 17, 18, 19, 20, 21, 21, 22, 25, 26, 29]
  symbols := [("start", 0x0002), ("back", 0x0007), ("skip", 0x0015)]

/-! ## The source is assembled -/

/-- Whether an argument other than a literal is one for a kind. -/
def fits (kind : OperandKind) : Argument → Bool
  | .absent => kind = .none
  | .choice x => kind.isNamed && decide (x ∈ kind.choices)
  | .label n => kind = .label && n ≠ [] && n.all isNameChar
  | .literal _ => false

/-- Whether a statement without a literal is legal. -/
def checks (s : Statement) : Bool :=
  s.label.all (fun n => n ≠ [] && n.all isNameChar) &&
    s.instruction.all fun i => decide (i.row ∈ Instruction.table) && fits i.row.kind i.argument

theorem legal_of_fits {kind : OperandKind} {x : Argument} (h : fits kind x = true) :
    x.Legal kind := by
  cases x with
  | absent =>
      obtain rfl : kind = .none := of_decide_eq_true h
      exact .absent
  | choice x =>
      simp only [fits, Bool.and_eq_true, decide_eq_true_eq] at h
      exact .named h.1 h.2
  | label n =>
      simp only [fits, Bool.and_eq_true, decide_eq_true_eq] at h
      obtain ⟨⟨rfl, hne⟩, hname⟩ := h
      exact .label ⟨hne, List.all_eq_true.1 hname⟩
  | literal t => exact absurd h Bool.false_ne_true

theorem legal_of_checks {s : Statement} (h : checks s = true) : s.Legal := by
  rw [checks, Bool.and_eq_true] at h
  refine ⟨fun n hn => ?_, fun i hi => ?_⟩
  · have hname := h.1
    rw [hn, Option.all_some, Bool.and_eq_true, decide_eq_true_eq] at hname
    exact ⟨hname.1, List.all_eq_true.1 hname.2⟩
  · have hlegal := h.2
    rw [hi, Option.all_some, Bool.and_eq_true, decide_eq_true_eq] at hlegal
    exact ⟨hlegal.1, legal_of_fits hlegal.2⟩

/-- A line with a literal. -/
theorem legal_literal {row : Descriptor} {t : List Char} (hrow : row ∈ Instruction.table)
    (ht : (Argument.literal t).Legal row.kind) : (saying row (.literal t)).Legal := by
  refine ⟨fun n hn => (nomatch hn), fun i hi => ?_⟩
  obtain rfl := Option.some.inj hi
  exact ⟨hrow, ht⟩

theorem legal_sortProgram {outer inner : List Char} (houter : IsNumber outer)
    (hinner : IsNumber inner) : ∀ s ∈ sortProgram outer inner, s.Legal := by
  have hdata : IsNumber "3000H".toList :=
    ⟨forall_mem_of_all (by decide), 0x3000, by decide +kernel⟩
  have hloop : loopLines.all checks = true := by decide +kernel
  intro s hs
  simp only [sortProgram, startLines, List.cons_append, List.nil_append, List.mem_cons] at hs
  rcases hs with rfl | rfl | rfl | rfl | hs
  · exact legal_literal (by decide +kernel) (.byte houter)
  · exact legal_of_checks (by decide)
  · exact legal_literal (by decide +kernel) (.word hdata)
  · exact legal_literal (by decide +kernel) (.byte hinner)
  · exact legal_of_checks (List.all_eq_true.1 hloop s hs)

/-- The labels that the source defines, with their offsets. -/
theorem offset?_label (outer inner : List Char) :
    ∀ x ∈ [("START".toList, 0x02), ("BACK".toList, 0x07), ("SKIP".toList, 0x15)],
      (Draft.extend {} (sortProgram outer inner)).offset? (String.ofList (fold x.1)) =
        some x.2 := by
  have hlookup : ∀ x ∈ [("START".toList, 0x02), ("BACK".toList, 0x07), ("SKIP".toList, 0x15)],
      List.lookup (String.ofList (fold x.1)) [("start", 0x02), ("back", 0x07), ("skip", 0x15)] =
        some x.2 := by
    decide
  exact hlookup

/-- The names of the labels that a statement jumps to. -/
def targets (s : Statement) : List (List Char) :=
  match s.instruction with
  | some ⟨_, .label n⟩ => [n]
  | _ => []

theorem targets_sortProgram (outer inner : List Char) :
    (sortProgram outer inner).flatMap targets =
      ["SKIP".toList, "SKIP".toList, "BACK".toList, "START".toList] := rfl

/-- The code of the statements, given the addresses of labels. -/
theorem bytes_sortProgram (outer inner : List Char) (address : List Char → Word) :
    (sortProgram outer inner).flatMap (Statement.bytes address) =
      let start := address "START".toList
      let back := address "BACK".toList
      let skip := address "SKIP".toList
      let data := BitVec.ofNat 16 (numberOf "3000H".toList)
      [0x06, BitVec.ofNat 8 (numberOf outer), 0x21, lowByte data, highByte data, 0x0E,
        BitVec.ofNat 8 (numberOf inner), 0x7E, 0x23, 0xBE, 0xDA, lowByte skip, highByte skip, 0xCA,
        lowByte skip, highByte skip, 0x56, 0x77, 0x2B, 0x72, 0x23, 0x0D, 0xC2, lowByte back,
        highByte back, 0x05, 0xC2, lowByte start, highByte start, 0x76] := rfl

/-- The draft of the source is linked to the code. -/
theorem link_sortProgram {outer inner : List Char}
    (hlegal : ∀ s ∈ sortProgram outer inner, s.Legal) :
    link 0 (Draft.extend {} (sortProgram outer inner)) =
      .ok (sortAssembly (BitVec.ofNat 8 (numberOf outer)) (BitVec.ofNat 8 (numberOf inner))) := by
  let d := Draft.extend {} (sortProgram outer inner)
  let address (n : List Char) : Word := place 0 ((d.offset? (String.ofList (fold n))).getD 0)
  have hlabel {n : List Char} {o : Nat}
      (h : (n, o) ∈ [("START".toList, 0x02), ("BACK".toList, 0x07), ("SKIP".toList, 0x15)]) :
      d.offset? (String.ofList (fold n)) = some o ∧ place 0 o = address n := by
    have hoffset := offset?_label outer inner _ h
    refine ⟨hoffset, ?_⟩
    show place 0 o = place 0 ((d.offset? (String.ofList (fold n))).getD 0)
    rw [hoffset, Option.getD_some]
  have hstart := hlabel (n := "START".toList) (.head _)
  have hback := hlabel (n := "BACK".toList) (.tail _ (.head _))
  have hskip := hlabel (n := "SKIP".toList) (.tail _ (.tail _ (.head _)))
  have htargets : ∀ s ∈ sortProgram outer inner, ∀ i ∈ s.instruction, ∀ n,
      i.argument = .label n →
        ∃ o, d.offset? (String.ofList (fold n)) = some o ∧ place 0 o = address n := by
    intro s hs i hi n hn
    have hmem : n ∈ (sortProgram outer inner).flatMap targets := by
      refine List.mem_flatMap.2 ⟨s, hs, ?_⟩
      obtain ⟨row, x⟩ := i
      cases hn
      rw [targets, hi]
      exact List.mem_singleton_self n
    simp only [targets_sortProgram, List.mem_cons, List.not_mem_nil, or_false] at hmem
    rcases hmem with rfl | rfl | rfl | rfl
    · exact ⟨_, hskip⟩
    · exact ⟨_, hskip⟩
    · exact ⟨_, hback⟩
    · exact ⟨_, hstart⟩
  have hdata : numberOf "3000H".toList = 0x3000 := by decide +kernel
  have hcode : linkPieces 0 (Draft.extend {} (sortProgram outer inner)) 0
      ((sortProgram outer inner).piecesFrom 0) =
        .ok (sortCode (BitVec.ofNat 8 (numberOf outer)) (BitVec.ofNat 8 (numberOf inner))) := by
    have h := linkPieces_program hlegal htargets 0 0
    rw [bytes_sortProgram, ← hstart.2, ← hback.2, ← hskip.2, hdata] at h
    exact h
  have hpieces : (Draft.extend {} (sortProgram outer inner)).pieces.reverse =
      (sortProgram outer inner).piecesFrom 0 := by
    rw [Draft.extend, List.append_nil, List.reverse_reverse]
  simp only [link, bind, Except.bind, hpieces, hcode, Program.offset_piecesFrom]
  rfl

/-- Whatever numerals the counters are written with, the source has this code. -/
theorem compile_sortSource {outer inner : String} {j k : Nat} (houter : Numeral outer j)
    (hinner : Numeral inner k) :
    compile (sortSource outer inner) 0 =
      .ok (sortAssembly (BitVec.ofNat 8 j) (BitVec.ofNat 8 k)) := by
  let p := sortProgram outer.toList inner.toList
  have hlegal : ∀ s ∈ p, s.Legal := legal_sortProgram houter.isNumber hinner.isNumber
  have hwritten : p.Written (sortSource outer inner).toList := by
    rw [sortSource_text]
    exact Program.written_text fun s hs => (hlegal s hs).2
  have hnew : ((({} : Draft).labels.map Prod.fst) ++ p.defined.map String.ofList).Nodup := by
    have hdefined : p.defined = ["start".toList, "back".toList, "skip".toList] := rfl
    rw [hdefined]
    decide
  have hdraft : draft .standard Catalog.standard (sortSource outer inner) =
      .ok (Draft.extend {} p) := addLines_written hwritten hlegal 0 {} hnew
  rw [compile, compileWith, hdraft, ← houter.numberOf_eq, ← hinner.numberOf_eq]
  exact link_sortProgram hlegal

end Lab8085.Sorting
