/-
  Lab8085.Proofs.Assembler.Relocation

  The same source assembled for two origins.

  No line is looked at with the origin in hand: the draft of a source is the same for every
  origin, so that both assemblies fail, with the same error, or neither does
  (`compile_alike`).  The origin enters when targets are filled in.  Each label lies as far from
  its place for the other origin as the origins lie apart, modulo 65536, and only the words that
  follow the opcodes of jumps and calls name labels.

  Two assemblies of a source are compared line by line (`Moved`, `MovedLines`), and the lines are
  counted off along their offsets.
-/
import Lab8085.Proofs.Assembler.Joining

namespace Lab8085.Assembly

open Source

/-! ## Jumps and calls -/

/-- The opcodes of jumps and calls: `C3h` and `CDh`, and with a condition `11ccc010` and
    `11ccc100`. -/
def IsJumpOrCall (b : Byte) : Prop :=
  b = 0xC3 ∨ b = 0xCD ∨ b &&& 0xC7 = 0xC2 ∨ b &&& 0xC7 = 0xC4

instance (b : Byte) : Decidable (IsJumpOrCall b) :=
  inferInstanceAs (Decidable (_ ∨ _ ∨ _ ∨ _))

/-- Exactly the rows of jumps and calls take a label. -/
theorem label_iff_isJumpOrCall : ∀ d ∈ Instruction.table, ∀ x ∈ d.kind.choices,
    d.kind = .label ↔ IsJumpOrCall (BitVec.ofInt 8 (d.opcodeFor x)) := by
  decide +kernel

/-- The encoding of an operand leaves a target open exactly if the row asks for a label. -/
theorem encodeOperand_tail {limit : Number.DigitLimit} {d : Descriptor} {t : String} {e : Encoding}
    (h : encodeOperand limit d t = .ok e) :
    (∃ x ∈ d.kind.choices, e.opcode = d.opcodeFor x) ∧ e.tail.target? = targetOf d t := by
  obtain ⟨mnemonic, code, kind, action, spacing⟩ := d
  cases kind with
  | none | label =>
      cases h
      exact ⟨⟨.absent, List.mem_singleton_self _, rfl⟩, rfl⟩
  | byte | word =>
      obtain ⟨v, -, h⟩ := bind_ok h
      cases h
      exact ⟨⟨.absent, List.mem_singleton_self _, rfl⟩, rfl⟩
  | index =>
      obtain ⟨n, -, h⟩ := bind_ok h
      cases h
      exact ⟨⟨.index n, List.mem_map_of_mem (List.mem_finRange n), rfl⟩, rfl⟩
  | register | place | pairOrSp | pairOrPsw | pairBD =>
      obtain ⟨x, hx, h⟩ := bind_ok h
      cases h
      exact ⟨⟨x, (resolve_choice hx).1, rfl⟩, rfl⟩

namespace Body

variable {line : Line} {l : List Char}

/-- A line has one piece. -/
theorem unique {body body' : Option (Byte × Tail)} (h : Body line body) (h' : Body line body') :
    body = body' := by
  cases h with
  | empty hm =>
      cases h' with
      | empty => rfl
      | code hm' => cases hm.symm.trans hm'
  | code hm he hop =>
      cases h' with
      | empty hm' => cases hm.symm.trans hm'
      | code hm' he' hop' =>
          cases hm.symm.trans hm'
          cases he.symm.trans he'
          cases hop.symm.trans hop'
          rfl

/-- The row of an encoded line, and the label that the line names. -/
theorem row {opcode : Byte} {tail : Tail} (h : Body line (some (opcode, tail))) :
    ∃ d ∈ Instruction.table, line.mnemonic = some d.mnemonic ∧
      (d.kind = .label ↔ IsJumpOrCall opcode) ∧
      ∀ name, tail.target? = some name ↔ d.kind = .label ∧ line.operands = [name] := by
  cases h with
  | @code m e _ hm he hop =>
      cases hrow : Catalog.standard.mnemonic? m with
      | none => simp [encode, hrow] at he
      | some d =>
          simp only [encode, hrow] at he
          have hd : d ∈ Instruction.table := List.mem_of_find?_eq_some hrow
          rw [Catalog.mnemonic?] at hrow
          have hfound := List.find?_some hrow
          obtain rfl : d.mnemonic = m := beq_iff_eq.1 hfound
          split at he
          · next hcount =>
              obtain ⟨⟨x, hx, hopcode⟩, htarget⟩ := encodeOperand_tail he
              rw [hopcode, byteOf?_table d hd x hx] at hop
              cases hop
              refine ⟨d, hd, hm, label_iff_isJumpOrCall d hd x hx, fun name => ?_⟩
              rw [htarget, targetOf]
              by_cases hk : d.kind = .label
              · rw [hk] at hcount
                obtain ⟨t, ht⟩ := List.length_eq_one_iff.1 hcount
                rw [if_pos hk, ht, List.headD_cons, Option.some_inj, List.cons.injEq]
                exact ⟨fun h => ⟨hk, h, rfl⟩, fun h => h.2.1⟩
              · rw [if_neg hk]
                exact iff_of_false (Option.some_ne_none name).symm fun h => hk h.1
          · cases he

/-- A line refers to a label exactly if its piece waits for it. -/
theorem refers_iff {opcode : Byte} {tail : Tail} (hparse : Line.parse l = .ok line)
    (h : Body line (some (opcode, tail))) (name : String) :
    Refers l name ↔ tail.target? = some name := by
  obtain ⟨d, hd, hm, -, htarget⟩ := h.row
  rw [htarget]
  constructor
  · rintro ⟨line', hparse', row, hrow, hm', hk, hname⟩
    cases hparse.symm.trans hparse'
    -- a mnemonic has one row
    have hsame : row = d := by
      have hfound := mnemonic?_table row hrow
      rw [← Option.some.inj (hm.symm.trans hm'), mnemonic?_table d hd] at hfound
      exact (Option.some.inj hfound).symm
    rw [← hsame]
    exact ⟨hk, hname⟩
  · rintro ⟨hk, hname⟩
    exact ⟨line, hparse, d, hd, hm, hk, hname⟩

/-- A line without an instruction refers to nothing. -/
theorem not_refers (hparse : Line.parse l = .ok line) (h : Body line none) (name : String) :
    ¬Refers l name := by
  cases h with
  | empty hm =>
      rintro ⟨line', hparse', d, -, hm', -⟩
      cases hparse.symm.trans hparse'
      cases hm.symm.trans hm'

end Body

/-! ## Two assemblies side by side -/

/-- The word at a place of some code, its lower byte first. -/
def wordAt? (code : List Byte) (i : Nat) : Option Word := do
  return joinBytes (← code[i + 1]?) (← code[i]?)

theorem getElem?_behind (bs code : List Byte) (i : Nat) :
    (bs ++ code)[bs.length + i]? = code[i]? := by
  rw [List.getElem?_append_right (Nat.le_add_right _ _), Nat.add_sub_cancel_left]

theorem wordAt?_behind (bs code : List Byte) (i : Nat) :
    wordAt? (bs ++ code) (bs.length + i) = wordAt? code i := by
  rw [wordAt?, wordAt?, Nat.add_assoc, getElem?_behind, getElem?_behind]

/-- The bytes of a line for two origins that lie `shift` apart. -/
inductive Moved (shift : Word) (l : List Char) : List Byte → List Byte → Prop
  | fixed {bs : List Byte} (h : ∀ name, ¬Refers l name) : Moved shift l bs bs
  | target {name : String} {opcode : Byte} {w : Word} (h : Refers l name)
      (hop : IsJumpOrCall opcode) : Moved shift l
        [opcode, lowByte w, highByte w] [opcode, lowByte (w + shift), highByte (w + shift)]

/-- The bytes of some lines for two origins, with the offsets at which the lines begin. -/
inductive MovedLines (shift : Word) :
    Nat → List (List Char) → List Nat → List Byte → List Byte → Prop
  | nil {offset : Nat} : MovedLines shift offset [] [] [] []
  | cons {offset : Nat} {l : List Char} {ls : List (List Char)} {offsets : List Nat}
      {bs bs' code code' : List Byte} (hline : Moved shift l bs bs')
      (h : MovedLines shift (offset + bs.length) ls offsets code code') :
      MovedLines shift offset (l :: ls) (offset :: offsets) (bs ++ code) (bs' ++ code')

section Moved

variable {shift : Word} {symbols symbols' : List (String × Word)}

theorem Moved.length_eq {l : List Char} {bs bs' : List Byte} (h : Moved shift l bs bs') :
    bs'.length = bs.length := by
  cases h <;> rfl

/-- The bytes of a piece are moved as the symbols are. -/
theorem LinkedPiece.moved {l : List Char} {line : Line} {body : Option (Byte × Tail)}
    {bs bs' : List Byte} (hparse : Line.parse l = .ok line) (hbody : Body line body)
    (hsymbols : ∀ name w, symbols.lookup name = some w → symbols'.lookup name = some (w + shift))
    (h : LinkedPiece symbols body bs) (h' : LinkedPiece symbols' body bs') :
    Moved shift l bs bs' := by
  cases h with
  | empty =>
      cases h'
      exact .fixed (hbody.not_refers hparse)
  | code htail =>
      cases h' with
      | code htail' =>
          cases htail with
          | bytes bs =>
              cases htail'
              refine .fixed fun name hrefers => ?_
              cases (hbody.refers_iff hparse name).1 hrefers
          | @target label w hw =>
              cases htail' with
              | target hw' =>
                  cases (hsymbols label w hw).symm.trans hw'
                  obtain ⟨d, -, -, hlabel, htarget⟩ := hbody.row
                  exact .target ((hbody.refers_iff hparse label).2 rfl)
                    (hlabel.1 ((htarget label).1 rfl).1)

/-- Lines are laid out alike, and each is moved. -/
theorem Coded.moved {offset : Nat} {ls : List (List Char)} {offsets offsets' : List Nat}
    {code code' : List Byte}
    (hsymbols : ∀ name w, symbols.lookup name = some w → symbols'.lookup name = some (w + shift))
    (h : Coded symbols offset ls offsets code) (h' : Coded symbols' offset ls offsets' code') :
    offsets' = offsets ∧ MovedLines shift offset ls offsets code code' := by
  induction h generalizing offsets' code' with
  | nil =>
      cases h'
      exact ⟨rfl, .nil⟩
  | cons hparse hbody hbytes _ ih =>
      cases h' with
      | cons hparse' hbody' hbytes' hrest' =>
          cases hparse.symm.trans hparse'
          cases hbody.unique hbody'
          have hline := hbytes.moved hparse hbody hsymbols hbytes'
          rw [hline.length_eq] at hrest'
          obtain ⟨rfl, hlines⟩ := ih hrest'
          exact ⟨rfl, .cons hline hlines⟩

/-- Bytes of a line that differ stand behind its opcode, and the line refers to a label. -/
theorem Moved.differs {l : List Char} {bs bs' : List Byte} (h : Moved shift l bs bs') {k : Nat}
    (hk : bs'[k]? ≠ bs[k]?) : (∃ name, Refers l name) ∧ (k = 1 ∨ k = 2) := by
  cases h with
  | fixed => exact absurd rfl hk
  | target hrefers =>
      refine ⟨⟨_, hrefers⟩, ?_⟩
      match k with
      | 0 => exact absurd rfl hk
      | 1 => exact .inl rfl
      | 2 => exact .inr rfl
      | k + 3 => exact absurd rfl hk

namespace MovedLines

variable {offset : Nat} {ls : List (List Char)} {offsets : List Nat} {code code' : List Byte}

theorem length_eq (h : MovedLines shift offset ls offsets code code') :
    code'.length = code.length := by
  induction h with
  | nil => rfl
  | cons hline _ ih => rw [List.length_append, List.length_append, ih, hline.length_eq]

/-- A line that refers to a label is a jump or a call, and the word after its opcode is moved. -/
theorem word_moved (h : MovedLines shift offset ls offsets code code') {i : Nat} {name : String}
    (hrefers : RefersAt ls i name) :
    ∃ k opcode w, offsets[i]? = some (offset + k) ∧ IsJumpOrCall opcode ∧
      code[k]? = some opcode ∧ code'[k]? = some opcode ∧
      wordAt? code (k + 1) = some w ∧ wordAt? code' (k + 1) = some (w + shift) := by
  induction h generalizing i with
  | nil =>
      obtain ⟨l, hl, -⟩ := hrefers
      cases hl
  | @cons offset l ls offsets bs bs' code code' hline _ ih =>
      cases i with
      | zero =>
          rw [refersAt_zero] at hrefers
          cases hline with
          | fixed hnone => exact absurd hrefers (hnone name)
          | @target _ opcode w _ hop => exact ⟨0, opcode, w, rfl, hop, rfl, rfl,
              congrArg some (joinBytes_high_low w), congrArg some (joinBytes_high_low (w + shift))⟩
      | succ i =>
          obtain ⟨k, opcode, w, hk, hop, hcode, hcode', hword, hword'⟩ := ih (refersAt_succ.1 hrefers)
          refine ⟨bs.length + k, opcode, w, ?_, hop, ?_, ?_, ?_, ?_⟩
          · rw [List.getElem?_cons_succ, hk, Nat.add_assoc]
          · rw [getElem?_behind, hcode]
          · rw [← hline.length_eq, getElem?_behind, hcode']
          · rw [Nat.add_assoc, wordAt?_behind, hword]
          · rw [← hline.length_eq, Nat.add_assoc, wordAt?_behind, hword']

/-- Bytes that differ stand behind the opcode of a line that refers to a label. -/
theorem differs (h : MovedLines shift offset ls offsets code code') {k : Nat}
    (hk : code'[k]? ≠ code[k]?) :
    ∃ i name first, RefersAt ls i name ∧ offsets[i]? = some first ∧
      (offset + k = first + 1 ∨ offset + k = first + 2) := by
  induction h generalizing k with
  | nil => exact absurd rfl hk
  | @cons offset l ls offsets bs bs' code code' hline _ ih =>
      by_cases hin : k < bs.length
      · rw [List.getElem?_append_left (hline.length_eq ▸ hin), List.getElem?_append_left hin] at hk
        obtain ⟨⟨name, hrefers⟩, hplace⟩ := hline.differs hk
        exact ⟨0, name, offset, refersAt_zero.2 hrefers, rfl, by omega⟩
      · obtain ⟨j, rfl⟩ := Nat.exists_eq_add_of_le (Nat.le_of_not_lt hin)
        rw [getElem?_behind, ← hline.length_eq, getElem?_behind] at hk
        obtain ⟨i, name, first, hrefers, hfirst, hplace⟩ := ih hk
        exact ⟨i + 1, name, first, refersAt_succ.2 hrefers, hfirst, by omega⟩

end MovedLines

end Moved

/-! ## Sources -/

section Sources

variable {d : Draft}

/-- Whether a piece is linked, and why not, does not depend on the origin. -/
theorem linkPiece_alike (origin origin' : Int) (number : Nat) (p : Piece) :
    (∃ e, linkPiece origin d number p = .error e ∧ linkPiece origin' d number p = .error e) ∨
    ∃ bs bs', linkPiece origin d number p = .ok bs ∧ linkPiece origin' d number p = .ok bs' := by
  obtain ⟨offset, body⟩ := p
  rcases body with - | ⟨opcode, bs | label⟩
  · exact .inr ⟨_, _, rfl, rfl⟩
  · exact .inr ⟨_, _, rfl, rfl⟩
  · simp only [linkPiece]
    cases d.offset? label with
    | none => exact .inl ⟨_, rfl, rfl⟩
    | some o => exact .inr ⟨_, _, rfl, rfl⟩

theorem linkPieces_alike (origin origin' : Int) (number : Nat) (ps : List Piece) :
    (∃ e, linkPieces origin d number ps = .error e ∧
      linkPieces origin' d number ps = .error e) ∨
    ∃ bs bs', linkPieces origin d number ps = .ok bs ∧
      linkPieces origin' d number ps = .ok bs' := by
  induction ps generalizing number with
  | nil => exact .inr ⟨[], [], rfl, rfl⟩
  | cons p ps ih =>
      rw [linkPieces, linkPieces]
      obtain ⟨e, h, h'⟩ | ⟨xs, xs', h, h'⟩ := linkPiece_alike origin origin' number p
      · exact .inl ⟨e, by rw [h]; rfl, by rw [h']; rfl⟩
      obtain ⟨e, hrest, hrest'⟩ | ⟨ys, ys', hrest, hrest'⟩ := ih (number + 1)
      · exact .inl ⟨e, by rw [h, hrest]; rfl, by rw [h', hrest']; rfl⟩
      · exact .inr ⟨xs ++ ys, xs' ++ ys', by rw [h, hrest]; rfl, by rw [h', hrest']; rfl⟩

theorem link_ok {origin : Int} {code : List Byte}
    (h : linkPieces origin d 0 d.pieces.reverse = .ok code) :
    link origin d = .ok ⟨code, d.pieces.reverse.map Piece.offset,
      d.labels.map fun l => (l.1, place origin l.2)⟩ := by
  simp only [link, bind, Except.bind, pure, Except.pure, h]

theorem link_error {origin : Int} {e : AssemblyError}
    (h : linkPieces origin d 0 d.pieces.reverse = .error e) : link origin d = .error e := by
  simp only [link, bind, Except.bind, h]

/-- A source fails for every origin with the same error, or for none. -/
theorem compile_alike (source : String) (origin origin' : Int) :
    (∃ e, compile source origin = .error e ∧ compile source origin' = .error e) ∨
    ∃ (labels : List (String × Nat)) (a a' : Assembly),
      compile source origin = .ok a ∧ compile source origin' = .ok a' ∧
      a.symbols = labels.map (fun l => (l.1, place origin l.2)) ∧
      a'.symbols = labels.map (fun l => (l.1, place origin' l.2)) := by
  simp only [compile, compileWith]
  cases draft .standard Catalog.standard source with
  | error e => exact .inl ⟨e, rfl, rfl⟩
  | ok d =>
      obtain ⟨e, h, h'⟩ | ⟨code, code', h, h'⟩ :=
        linkPieces_alike (d := d) origin origin' 0 d.pieces.reverse
      · exact .inl ⟨e, link_error h, link_error h'⟩
      · exact .inr ⟨d.labels, _, _, link_ok h, link_ok h', rfl, rfl⟩

/-- The place of an offset moves with the origin. -/
theorem place_shift (origin origin' : Int) (offset : Nat) :
    place origin' offset = place origin offset + BitVec.ofInt 16 (origin' - origin) := by
  rw [place, place, ← BitVec.ofInt_add]
  congr 1
  omega

end Sources

/-- What an assembly `b` of some lines has in common with `a`, and how it lies `shift` further on.
    The lines begin at the same offsets.  Labels are moved, and so are the words behind the opcodes
    of the lines that refer to labels, which are jumps and calls; all other bytes are the same. -/
structure Relocated (ls : List (List Char)) (shift : Word) (a b : Assembly) : Prop where
  offsets : b.offsets = a.offsets
  length : b.code.length = a.code.length
  symbols : b.symbols = a.symbols.map fun s => (s.1, s.2 + shift)
  word {i : Nat} {name : String} (h : RefersAt ls i name) : ∃ offset opcode w,
    a.offsets[i]? = some offset ∧ IsJumpOrCall opcode ∧
    a.code[offset]? = some opcode ∧ b.code[offset]? = some opcode ∧
    wordAt? a.code (offset + 1) = some w ∧ wordAt? b.code (offset + 1) = some (w + shift)
  differs {k : Nat} (h : b.code[k]? ≠ a.code[k]?) : ∃ i name offset,
    RefersAt ls i name ∧ a.offsets[i]? = some offset ∧ (k = offset + 1 ∨ k = offset + 2)

/-- Assembled for two origins, a source fails with the same error, or one assembly is the other
    moved by the distance of the origins, modulo 65536. -/
theorem compile_relocated (source : String) (origin origin' : Int) :
    (∃ e, compile source origin = .error e ∧ compile source origin' = .error e) ∨
    ∃ a b, compile source origin = .ok a ∧ compile source origin' = .ok b ∧
      Relocated (Text.lines source.toList) (BitVec.ofInt 16 (origin' - origin)) a b := by
  obtain hfails | ⟨labels, a, b, ha, hb, hsymbols, hsymbols'⟩ := compile_alike source origin origin'
  · exact .inl hfails
  refine .inr ⟨a, b, ha, hb, ?_⟩
  have hmoved : ∀ name w, a.symbols.lookup name = some w →
      b.symbols.lookup name = some (w + BitVec.ofInt 16 (origin' - origin)) := by
    intro name w hw
    rw [hsymbols, lookup_symbols] at hw
    obtain ⟨offset, hoffset, rfl⟩ := Option.map_eq_some_iff.1 hw
    rw [hsymbols', lookup_symbols, hoffset, ← place_shift]
    rfl
  obtain ⟨hoffsets, hlines⟩ := (compile_coded ha).moved hmoved (compile_coded hb)
  refine ⟨hoffsets, hlines.length_eq, ?_, fun h => ?_, fun h => ?_⟩
  · rw [hsymbols, hsymbols', List.map_map]
    exact List.map_congr_left fun l _ => congrArg (Prod.mk l.1) (place_shift origin origin' l.2)
  · obtain ⟨offset, opcode, w, hoffset, hrest⟩ := hlines.word_moved h
    rw [Nat.zero_add] at hoffset
    exact ⟨offset, opcode, w, hoffset, hrest⟩
  · obtain ⟨i, name, offset, hrefers, hoffset, hplace⟩ := hlines.differs h
    rw [Nat.zero_add] at hplace
    exact ⟨i, name, offset, hrefers, hoffset, hplace⟩

/-- The word behind `jnz` carries into its upper byte and wraps; the bytes of `lxi` stay. -/
example :
    compile "lxi h, 1234h
back: dcr a
jnz back" 0x00FC =
      .ok ⟨[0x21, 0x34, 0x12, 0x3D, 0xC2, 0xFF, 0x00], [0, 3, 4], [("back", 0x00FF)]⟩ ∧
    compile "lxi h, 1234h
back: dcr a
jnz back" (-4) =
      .ok ⟨[0x21, 0x34, 0x12, 0x3D, 0xC2, 0xFF, 0xFF], [0, 3, 4], [("back", 0xFFFF)]⟩ := by
  decide +kernel

end Lab8085.Assembly
