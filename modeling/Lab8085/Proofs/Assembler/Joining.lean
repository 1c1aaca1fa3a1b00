/-
  Lab8085.Proofs.Assembler.Joining

  Sources that assemble one behind the other assemble together.

  The draft of the whole is the draft of the first source with that of the second joined to it
  (`Draft.join`): what the second has at an offset stands as many bytes further on as the first
  has code.  The labels of the first are in the way of no line of the second, since no label is
  defined in both, so every line of the second does the same to the joined draft
  (`addLines_join`).

  Targets are filled in at the end.  Those of the first source find the labels that they found
  before, with the same offsets; those of the second find their offsets moved, and come to the
  same addresses because the second source was assembled for an origin moved as far.
-/
import Lab8085.Proofs.Assembler.Diagnosis
import Mathlib.Algebra.GroupWithZero.Nat

namespace Lab8085.Assembly

open Source

/-! ## Joined drafts -/

/-- A piece `n` bytes further on. -/
def Piece.shift (n : Nat) (p : Piece) : Piece :=
  { p with offset := n + p.offset }

/-- A label `n` bytes further on. -/
def shiftLabel (n : Nat) (l : String × Nat) : String × Nat :=
  (l.1, n + l.2)

/-- A draft with the lines of another behind its own. -/
def Draft.join (d e : Draft) : Draft where
  offset := d.offset + e.offset
  labels := d.labels ++ e.labels.map (shiftLabel d.offset)
  pieces := e.pieces.map (Piece.shift d.offset) ++ d.pieces

theorem lookup_shiftLabel (n : Nat) (labels : List (String × Nat)) (name : String) :
    (labels.map (shiftLabel n)).lookup name = (labels.lookup name).map (n + ·) := by
  induction labels with
  | nil => rfl
  | cons l ls ih =>
      rw [List.map_cons, List.lookup_cons, List.lookup_cons, ih, shiftLabel]
      cases name == l.1 <;> rfl

namespace Draft

variable {d e e' : Draft}

theorem join_new (d : Draft) : d.join {} = d := by
  rw [join, List.map_nil, List.append_nil]
  rfl

theorem mem_of_offset? {name : String} {offset : Nat} (h : d.offset? name = some offset) :
    name ∈ d.names := by
  by_contra hnot
  rw [offset?_eq_none hnot] at h
  cases h

/-- What the first part defines stays where it is. -/
theorem offset?_join_left {name : String} {offset : Nat} (h : d.offset? name = some offset)
    (e : Draft) : (d.join e).offset? name = some offset := by
  rw [offset?, join, List.lookup_append, ← offset?, h]
  rfl

/-- What only the second part defines is moved. -/
theorem offset?_join_right {name : String} (h : name ∉ d.names) (e : Draft) :
    (d.join e).offset? name = (e.offset? name).map (d.offset + ·) := by
  rw [offset?, join, List.lookup_append, ← offset?, offset?_eq_none h, lookup_shiftLabel]
  rfl

theorem define_join {label : Option String} (h : ∀ name ∈ label, name ∉ d.names)
    (hdefine : e.define label = .ok e') : (d.join e).define label = .ok (d.join e') := by
  cases label with
  | none =>
      cases hdefine
      rfl
  | some name =>
      rw [define] at hdefine
      cases hoffset : e.offset? name with
      | some offset =>
          rw [hoffset] at hdefine
          cases hdefine
      | none =>
          rw [hoffset] at hdefine
          cases hdefine
          rw [define, offset?_join_right (h name rfl), hoffset]
          simp [join, shiftLabel]

theorem push_join (d e : Draft) (body : Option (Byte × Tail)) :
    (d.join e).push body = d.join (e.push body) := by
  simp [join, push, Piece.shift, Piece.length, Nat.add_assoc]

/-- Lines only add labels. -/
theorem define_labels {label : Option String} (h : d.define label = .ok e) :
    ∃ xs, e.labels = d.labels ++ xs ∧ ∀ name ∈ label, name ∈ xs.map Prod.fst := by
  cases label with
  | none =>
      cases h
      exact ⟨[], (List.append_nil _).symm, nofun⟩
  | some name =>
      rw [define] at h
      split at h
      · cases h
      · cases h
        refine ⟨[(name, d.offset)], rfl, ?_⟩
        intro _ hname
        cases hname
        exact List.mem_singleton_self _

end Draft

variable {limit : Number.DigitLimit} {catalog : Catalog}

/-- A line that is accepted defines its label and adds its piece. -/
theorem addLine_ok {number : Nat} {d d' : Draft} {l : List Char}
    (h : addLine limit catalog number d l = .ok d') :
    ∃ line d₁ body, Line.parse l = .ok line ∧ d.define line.label = .ok d₁ ∧
      d' = d₁.push body ∧ ∀ (n : Nat) (e e₁ : Draft), e.define line.label = .ok e₁ →
        addLine limit catalog n e l = .ok (e₁.push body) := by
  cases hparse : Line.parse l with
  | error e => cases h.symm.trans (addLine_of_parse_error hparse)
  | ok line =>
      cases hdefine : d.define line.label with
      | error e => cases h.symm.trans (addLine_of_define_error hparse hdefine)
      | ok d₁ =>
          refine ⟨line, d₁, ?_⟩
          cases hm : line.mnemonic with
          | none =>
              cases h.symm.trans (addLine_of_no_mnemonic hparse hdefine hm)
              exact ⟨none, rfl, hdefine, rfl, fun n e e₁ he => addLine_of_no_mnemonic hparse he hm⟩
          | some m =>
              cases hencode : encode limit catalog m line.operands with
              | error e => cases h.symm.trans (addLine_of_encode_error hparse hdefine hm hencode)
              | ok x =>
                  cases hop : byteOf? x.opcode with
                  | none =>
                      simp only [addLine, bind, Except.bind, pure, Except.pure, hparse, hdefine,
                        hm, hencode, hop] at h
                      cases h
                  | some opcode =>
                      cases h.symm.trans (addLine_of_encode hparse hdefine hm hencode hop)
                      exact ⟨some (opcode, x.tail), rfl, hdefine, rfl, fun n e e₁ he =>
                        addLine_of_encode hparse he hm hencode hop⟩

/-- A line only adds a label. -/
theorem labels_of_addLine {number : Nat} {d d' : Draft} {l : List Char}
    (h : addLine limit catalog number d l = .ok d') : ∃ xs, d'.labels = d.labels ++ xs := by
  obtain ⟨line, d₁, body, -, hdefine, rfl, -⟩ := addLine_ok h
  obtain ⟨xs, hxs, -⟩ := Draft.define_labels hdefine
  exact ⟨xs, hxs⟩

theorem labels_of_addLines {number : Nat} {d d' : Draft} {ls : List (List Char)}
    (h : addLines limit catalog number d ls = .ok d') : ∃ xs, d'.labels = d.labels ++ xs := by
  induction ls generalizing number d with
  | nil =>
      cases h
      exact ⟨[], (List.append_nil _).symm⟩
  | cons l ls ih =>
      obtain ⟨d₁, hline, hlines⟩ := bind_ok h
      obtain ⟨xs, hxs⟩ := labels_of_addLine hline
      obtain ⟨ys, hys⟩ := ih hlines
      exact ⟨xs ++ ys, by rw [hys, hxs, List.append_assoc]⟩

/-- A line does the same behind a draft that does not define its label. -/
theorem addLine_join {d e e' : Draft} {number : Nat} {l : List Char}
    (h : addLine limit catalog number e l = .ok e') (hd : ∀ name ∈ e'.names, name ∉ d.names)
    (number' : Nat) : addLine limit catalog number' (d.join e) l = .ok (d.join e') := by
  obtain ⟨line, e₁, body, -, hdefine, rfl, hline⟩ := addLine_ok h
  obtain ⟨xs, hxs, hlabel⟩ := Draft.define_labels hdefine
  have hnew : ∀ name ∈ line.label, name ∉ d.names := by
    intro name hname
    refine hd name ?_
    show name ∈ e₁.labels.map Prod.fst
    rw [hxs, List.map_append]
    exact List.mem_append_right _ (hlabel name hname)
  rw [← Draft.push_join]
  exact hline number' _ _ (Draft.define_join hnew hdefine)

/-- So do lines. -/
theorem addLines_join {d e e' : Draft} {number : Nat} {ls : List (List Char)}
    (h : addLines limit catalog number e ls = .ok e') (hd : ∀ name ∈ e'.names, name ∉ d.names)
    (number' : Nat) : addLines limit catalog number' (d.join e) ls = .ok (d.join e') := by
  induction ls generalizing number number' e with
  | nil =>
      cases h
      rfl
  | cons l ls ih =>
      obtain ⟨e₁, hline, hlines⟩ := bind_ok h
      obtain ⟨xs, hxs⟩ := labels_of_addLines hlines
      have hd₁ : ∀ name ∈ e₁.names, name ∉ d.names := by
        intro name hname
        refine hd name ?_
        rw [Draft.names, hxs, List.map_append]
        exact List.mem_append_left _ hname
      rw [addLines, addLine_join hline hd₁]
      exact ih hlines (number' + 1)

theorem addLines_append (number : Nat) (d : Draft) (ls ls' : List (List Char)) :
    addLines limit catalog number d (ls ++ ls') =
      addLines limit catalog number d ls >>= fun d' =>
        addLines limit catalog (number + ls.length) d' ls' := by
  induction ls generalizing number d with
  | nil => rfl
  | cons l ls ih =>
      rw [List.cons_append, addLines, addLines]
      cases addLine limit catalog number d l with
      | error e => rfl
      | ok d' =>
          simp only [bind, Except.bind]
          rw [ih, List.length_cons, Nat.add_right_comm, Nat.add_assoc]
          rfl

/-! ## Sizes -/

/-- A draft ends where its pieces end, and has one for each line. -/
structure Draft.Measured (d : Draft) (lines : Nat) : Prop where
  offset : d.offset = (d.pieces.map Piece.length).sum
  count : d.pieces.length = lines

theorem measured_addLine {number n : Nat} {d d' : Draft} {l : List Char} (hd : d.Measured n)
    (h : addLine limit catalog number d l = .ok d') : d'.Measured (n + 1) := by
  obtain ⟨line, d₁, body, -, hdefine, rfl, -⟩ := addLine_ok h
  obtain ⟨hoffset, hpieces⟩ := define_same hdefine
  refine ⟨?_, ?_⟩
  · rw [Draft.push, List.map_cons, List.sum_cons, hpieces, ← hd.offset, hoffset, Nat.add_comm]
  · rw [Draft.push, List.length_cons, hpieces, hd.count]

theorem measured_addLines {number n : Nat} {d d' : Draft} {ls : List (List Char)}
    (hd : d.Measured n) (h : addLines limit catalog number d ls = .ok d') :
    d'.Measured (n + ls.length) := by
  induction ls generalizing number n d with
  | nil =>
      cases h
      exact hd
  | cons l ls ih =>
      obtain ⟨d₁, hline, hlines⟩ := bind_ok h
      have h₁ := ih (measured_addLine hd hline) hlines
      rwa [Nat.add_assoc, Nat.add_comm 1] at h₁

/-! ## Linking -/

theorem linkPieces_append {origin : Int} {d : Draft} {number : Nat} {ps qs : List Piece}
    {bs cs : List Byte} (hps : linkPieces origin d number ps = .ok bs)
    (hqs : linkPieces origin d (number + ps.length) qs = .ok cs) :
    linkPieces origin d number (ps ++ qs) = .ok (bs ++ cs) := by
  induction ps generalizing number bs with
  | nil =>
      cases hps
      exact hqs
  | cons p ps ih =>
      obtain ⟨xs, hp, h⟩ := bind_ok hps
      obtain ⟨ys, hrest, h⟩ := bind_ok h
      cases h
      rw [List.length_cons, Nat.add_comm ps.length 1, ← Nat.add_assoc] at hqs
      rw [List.cons_append, linkPieces, hp, List.append_assoc]
      simp only [bind, Except.bind, ih hrest hqs]
      rfl

/-- Linked pieces have the bytes that they are laid out for. -/
theorem length_linkPieces {origin : Int} {d : Draft} {number : Nat} {ps : List Piece}
    {bs : List Byte} (h : linkPieces origin d number ps = .ok bs) :
    bs.length = (ps.map Piece.length).sum := by
  induction ps generalizing number bs with
  | nil =>
      cases h
      rfl
  | cons p ps ih =>
      obtain ⟨xs, hp, h⟩ := bind_ok h
      obtain ⟨ys, hps, h⟩ := bind_ok h
      cases h
      rw [List.length_append, (linkPiece_linked hp).length, ih hps, List.map_cons, List.sum_cons]

theorem linkPiece_join_left {origin : Int} {d : Draft} {number : Nat} {p : Piece}
    {bs : List Byte} (h : linkPiece origin d number p = .ok bs) (e : Draft) (number' : Nat) :
    linkPiece origin (d.join e) number' p = .ok bs := by
  obtain ⟨offset, body⟩ := p
  rcases body with - | ⟨opcode, xs | label⟩
  · exact h
  · exact h
  · cases hlabel : d.offset? label with
    | none =>
        simp only [linkPiece, hlabel] at h
        cases h
    | some o =>
        simp only [linkPiece, hlabel] at h
        simp only [linkPiece, Draft.offset?_join_left hlabel, h]

/-- An offset behind `n` bytes of code has the address that it has alone when the origin is moved
    by as many. -/
theorem place_add (origin : Int) (n offset : Nat) :
    place origin (n + offset) = place (origin + n) offset := by
  rw [place, place]
  congr 1
  omega

theorem linkPiece_join_right {origin : Int} {d e : Draft} {number : Nat} {p : Piece}
    {bs : List Byte} (h : linkPiece (origin + d.offset) e number p = .ok bs)
    (hd : ∀ name ∈ e.names, name ∉ d.names) (number' : Nat) :
    linkPiece origin (d.join e) number' (p.shift d.offset) = .ok bs := by
  obtain ⟨offset, body⟩ := p
  rcases body with - | ⟨opcode, xs | label⟩
  · exact h
  · exact h
  · cases hlabel : e.offset? label with
    | none =>
        simp only [linkPiece, hlabel] at h
        cases h
    | some o =>
        simp only [linkPiece, hlabel] at h
        have hmoved : (d.join e).offset? label = some (d.offset + o) := by
          rw [Draft.offset?_join_right (hd label (Draft.mem_of_offset? hlabel)), hlabel]
          rfl
        simp only [linkPiece, Piece.shift, hmoved, place_add, h]

/-- Linking goes on when each piece does. -/
theorem linkPieces_map {origin origin' : Int} {d d' : Draft} {f : Piece → Piece}
    (hf : ∀ p number bs, linkPiece origin d number p = .ok bs →
      ∀ number', linkPiece origin' d' number' (f p) = .ok bs)
    {number : Nat} {ps : List Piece} {bs : List Byte}
    (h : linkPieces origin d number ps = .ok bs) (number' : Nat) :
    linkPieces origin' d' number' (ps.map f) = .ok bs := by
  induction ps generalizing number number' bs with
  | nil => exact h
  | cons p ps ih =>
      obtain ⟨xs, hp, h⟩ := bind_ok h
      obtain ⟨ys, hps, h⟩ := bind_ok h
      cases h
      rw [List.map_cons, linkPieces, hf p number xs hp]
      simp only [bind, Except.bind]
      rw [ih hps]
      rfl

/-! ## Sources -/

/-- What an assembly is made from: a draft, and its code. -/
theorem compileWith_ok {source : String} {origin : Int} {a : Assembly}
    (h : compileWith catalog source origin limit = .ok a) :
    ∃ d, draft limit catalog source = .ok d ∧
      linkPieces origin d 0 d.pieces.reverse = .ok a.code ∧
      a.offsets = d.pieces.reverse.map Piece.offset ∧
      a.symbols = d.labels.map fun l => (l.1, place origin l.2) := by
  obtain ⟨d, hd, h⟩ := bind_ok h
  obtain ⟨code, hcode, h⟩ := bind_ok h
  cases h
  exact ⟨d, hd, hcode, rfl, rfl⟩

theorem names_symbols {d : Draft} {origin : Int} :
    (d.labels.map fun l => (l.1, place origin l.2)).map Prod.fst = d.names := by
  rw [List.map_map]
  rfl

theorem offsets_shift (n : Nat) (ps : List Piece) :
    (ps.map (Piece.shift n)).map Piece.offset = (ps.map Piece.offset).map (n + ·) := by
  rw [List.map_map, List.map_map]
  rfl

theorem symbols_shift (origin : Int) (n : Nat) (labels : List (String × Nat)) :
    (labels.map (shiftLabel n)).map (fun l => (l.1, place origin l.2)) =
      labels.map fun l => (l.1, place (origin + n) l.2) := by
  rw [List.map_map]
  exact List.map_congr_left fun l _ => by rw [← place_add]; rfl

/-- Sources that assemble one behind the other, the second for the origin at which the code of the
    first ends, assemble together if no label is defined in both: their code one after the other,
    the offsets of the second moved by the code of the first, the symbols of both. -/
theorem compileWith_join {source source₁ source₂ : String} {origin : Int} {a b : Assembly}
    (hlines : Text.lines source.toList = Text.lines source₁.toList ++ Text.lines source₂.toList)
    (ha : compileWith catalog source₁ origin limit = .ok a)
    (hb : compileWith catalog source₂ (origin + a.code.length) limit = .ok b)
    (hdisjoint : ∀ name ∈ b.symbols.map Prod.fst, name ∉ a.symbols.map Prod.fst) :
    compileWith catalog source origin limit = .ok {
      code := a.code ++ b.code
      offsets := a.offsets ++ b.offsets.map (a.code.length + ·)
      symbols := a.symbols ++ b.symbols } ∧
    a.offsets.length = (Text.lines source₁.toList).length ∧
    b.offsets.length = (Text.lines source₂.toList).length := by
  obtain ⟨d, hd, hcodeA, hoffsetsA, hsymbolsA⟩ := compileWith_ok ha
  obtain ⟨e, he, hcodeB, hoffsetsB, hsymbolsB⟩ := compileWith_ok hb
  rw [hsymbolsA, hsymbolsB, names_symbols, names_symbols] at hdisjoint
  have hempty : Draft.Measured {} 0 := ⟨rfl, rfl⟩
  have hmeasured := measured_addLines hempty hd
  have hmeasured' := measured_addLines hempty he
  rw [Nat.zero_add] at hmeasured hmeasured'
  -- the code of the first source ends where its draft does
  have hlength : a.code.length = d.offset := by
    rw [length_linkPieces hcodeA, List.map_reverse, List.sum_reverse, ← hmeasured.offset]
  rw [hlength] at hcodeB hsymbolsB ⊢
  have hdraft : draft limit catalog source = .ok (d.join e) := by
    have hjoin := addLines_join (d := d) he hdisjoint (0 + (Text.lines source₁.toList).length)
    rw [Draft.join_new] at hjoin
    have hfirst : addLines limit catalog 0 {} (Text.lines source₁.toList) = .ok d := hd
    rw [draft, hlines, addLines_append, hfirst]
    exact hjoin
  have hpieces : (d.join e).pieces.reverse =
      d.pieces.reverse ++ e.pieces.reverse.map (Piece.shift d.offset) := by
    rw [Draft.join, List.reverse_append, List.map_reverse]
  have hcode : linkPieces origin (d.join e) 0 (d.join e).pieces.reverse =
      .ok (a.code ++ b.code) := by
    rw [hpieces]
    refine linkPieces_append ?_ (linkPieces_map (fun p number bs hp number' =>
      linkPiece_join_right hp hdisjoint number') hcodeB _)
    have hleft := linkPieces_map (f := id) (fun p number bs hp number' =>
      linkPiece_join_left hp e number') hcodeA 0
    rwa [List.map_id] at hleft
  refine ⟨?_, ?_, ?_⟩
  · have hlink : compileWith catalog source origin limit = link origin (d.join e) := by
      rw [compileWith, hdraft]
      rfl
    rw [hlink, link]
    simp only [bind, Except.bind, pure, Except.pure, hcode]
    rw [hpieces, List.map_append, offsets_shift, Draft.join, List.map_append, symbols_shift,
      hoffsetsA, hoffsetsB, hsymbolsA, hsymbolsB]
  · rw [hoffsetsA, List.length_map, List.length_reverse, hmeasured.count]
  · rw [hoffsetsB, List.length_map, List.length_reverse, hmeasured'.count]

/-- A source whose first line refers ahead to its last, and one that refers to its own first line.
    The addresses of the second wrap. -/
theorem compileWith_join_wrapping :
    Text.lines "jmp on\n\non: nop\nback: inr a\njnz back".toList =
        Text.lines "jmp on\n\non: nop".toList ++ Text.lines "back: inr a\njnz back".toList ∧
    compile "jmp on\n\non: nop" 0xFFFE = .ok ⟨[0xC3, 0x01, 0x00, 0x00], [0, 3, 3], [("on", 1)]⟩ ∧
    compile "back: inr a\njnz back" 0x10002 =
      .ok ⟨[0x3C, 0xC2, 0x02, 0x00], [0, 1], [("back", 2)]⟩ ∧
    compile "jmp on\n\non: nop\nback: inr a\njnz back" 0xFFFE =
      .ok ⟨[0xC3, 0x01, 0x00, 0x00, 0x3C, 0xC2, 0x02, 0x00], [0, 3, 3, 4, 5],
        [("on", 1), ("back", 2)]⟩ := by
  have hlines : Text.lines "jmp on\n\non: nop\nback: inr a\njnz back".toList =
      Text.lines "jmp on\n\non: nop".toList ++ Text.lines "back: inr a\njnz back".toList := by
    decide +kernel
  have ha : compile "jmp on\n\non: nop" 0xFFFE =
      .ok ⟨[0xC3, 0x01, 0x00, 0x00], [0, 3, 3], [("on", 1)]⟩ := by
    decide +kernel
  have hb : compile "back: inr a\njnz back" 0x10002 =
      .ok ⟨[0x3C, 0xC2, 0x02, 0x00], [0, 1], [("back", 2)]⟩ := by
    decide +kernel
  exact ⟨hlines, ha, hb, (compileWith_join hlines ha hb (by decide)).1⟩

end Lab8085.Assembly
