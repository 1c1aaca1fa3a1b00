/-
  Lab8085.Proofs.Instruction.Catalog

  Which rows make a catalog, and what its two views find.

  Rows make a catalog exactly if neither a mnemonic nor an opcode stands twice among them
  (`Distinct`); the opcodes of one row count too.  Rows are added one by one, and a row's opcodes
  one by one.  What carries both inductions is that the catalog so far is that of the rows so far
  (`Catalog.ofRows`), whose keys are distinct; so either view finds the one row or entry that has
  the key.  The first row that is in the way (`Offends`) is reported: its mnemonic if that is
  taken, else the first of its opcodes that is, with the owner.
-/
import Lab8085.Proofs.Assembler.Listing
import Mathlib.Data.List.Induction
import Mathlib.Data.List.Nodup

namespace Lab8085

namespace Descriptor

/-- The opcodes of a row in the order of its operands. -/
def opcodes (d : Descriptor) : List Int :=
  d.kind.choices.map d.opcodeFor

/-- The entry of a row with a built-in operand. -/
def entry (d : Descriptor) (x : Choice) : Entry :=
  ⟨d.opcodeFor x, d, x⟩

theorem expand_eq (d : Descriptor) : d.expand = d.kind.choices.map d.entry := rfl

end Descriptor

namespace Catalog

/-! ## Keys -/

section Keys

variable {α κ : Type}

/-- The element with a key is found when no other has that key. -/
theorem find?_key [BEq κ] [LawfulBEq κ] (key : α → κ) {xs : List α} (h : (xs.map key).Nodup)
    {x : α} (hx : x ∈ xs) : xs.find? (fun y => key y == key x) = some x := by
  induction xs with
  | nil => cases hx
  | cons z zs ih =>
      rw [List.map_cons, List.nodup_cons] at h
      rw [List.find?_cons]
      rcases List.mem_cons.1 hx with rfl | hx
      · rw [beq_self_eq_true]
      · have hne : key z ≠ key x := by
          intro he
          exact h.1 (he ▸ List.mem_map_of_mem hx)
        rw [beq_false_of_ne hne]
        exact ih h.2 hx

/-- Keys that join distinct ones are distinct, or there is a first one that is taken. -/
theorem nodup_or_taken (key : α → κ) {taken : List κ} (h : taken.Nodup) (xs : List α) :
    (taken ++ xs.map key).Nodup ∨
    ∃ before x after, xs = before ++ x :: after ∧ (taken ++ before.map key).Nodup ∧
      key x ∈ taken ++ before.map key := by
  induction xs generalizing taken with
  | nil => exact .inl (by rwa [List.map_nil, List.append_nil])
  | cons z zs ih =>
      by_cases hz : key z ∈ taken
      · exact .inr ⟨[], z, zs, rfl, by rwa [List.map_nil, List.append_nil],
          List.mem_append_left _ hz⟩
      · have hnext : (taken ++ [key z]).Nodup := by
          rw [List.nodup_append_comm]
          exact List.nodup_cons.2 ⟨hz, h⟩
        obtain hall | ⟨before, x, after, rfl, hbefore, hx⟩ := ih hnext
        · exact .inl (by rwa [List.append_assoc] at hall)
        · refine .inr ⟨z :: before, x, after, rfl, ?_, ?_⟩
          · rwa [List.append_assoc] at hbefore
          · rwa [List.append_assoc] at hx

end Keys

/-! ## Distinct rows -/

/-- Rows of which no two have the same mnemonic, and whose opcodes are all different. -/
structure Distinct (rows : List Descriptor) : Prop where
  mnemonics : (rows.map Descriptor.mnemonic).Nodup
  opcodes : (rows.flatMap Descriptor.opcodes).Nodup

/-- What is wrong with a row behind others: its mnemonic stands among them, or else an operand `x`
    has an opcode that an earlier row has or the row itself for one of its earlier operands. -/
inductive Offends (earlier : List Descriptor) (d : Descriptor) : CatalogError → Prop
  | mnemonic (h : d.mnemonic ∈ earlier.map Descriptor.mnemonic) :
      Offends earlier d (.duplicateMnemonic d.mnemonic)
  | opcode {before after : List Choice} {x : Choice} {owner : Entry}
      (hnew : d.mnemonic ∉ earlier.map Descriptor.mnemonic)
      (hsplit : d.kind.choices = before ++ x :: after)
      (hfree : (earlier.flatMap Descriptor.opcodes ++ before.map d.opcodeFor).Nodup)
      (howner : owner ∈ (ofRows earlier).entries ++ before.map d.entry)
      (htaken : owner.opcode = d.opcodeFor x) :
      Offends earlier d
        (.opcodeCollision (d.opcodeFor x) d.mnemonic owner.descriptor.mnemonic)

/-- The first row of a list that is in the way of rows before it. -/
structure FirstOffence (rows : List Descriptor) (e : CatalogError) : Prop where
  split : ∃ earlier d later, rows = earlier ++ d :: later ∧ Distinct earlier ∧ Offends earlier d e

/-- The entries of rows have the opcodes of the rows. -/
theorem opcodes_ofRows (rows : List Descriptor) :
    (ofRows rows).entries.map Entry.opcode = rows.flatMap Descriptor.opcodes := by
  rw [ofRows, List.map_flatMap]
  exact List.flatMap_congr fun d _ => List.map_map

theorem opcodes_entries (rows : List Descriptor) (d : Descriptor) (xs : List Choice) :
    ((ofRows rows).entries ++ xs.map d.entry).map Entry.opcode =
      rows.flatMap Descriptor.opcodes ++ xs.map d.opcodeFor := by
  rw [List.map_append, opcodes_ofRows, List.map_map]
  rfl

/-- Distinct rows stay so behind one more, or that row is in their way. -/
theorem Distinct.snoc_or_offends {rows : List Descriptor} (h : Distinct rows) (d : Descriptor) :
    Distinct (rows ++ [d]) ∨ ∃ e, Offends rows d e := by
  by_cases hm : d.mnemonic ∈ rows.map Descriptor.mnemonic
  · exact .inr ⟨_, .mnemonic hm⟩
  obtain hall | ⟨before, x, after, hsplit, hfree, hx⟩ :=
    nodup_or_taken d.opcodeFor h.opcodes d.kind.choices
  · refine .inl ⟨?_, ?_⟩
    · rw [List.map_append, List.nodup_append_comm]
      exact List.nodup_cons.2 ⟨hm, h.mnemonics⟩
    · rwa [List.flatMap_append, List.flatMap_singleton]
  · rw [← opcodes_entries] at hx
    obtain ⟨owner, howner, htaken⟩ := List.mem_map.1 hx
    exact .inr ⟨_, .opcode hm hsplit hfree howner htaken⟩

/-- Rows are distinct, or one of them is the first in the way of earlier ones. -/
theorem distinct_or_firstOffence (rows : List Descriptor) :
    Distinct rows ∨ ∃ e, FirstOffence rows e := by
  induction rows using List.reverseRecOn with
  | nil => exact .inl ⟨List.nodup_nil, List.nodup_nil⟩
  | append_singleton rows d ih =>
      obtain h | ⟨e, ⟨earlier, d', later, rfl, hearlier, hoffends⟩⟩ := ih
      · obtain hall | ⟨e, he⟩ := h.snoc_or_offends d
        · exact .inl hall
        · exact .inr ⟨e, rows, d, [], rfl, h, he⟩
      · refine .inr ⟨e, earlier, d', later ++ [d], ?_, hearlier, hoffends⟩
        rw [List.append_assoc, List.cons_append]

theorem Distinct.of_append {rows later : List Descriptor} (h : Distinct (rows ++ later)) :
    Distinct rows := by
  obtain ⟨hm, hop⟩ := h
  rw [List.map_append] at hm
  rw [List.flatMap_append] at hop
  exact ⟨hm.of_append_left, hop.of_append_left⟩

/-! ## Adding rows -/

section Adding

variable {c : Catalog}

/-- Entries with new opcodes are added before those that follow them. -/
theorem addEntries_new {es : List Entry} (h : ((c.entries ++ es).map Entry.opcode).Nodup)
    (rest : List Entry) :
    c.addEntries (es ++ rest) = addEntries { c with entries := c.entries ++ es } rest := by
  induction es generalizing c with
  | nil => rw [List.nil_append, List.append_nil]
  | cons e es ih =>
      have hnone : c.opcode? e.opcode = none := by
        refine List.find?_eq_none.2 fun owner howner he => ?_
        rw [List.map_append, List.nodup_append] at h
        exact h.2.2 _ (List.mem_map_of_mem howner) _ (List.mem_map_of_mem List.mem_cons_self)
          (beq_iff_eq.1 he)
      rw [List.cons_append, addEntries, hnone]
      have hrest := ih (c := { c with entries := c.entries ++ [e] }) (by rwa [List.append_assoc])
      rwa [List.append_assoc] at hrest

/-- Entries are refused for the first of them whose opcode has an owner. -/
theorem addEntries_taken {before after : List Entry} {e owner : Entry}
    (h : ((c.entries ++ before).map Entry.opcode).Nodup) (howner : owner ∈ c.entries ++ before)
    (htaken : owner.opcode = e.opcode) : c.addEntries (before ++ e :: after) =
      .error (.opcodeCollision e.opcode e.descriptor.mnemonic owner.descriptor.mnemonic) := by
  have hfound : opcode? { c with entries := c.entries ++ before } e.opcode = some owner := by
    rw [← htaken]
    exact find?_key Entry.opcode h howner
  rw [addEntries_new h, addEntries, hfound]

theorem addRow_of_new {rows : List Descriptor} {d : Descriptor}
    (h : d.mnemonic ∉ rows.map Descriptor.mnemonic) :
    (ofRows rows).addRow d =
      addEntries { ofRows rows with descriptors := rows ++ [d] } d.expand := by
  have hnone : (ofRows rows).mnemonic? d.mnemonic = none :=
    List.find?_eq_none.2 fun r hr he => h (beq_iff_eq.1 he ▸ List.mem_map_of_mem hr)
  rw [addRow, hnone]
  rfl

/-- A row that leaves the rows distinct is added. -/
theorem addRow_distinct {rows : List Descriptor} {d : Descriptor} (h : Distinct (rows ++ [d])) :
    (ofRows rows).addRow d = .ok (ofRows (rows ++ [d])) := by
  have hnew : d.mnemonic ∉ rows.map Descriptor.mnemonic := by
    have hm := h.mnemonics
    rw [List.map_append, List.nodup_append_comm] at hm
    exact (List.nodup_cons.1 hm).1
  have hentries : (ofRows rows).entries ++ d.expand = (ofRows (rows ++ [d])).entries := by
    rw [ofRows, ofRows, List.flatMap_append, List.flatMap_singleton]
  have hopcodes : (((ofRows rows).entries ++ d.expand).map Entry.opcode).Nodup := by
    rw [hentries, opcodes_ofRows]
    exact h.opcodes
  have hadd := addEntries_new (c := { ofRows rows with descriptors := rows ++ [d] }) hopcodes []
  rw [List.append_nil] at hadd
  rw [addRow_of_new hnew, hadd, addEntries, hentries]
  rfl

/-- A row that is in the way is refused for what is wrong with it. -/
theorem addRow_offends {rows : List Descriptor} {d : Descriptor} {e : CatalogError}
    (hrows : Distinct rows) (h : Offends rows d e) : (ofRows rows).addRow d = .error e := by
  cases h with
  | mnemonic hm =>
      obtain ⟨r, hr, hsame⟩ := List.mem_map.1 hm
      have hfound : (ofRows rows).mnemonic? d.mnemonic = some r := by
        rw [← hsame]
        exact find?_key Descriptor.mnemonic hrows.mnemonics hr
      rw [addRow, hfound]
  | @opcode before after x owner hnew hsplit hfree howner htaken =>
      rw [addRow_of_new hnew, Descriptor.expand_eq, hsplit, List.map_append, List.map_cons]
      rw [← opcodes_entries] at hfree
      exact addEntries_taken hfree howner htaken

end Adding

/-! ## Building -/

/-- Distinct rows are added one after the other. -/
theorem foldlM_distinct {rows later : List Descriptor} (h : Distinct (rows ++ later)) :
    later.foldlM addRow (ofRows rows) = .ok (ofRows (rows ++ later)) := by
  induction later generalizing rows with
  | nil => rw [List.append_nil, List.foldlM_nil]; rfl
  | cons d later ih =>
      have hassoc : rows ++ d :: later = rows ++ [d] ++ later := by rw [List.append_assoc]; rfl
      rw [hassoc] at h ⊢
      rw [List.foldlM_cons, addRow_distinct h.of_append]
      exact ih h

/-- Distinct rows make the catalog that they expand to. -/
theorem build_of_distinct {rows : List Descriptor} (h : Distinct rows) :
    build rows = .ok (ofRows rows) := by
  rw [← List.nil_append rows] at h
  exact foldlM_distinct h

theorem nodup_choices (kind : OperandKind) : kind.choices.Nodup := by
  cases kind <;> decide

/-- The rows of the instruction set are distinct. -/
theorem distinct_table : Distinct Instruction.table := by
  have hmnemonics : (Instruction.table.map Descriptor.mnemonic).Nodup := by decide +kernel
  refine ⟨hmnemonics, ?_⟩
  rw [← opcodes_ofRows]
  refine List.Nodup.map_on ?_ ?_
  · -- two entries with one opcode are both the entry that is found for it
    intro e he e' he' hsame
    obtain ⟨d, hd, hentry⟩ := List.mem_flatMap.1 he
    obtain ⟨x, hx, rfl⟩ := List.mem_map.1 hentry
    obtain ⟨d', hd', hentry'⟩ := List.mem_flatMap.1 he'
    obtain ⟨x', hx', rfl⟩ := List.mem_map.1 hentry'
    have hfound := Assembly.opcode?_table d hd x hx
    change d.opcodeFor x = d'.opcodeFor x' at hsame
    rw [hsame, Assembly.opcode?_table d' hd' x' hx'] at hfound
    rw [hsame]
    exact (Option.some.inj hfound).symm
  · rw [ofRows, List.nodup_flatMap]
    refine ⟨fun d _ => (nodup_choices d.kind).map fun x y h => congrArg Entry.choice h, ?_⟩
    rw [List.Nodup, List.pairwise_map] at hmnemonics
    refine hmnemonics.imp fun hne e he he' => hne ?_
    obtain ⟨x, -, rfl⟩ := List.mem_map.1 he
    obtain ⟨x', -, h⟩ := List.mem_map.1 he'
    exact (congrArg (fun e => e.descriptor.mnemonic) h).symm

/-- The instruction set makes the catalog of the 8085. -/
theorem build_table : build Instruction.table = .ok .standard :=
  build_of_distinct distinct_table

/-- The first row that is in the way is reported. -/
theorem build_of_firstOffence {rows : List Descriptor} {e : CatalogError}
    (h : FirstOffence rows e) : build rows = .error e := by
  obtain ⟨earlier, d, later, rfl, hearlier, hoffends⟩ := h
  have hbuild : earlier.foldlM addRow ⟨[], []⟩ = .ok (ofRows earlier) := build_of_distinct hearlier
  rw [build, List.foldlM_append, hbuild]
  show (d :: later).foldlM addRow (ofRows earlier) = .error e
  rw [List.foldlM_cons, addRow_offends hearlier hoffends]
  rfl

/-- Both views of a catalog are those of the rows, and each leads back to the other. -/
structure Indexes (c : Catalog) (rows : List Descriptor) : Prop where
  mnemonic_key (m : String) : (c.mnemonic? m).isSome = true ↔ m ∈ rows.map Descriptor.mnemonic
  opcode_key (k : Int) : (c.opcode? k).isSome = true ↔ k ∈ rows.flatMap Descriptor.opcodes
  row {d : Descriptor} (h : d ∈ rows) : c.mnemonic? d.mnemonic = some d
  entry {d : Descriptor} {x : Choice} (h : d ∈ rows) (hx : x ∈ d.kind.choices) :
    c.opcode? (d.opcodeFor x) = some (d.entry x)
  of_row {m : String} {d : Descriptor} (h : c.mnemonic? m = some d) : d ∈ rows ∧ m = d.mnemonic
  of_entry {k : Int} {e : Entry} (h : c.opcode? k = some e) :
    e.descriptor ∈ rows ∧ e.choice ∈ e.descriptor.kind.choices ∧
      k = e.descriptor.opcodeFor e.choice ∧ e = e.descriptor.entry e.choice ∧
      c.mnemonic? e.descriptor.mnemonic = some e.descriptor

theorem Distinct.indexes {rows : List Descriptor} (h : Distinct rows) :
    Indexes (ofRows rows) rows := by
  have hrow {d : Descriptor} (hd : d ∈ rows) : (ofRows rows).mnemonic? d.mnemonic = some d :=
    find?_key Descriptor.mnemonic h.mnemonics hd
  have hentries : ((ofRows rows).entries.map Entry.opcode).Nodup := by
    rw [opcodes_ofRows]
    exact h.opcodes
  refine ⟨fun m => ?_, fun k => ?_, hrow, fun {d x} hd hx => ?_, fun {m d} hm => ?_,
    fun {k e} hk => ?_⟩
  · simp only [mnemonic?, List.find?_isSome, beq_iff_eq, List.mem_map]
    rfl
  · rw [← opcodes_ofRows]
    simp only [opcode?, List.find?_isSome, beq_iff_eq, List.mem_map]
  · exact find?_key Entry.opcode hentries (x := d.entry x)
      (List.mem_flatMap.2 ⟨d, hd, List.mem_map_of_mem hx⟩)
  · have hfound := List.find?_some hm
    exact ⟨List.mem_of_find?_eq_some hm, (beq_iff_eq.1 hfound).symm⟩
  · have hfound := List.find?_some hk
    obtain ⟨d, hd, hentry⟩ := List.mem_flatMap.1 (List.mem_of_find?_eq_some hk)
    obtain ⟨x, hx, rfl⟩ := List.mem_map.1 hentry
    exact ⟨hd, hx, (beq_iff_eq.1 hfound).symm, rfl, hrow hd⟩

/-- Rows make a catalog exactly if they are distinct. Its views are then those of the rows;
    otherwise the first row that is in the way of earlier ones is reported. -/
theorem build_rows (rows : List Descriptor) :
    ((∃ c, build rows = .ok c) ↔ Distinct rows) ∧
    (∀ c, build rows = .ok c → Indexes c rows) ∧
    ∀ e, build rows = .error e ↔ FirstOffence rows e := by
  obtain h | ⟨e, he⟩ := distinct_or_firstOffence rows
  · have hbuild := build_of_distinct h
    refine ⟨iff_of_true ⟨_, hbuild⟩ h, fun c hc => ?_, fun e => ⟨fun he => ?_, fun he => ?_⟩⟩
    · cases hbuild.symm.trans hc
      exact h.indexes
    · cases hbuild.symm.trans he
    · cases hbuild.symm.trans (build_of_firstOffence he)
  · have hbuild := build_of_firstOffence he
    refine ⟨iff_of_false ?_ fun h => ?_, fun c hc => ?_, fun e' => ⟨fun he' => ?_, fun he' => ?_⟩⟩
    · rintro ⟨c, hc⟩
      cases hbuild.symm.trans hc
    · cases hbuild.symm.trans (build_of_distinct h)
    · cases hbuild.symm.trans hc
    · cases hbuild.symm.trans he'
      exact he
    · exact build_of_firstOffence he'

/-- Registers that lie no distance apart have one opcode: the row collides with itself. -/
example : build [⟨"nop", 0, .none, .nop, 1⟩, ⟨"clr", 0x10, .register, .nop, 0⟩] =
    .error (.opcodeCollision 0x10 "clr" "clr") := by
  rfl

end Catalog

end Lab8085
