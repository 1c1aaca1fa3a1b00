/-
  Lab8085.Proofs.Assembler.Line

  Parsing a written line gives back the parts of its statement, whatever its layout:
  the label and the argument in lower case, the mnemonic as the table has it.

  The comment goes first, since the rest of the line has no semicolon.  What remains is
  code text, on which lower case is ASCII; the colon and the comma are then found where
  they were put, because names, mnemonics and gaps hold neither.
-/
import Lab8085.Proofs.Assembler.Literal
import Lab8085.Proofs.Assembler.Program

namespace Lab8085.Assembly

open Text Source

/-! ## Names -/

theorem isNameChar_of_toLower {c : Char} (h : isNameChar c.toLower = true) :
    isNameChar c = true := by
  by_cases hc : 'A'.val ≤ c.val ∧ c.val ≤ 'Z'.val
  · have hupper : c.isUpper = true := decide_eq_true hc
    have halpha : c.isAlpha = true := Bool.or_eq_true_iff.2 (Or.inl hupper)
    have halphanum : c.isAlphanum = true := Bool.or_eq_true_iff.2 (Or.inl halpha)
    rw [isNameChar, halphanum, Bool.true_or]
  · have he : c.toLower = c := dif_neg hc
    rwa [he] at h

theorem IsName.fold {n : List Char} (h : IsName n) : IsName (fold n) := by
  refine ⟨by simpa [Assembly.fold] using h.1, ?_⟩
  intro c hc
  obtain ⟨d, hd, rfl⟩ := List.mem_map.1 hc
  exact isNameChar_toLower (h.2 d hd)

/-- A text that is a name in lower case is a name. -/
theorem IsName.of_fold {n : List Char} (h : IsName (Assembly.fold n)) : IsName n := by
  refine ⟨by simpa [Assembly.fold] using h.1, ?_⟩
  intro c hc
  exact isNameChar_of_toLower (h.2 _ (List.mem_map_of_mem hc))

theorem IsName.isBlank {n : List Char} (h : IsName n) : ∀ c ∈ n, isBlank c = false :=
  fun c hc => isBlank_of_isNameChar (h.2 c hc)

theorem IsName.isCodeChar {n : List Char} (h : IsName n) : ∀ c ∈ n, isCodeChar c = true :=
  fun c hc => isCodeChar_of_isNameChar (h.2 c hc)

theorem IsName.not_mem {n : List Char} (h : IsName n) : ':' ∉ n ∧ ',' ∉ n :=
  ⟨fun hc => (ne_of_isNameChar (h.2 _ hc)).2.1 rfl,
    fun hc => (ne_of_isNameChar (h.2 _ hc)).2.2.2 rfl⟩

/-- Names of registers, of the memory byte and of pairs are names. -/
theorem isName_of_choice {kind : OperandKind} (hk : kind.isNamed = true) :
    ∀ x ∈ kind.choices, ∃ n, x.name? = some n ∧ IsName n.toList := by
  have key : ∀ x ∈ kind.choices, (x.name?.any fun n =>
      n.toList ≠ [] && n.toList.all isNameChar) = true := by
    cases kind <;> first | exact absurd hk (by decide) | decide +kernel
  intro x hx
  have h := key x hx
  rw [Option.any_eq_true] at h
  obtain ⟨n, hn, h⟩ := h
  simp only [ne_eq, decide_not, Bool.and_eq_true, Bool.not_eq_true', decide_eq_false_iff_not,
    List.all_eq_true] at h
  exact ⟨n, hn, h⟩

/-- Whatever an instruction names, it names by a name. -/
theorem Argument.Legal.isName {kind : OperandKind} {a : Argument} (h : a.Legal kind)
    {t : List Char} (ht : a.text? = some t) : IsName t := by
  cases h with
  | absent => simp [text?] at ht
  | byte h | word h =>
      obtain ⟨hv, n, hn⟩ := h
      simp only [text?, Option.some.injEq] at ht
      subst ht
      exact Literal.isNameChar_of_read hv hn
  | index h =>
      obtain ⟨hv, n, hn⟩ := h
      simp only [text?, Option.some.injEq] at ht
      subst ht
      obtain ⟨hne, hdigits⟩ := Literal.digits_of_readIndex hv hn
      exact ⟨hne, fun c hc => (Literal.isNameChar_of_decimalDigit? (hdigits c hc)).1⟩
  | label h =>
      simp only [text?, Option.some.injEq] at ht
      subst ht
      exact h
  | named hk hx =>
      obtain ⟨n, hn, hname⟩ := isName_of_choice hk _ hx
      simp only [text?, hn, Option.map_some, Option.some.injEq] at ht
      subst ht
      exact hname

/-- Only instructions without an operand have nothing to name. -/
theorem Argument.Legal.kind_of_text?_none {kind : OperandKind} {a : Argument} (h : a.Legal kind)
    (ht : a.text? = none) : kind = .none := by
  cases h with
  | absent => rfl
  | byte | word | index | label => simp [text?] at ht
  | named hk hx =>
      obtain ⟨n, hn, -⟩ := isName_of_choice hk _ hx
      simp [text?, hn] at ht

/-! ## Mnemonics -/

/-- Mnemonics of the table are made of lower-case letters and spaces; their words have one space
    between them and none around; only those of instructions with an operand have several. -/
theorem mnemonic_table : ∀ d ∈ Instruction.table,
    (∀ c ∈ d.mnemonic.toList, c = ' ' ∨ isNameChar c = true) ∧
    d.mnemonic.toList.head? ≠ some ' ' ∧ d.mnemonic.toList ≠ [] ∧
    joinWords (words d.mnemonic.toList) = d.mnemonic.toList ∧
    (d.kind = .none → ' ' ∉ d.mnemonic.toList) := by
  have key : ∀ d ∈ Instruction.table,
      d.mnemonic.toList.all (fun c => decide (c = ' ' ∨ isNameChar c = true)) = true ∧
      d.mnemonic.toList.head? ≠ some ' ' ∧ d.mnemonic.toList ≠ [] ∧
      joinWords (words d.mnemonic.toList) = d.mnemonic.toList ∧
      (d.kind = .none → ' ' ∉ d.mnemonic.toList) := by
    decide +kernel
  intro d hd
  obtain ⟨hchars, hrest⟩ := key d hd
  exact ⟨forall_mem_of_all hchars, hrest⟩

section Spelled

variable {m s : List Char}

/-- A spelling has the words of the mnemonic. -/
theorem Spelled.splitWord (h : Spelled m s) (hm : ∀ c ∈ m, c = ' ' ∨ isNameChar c = true) :
    splitWord (fold s) = splitWord m := by
  induction h with
  | nil => rfl
  | letter hd hc h ih =>
      have hv := isBlank_of_isNameChar ((hm _ List.mem_cons_self).resolve_left hd)
      have ih := ih fun c hc => hm c (List.mem_cons_of_mem _ hc)
      rw [fold, List.map_cons, hc, splitWord_cons_visible hv, splitWord_cons_visible hv]
      rw [fold] at ih
      rw [ih]
  | @space m g s hg hne h ih =>
      have ih := ih fun c hc => hm c (List.mem_cons_of_mem _ hc)
      obtain ⟨c, g, rfl⟩ := List.exists_cons_of_ne_nil hne
      have hg' : ∀ d ∈ g, isBlank d = true :=
        fun d hd => hg.isBlank d (List.mem_cons_of_mem _ hd)
      rw [fold, List.map_append, hg.map_toLower, List.cons_append,
        splitWord_cons_blank (hg.isBlank c List.mem_cons_self), words_blanks hg',
        splitWord_cons_blank (by decide)]
      rw [fold] at ih
      rw [words, words, ih]

theorem Spelled.words (h : Spelled m s) (hm : ∀ c ∈ m, c = ' ' ∨ isNameChar c = true) :
    words (fold s) = words m := by
  rw [Text.words, Text.words, h.splitWord hm]

/-- A mnemonic of one word is only respelled in letter case. -/
theorem Spelled.fold_eq (h : Spelled m s) (hone : ' ' ∉ m) : fold s = m := by
  induction h with
  | nil => rfl
  | letter hd hc h ih =>
      rw [fold, List.map_cons, hc]
      exact congrArg _ (ih fun hm => hone (List.mem_cons_of_mem _ hm))
  | space => exact absurd List.mem_cons_self hone

/-- A spelling is made of name characters, spaces and tabs. -/
theorem Spelled.chars (h : Spelled m s) (hm : ∀ c ∈ m, c = ' ' ∨ isNameChar c = true) :
    ∀ c ∈ s, isNameChar c = true ∨ c = ' ' ∨ c = '\t' := by
  induction h with
  | nil => simp
  | letter hd hc h ih =>
      intro c hmem
      rcases List.mem_cons.1 hmem with rfl | hmem
      · have hn := (hm _ List.mem_cons_self).resolve_left hd
        rw [← hc] at hn
        exact Or.inl (isNameChar_of_toLower hn)
      · exact ih (fun c hc => hm c (List.mem_cons_of_mem _ hc)) c hmem
  | space hg hne h ih =>
      intro c hmem
      rcases List.mem_append.1 hmem with hmem | hmem
      · exact Or.inr (hg c hmem)
      · exact ih (fun c hc => hm c (List.mem_cons_of_mem _ hc)) c hmem

/-- The first character of a spelling is visible if that of the mnemonic is. -/
theorem Spelled.head? (h : Spelled m s) (hm : m.head? ≠ some ' ') :
    (fold s).head? = m.head? := by
  cases h with
  | nil => rfl
  | letter hd hc h => simp [fold, hc]
  | space => exact absurd rfl hm

end Spelled

/-! ## The instruction part -/

/-- The characters that instructions are written with: code without a colon. -/
def IsInstrChar (c : Char) : Prop :=
  isNameChar c = true ∨ c = ' ' ∨ c = '\t' ∨ c = ','

theorem IsInstrChar.of_gap {g : List Char} (hg : IsGap g) : ∀ c ∈ g, IsInstrChar c := by
  intro c hc
  rcases hg c hc with hspace | htab
  · exact Or.inr (Or.inl hspace)
  · exact Or.inr (Or.inr (Or.inl htab))

theorem IsInstrChar.isCodeChar {c : Char} (h : IsInstrChar c) : isCodeChar c = true := by
  rcases h with hn | rfl | rfl | rfl
  · exact isCodeChar_of_isNameChar hn
  all_goals decide

/-- No colon comes of such a character in lower case. -/
theorem IsInstrChar.toLower_ne_colon {c : Char} (h : IsInstrChar c) : c.toLower ≠ ':' := by
  rcases h with hn | rfl | rfl | rfl
  · exact (ne_of_isNameChar (isNameChar_toLower hn)).2.1
  all_goals decide

/-- Without a comma the first word is the mnemonic. -/
theorem ofInstruction_of_words {label : Option String} {s w : List Char} {ws : List (List Char)}
    (hs : ',' ∉ s) (hw : words s = w :: ws) :
    Line.ofInstruction label s = ⟨label, some (String.ofList w), ws.map String.ofList⟩ := by
  have hwt : words (trim s) = w :: ws := by rw [words_trim, hw]
  have hcut : Line.cutAt? ',' (trim s) = none :=
    Line.cutAt?_eq_none fun hc => hs (mem_of_mem_trim hc)
  rw [Line.ofInstruction]
  split
  · rename_i he
    rw [he, words_nil] at hwt
    simp at hwt
  · rw [hcut]
    simp only [hwt]

/-- With a comma the words before it are the mnemonic. -/
theorem ofInstruction_comma {label : Option String} {g₁ g₂ head rest : List Char}
    (hg₁ : IsGap g₁) (hg₂ : IsGap g₂) (hcomma : ',' ∉ head)
    (hfirst : ∀ c ∈ (head ++ ',' :: rest).head?, isBlank c = false)
    (hlast : ∀ c ∈ (head ++ ',' :: rest).getLast?, isBlank c = false) :
    Line.ofInstruction label (g₁ ++ (head ++ ',' :: rest) ++ g₂) =
      ⟨label, some (String.ofList (joinWords (words head))), (words rest).map String.ofList⟩ := by
  have ht := trim_gaps hg₁ hg₂ hfirst hlast
  rw [Line.ofInstruction]
  split
  · rename_i he
    rw [ht] at he
    simp at he
  · rw [ht, Line.cutAt?_append hcomma]

section Instr

variable {i : Instr} {t : List Char}

/-- The characters of an instruction. -/
theorem Instr.Written.chars (hi : i.Legal) (h : i.Written t) : ∀ c ∈ t, IsInstrChar c := by
  have hmn := (mnemonic_table i.row hi.1).1
  have hspelled : ∀ {m : List Char}, Spelled i.row.mnemonic.toList m →
      ∀ c ∈ m, IsInstrChar c := by
    intro m hm c hc
    rcases hm.chars hmn c hc with hc | hc | hc
    · exact Or.inl hc
    · exact Or.inr (Or.inl hc)
    · exact Or.inr (Or.inr (Or.inl hc))
  have harg : ∀ {a t : List Char}, i.argument.text? = some a → fold t = fold a →
      ∀ c ∈ t, isNameChar c = true := by
    intro a t ha ht c hc
    have hn : IsName t := IsName.of_fold (ht ▸ (hi.2.isName ha).fold)
    exact hn.2 c hc
  intro c hc
  cases h with
  | bare ha hm => exact hspelled hm c hc
  | comma ha hm hg₁ hg₂ ht =>
      simp only [List.mem_append, List.mem_cons] at hc
      rcases hc with (hc | hc) | hc | hc | hc
      · exact hspelled hm c hc
      · exact IsInstrChar.of_gap hg₁ c hc
      · exact Or.inr (Or.inr (Or.inr hc))
      · exact IsInstrChar.of_gap hg₂ c hc
      · exact Or.inl (harg ha ht c hc)
  | gap ha hm hone hg hne ht =>
      simp only [List.mem_append] at hc
      rcases hc with (hc | hc) | hc
      · exact hspelled hm c hc
      · exact IsInstrChar.of_gap hg c hc
      · exact Or.inl (harg ha ht c hc)

/-- Every written form of an instruction comes apart into its mnemonic and its argument. -/
theorem Instr.Written.ofInstruction (hi : i.Legal) (h : i.Written t) {g₁ g₂ : List Char}
    (hg₁ : IsGap g₁) (hg₂ : IsGap g₂) (label : Option String) :
    Line.ofInstruction label (g₁ ++ fold t ++ g₂) =
      ⟨label, some i.row.mnemonic,
        i.argument.text?.toList.map fun a => String.ofList (fold a)⟩ := by
  obtain ⟨hmn, hhead, hne, hjoin, hbare⟩ := mnemonic_table i.row hi.1
  have hgap : ∀ {g : List Char}, IsGap g → ',' ∉ g :=
    fun hg => hg.not_mem (by decide) (by decide)
  have hspelled : ∀ {m : List Char}, Spelled i.row.mnemonic.toList m → ',' ∉ fold m := by
    intro m hm hc
    obtain ⟨c, hc, he⟩ := List.mem_map.1 hc
    rcases hm.chars hmn c hc with hn | rfl | rfl
    · exact (ne_of_isNameChar (isNameChar_toLower hn)).2.2.2 he
    · exact absurd he (by decide)
    · exact absurd he (by decide)
  -- a mnemonic of one word is its only word
  have hword : ' ' ∉ i.row.mnemonic.toList →
      ∀ c ∈ i.row.mnemonic.toList, isBlank c = false := by
    intro hone c hc
    exact isBlank_of_isNameChar ((hmn c hc).resolve_left fun e => hone (e ▸ hc))
  cases h with
  | bare ha hm =>
      have hone := hbare (hi.2.kind_of_text?_none ha)
      have hw : words (g₁ ++ fold t ++ g₂) = [i.row.mnemonic.toList] := by
        rw [words_append_blanks hg₂.isBlank, words_blanks hg₁.isBlank, hm.fold_eq hone,
          words_visible (hword hone) hne]
      have hc : ',' ∉ g₁ ++ fold t ++ g₂ := by
        simp [hgap hg₁, hgap hg₂, hspelled hm]
      rw [ofInstruction_of_words hc hw, ha, String.ofList_toList]
      rfl
  | @comma a m h₁ h₂ t ha hm hh₁ hh₂ ht =>
      have hn : IsName (fold t) := ht ▸ (hi.2.isName ha).fold
      have hf : fold (m ++ h₁ ++ ',' :: (h₂ ++ t)) =
          fold m ++ h₁ ++ ',' :: (h₂ ++ fold t) := by
        simp [fold, List.map_append, hh₁.map_toLower, hh₂.map_toLower]
      -- the mnemonic begins and the argument ends the text between the outer gaps
      have hfirst : ∀ c ∈ (fold m ++ h₁ ++ ',' :: (h₂ ++ fold t)).head?, isBlank c = false := by
        have hm' := hm.head? hhead
        obtain ⟨d, m', he⟩ := List.exists_cons_of_ne_nil hne
        intro c hc
        rw [List.append_assoc, List.head?_append, hm', he] at hc
        simp only [List.head?_cons, Option.some_or, Option.mem_def, Option.some.injEq] at hc
        subst hc
        have hd : d ≠ ' ' := fun e => hhead (by rw [he, e]; rfl)
        exact isBlank_of_isNameChar ((hmn d (he ▸ List.mem_cons_self)).resolve_left hd)
      have hlast : ∀ c ∈ (fold m ++ h₁ ++ ',' :: (h₂ ++ fold t)).getLast?,
          isBlank c = false := by
        intro c hc
        rw [List.getLast?_append, List.getLast?_cons, List.getLast?_append] at hc
        obtain ⟨d, hd⟩ : ∃ d, (fold t).getLast? = some d := ⟨_, List.getLast?_eq_some_getLast hn.1⟩
        simp only [hd, Option.some_or, Option.getD_some, Option.mem_def, Option.some.injEq] at hc
        subst hc
        exact hn.isBlank d (List.mem_of_getLast? hd)
      have hc : ',' ∉ fold m ++ h₁ := by
        simp [hgap hh₁, hspelled hm]
      rw [hf, ofInstruction_comma hg₁ hg₂ hc hfirst hlast, words_append_blanks hh₁.isBlank,
        hm.words hmn, hjoin, String.ofList_toList, words_blanks hh₂.isBlank,
        words_visible hn.isBlank hn.1, ha, ht]
      rfl
  | @gap a m h t ha hm hone hh hne' ht =>
      have hn : IsName (fold t) := ht ▸ (hi.2.isName ha).fold
      have hf : fold (m ++ h ++ t) = i.row.mnemonic.toList ++ h ++ fold t := by
        rw [← hm.fold_eq hone]
        simp [fold, List.map_append, hh.map_toLower]
      have hw : words (g₁ ++ fold (m ++ h ++ t) ++ g₂) = [i.row.mnemonic.toList, fold a] := by
        rw [words_append_blanks hg₂.isBlank, words_blanks hg₁.isBlank, hf,
          words_append_gap (hword hone) hne hh hne', words_visible hn.isBlank hn.1, ht]
      -- without a comma the words alone decide
      have hc : ',' ∉ g₁ ++ fold (m ++ h ++ t) ++ g₂ := by
        rw [hf, ← hm.fold_eq hone]
        simp [hgap hg₁, hgap hg₂, hgap hh, hspelled hm, hn.not_mem.2]
      rw [ofInstruction_of_words hc hw, ha, String.ofList_toList]
      rfl

end Instr

/-! ## Whole lines -/

/-- The parts of a statement: names in lower case, the mnemonic as the table has it. -/
def Statement.parts (s : Statement) : Source.Line where
  label := s.label.map fun n => String.ofList (fold n)
  mnemonic := s.instruction.map fun i => i.row.mnemonic
  operands := (s.instruction.bind fun i => i.argument.text?).toList.map
    fun a => String.ofList (fold a)

/-- A statement whose label is a name and whose instruction is legal. -/
def Statement.Legal (s : Statement) : Prop :=
  (∀ n ∈ s.label, IsName n) ∧ ∀ i ∈ s.instruction, i.Legal

/-- The comment of a line is dropped, whatever it holds. -/
theorem before_lower_comment {s c : List Char} (hs : ∀ d ∈ s, isCodeChar d = true)
    (hc : IsComment c) : Line.before ';' (lower (s ++ c)) = fold s := by
  have hsemi : ';' ∉ fold s := by
    intro hmem
    obtain ⟨d, hd, he⟩ := List.mem_map.1 hmem
    exact toLower_ne_semicolon (hs d hd) he
  rw [lower, lowerFrom_append fun d hd => isCodeChar_lt (hs d hd)]
  rcases hc with rfl | ⟨r, rfl, -⟩
  · rw [lowerFrom, List.append_nil]
    exact Line.before_eq_self hsemi
  · rw [lowerFrom, lowerAt_ascii (by decide)]
    exact Line.before_append hsemi _

section Statement

variable {s : Statement} {t : List Char}

theorem isCodeChar_of_labelWritten {label : Option (List Char)} (hl : ∀ n ∈ label, IsName n)
    {a : List Char} (ha : LabelWritten label a) : ∀ c ∈ a, isCodeChar c = true := by
  cases label with
  | none =>
      rw [LabelWritten] at ha
      simp [ha]
  | some n =>
      obtain ⟨g₁, m, g₂, hg₁, hg₂, hm, rfl⟩ := ha
      have hn : IsName m := IsName.of_fold (hm ▸ (hl n rfl).fold)
      intro c hc
      simp only [List.mem_append, List.mem_singleton] at hc
      rcases hc with ((hc | hc) | hc) | rfl
      · exact hg₁.isCodeChar c hc
      · exact hn.isCodeChar c hc
      · exact hg₂.isCodeChar c hc
      · decide

theorem chars_of_instrWritten {instruction : Option Instr}
    (hi : ∀ i ∈ instruction, i.Legal) {b : List Char} (hb : InstrWritten instruction b) :
    ∀ c ∈ b, IsInstrChar c := by
  cases instruction with
  | none => exact IsInstrChar.of_gap hb
  | some i =>
      obtain ⟨g₁, m, g₂, hg₁, hg₂, hm, rfl⟩ := hb
      intro c hc
      simp only [List.mem_append] at hc
      rcases hc with (hc | hc) | hc
      · exact IsInstrChar.of_gap hg₁ c hc
      · exact hm.chars (hi i rfl) c hc
      · exact IsInstrChar.of_gap hg₂ c hc

/-- A written statement is a single line. -/
theorem Statement.Written.isLineBreak (hs : s.Legal) (h : s.Written t) :
    ∀ c ∈ t, isLineBreak c = false := by
  obtain ⟨a, b, c, ha, hb, hc, rfl⟩ := h
  intro d hd
  simp only [List.mem_append] at hd
  rcases hd with (hd | hd) | hd
  · exact isLineBreak_of_isCodeChar (isCodeChar_of_labelWritten hs.1 ha d hd)
  · exact isLineBreak_of_isCodeChar (chars_of_instrWritten hs.2 hb d hd).isCodeChar
  · rcases hc with rfl | ⟨r, rfl, hr⟩
    · simp at hd
    · rcases List.mem_cons.1 hd with rfl | hd
      · decide
      · exact hr d hd

/-- The text after the colon gives the instruction of the statement. -/
theorem ofInstruction_instrWritten {instruction : Option Instr}
    (hi : ∀ i ∈ instruction, i.Legal) {b : List Char} (hb : InstrWritten instruction b)
    (label : Option String) :
    Line.ofInstruction label (fold b) =
      ⟨label, instruction.map fun i => i.row.mnemonic,
        (instruction.bind fun i => i.argument.text?).toList.map
          fun a => String.ofList (fold a)⟩ := by
  cases instruction with
  | none =>
      have hg : IsGap (fold b) := by
        rw [fold, IsGap.map_toLower hb]
        exact hb
      have ht : trim (fold b) = [] := by
        have h := trim_gaps (k := []) (s := []) hg (by simp [IsGap]) (by simp) (by simp)
        rwa [List.append_nil, List.append_nil] at h
      rw [Line.ofInstruction, ht]
      rfl
  | some i =>
      obtain ⟨g₁, m, g₂, hg₁, hg₂, hm, rfl⟩ := hb
      have hf : fold (g₁ ++ m ++ g₂) = g₁ ++ fold m ++ g₂ := by
        simp [fold, List.map_append, hg₁.map_toLower, hg₂.map_toLower]
      rw [hf, hm.ofInstruction (hi i rfl) hg₁ hg₂ label]
      rfl

/-- A written statement is parsed into its parts. -/
theorem Statement.Written.parse (hs : s.Legal) (h : s.Written t) :
    Line.parse t = .ok s.parts := by
  obtain ⟨a, b, c, ha, hb, hc, rfl⟩ := h
  have hcode : ∀ d ∈ a ++ b, isCodeChar d = true := by
    intro d hd
    rcases List.mem_append.1 hd with hd | hd
    · exact isCodeChar_of_labelWritten hs.1 ha d hd
    · exact (chars_of_instrWritten hs.2 hb d hd).isCodeChar
  have hcolon : ':' ∉ fold b := by
    intro hmem
    obtain ⟨d, hd, he⟩ := List.mem_map.1 hmem
    exact (chars_of_instrWritten hs.2 hb d hd).toLower_ne_colon he
  rw [Line.parse, before_lower_comment hcode hc, Line.ofLower]
  cases hl : s.label with
  | none =>
      -- without a colon everything is instruction
      rw [hl, LabelWritten] at ha
      subst ha
      rw [List.nil_append, Line.cutAt?_eq_none hcolon]
      simp only [ofInstruction_instrWritten hs.2 hb, Statement.parts, hl, Option.map_none]
  | some n =>
      rw [hl] at ha
      obtain ⟨g₁, m, g₂, hg₁, hg₂, hm, rfl⟩ := ha
      have hn : IsName (fold n) := (hs.1 n hl).fold
      have hf : fold (g₁ ++ m ++ g₂ ++ [':'] ++ b) = (g₁ ++ fold n ++ g₂) ++ ':' :: fold b := by
        rw [← hm]
        have hcl : Char.toLower ':' = ':' := by decide
        simp [fold, List.map_append, hg₁.map_toLower, hg₂.map_toLower, hcl]
      -- the first colon is the one after the label
      have hname : ':' ∉ g₁ ++ fold n ++ g₂ := by
        simp [hg₁.not_mem, hg₂.not_mem, hn.not_mem.1]
      have htrim : trim (g₁ ++ fold n ++ g₂) = fold n :=
        trim_gaps hg₁ hg₂ (fun c hc => hn.isBlank c (List.mem_of_mem_head? hc))
          (fun c hc => hn.isBlank c (List.mem_of_mem_getLast? hc))
      rw [hf, Line.cutAt?_append hname]
      simp only [htrim, ofInstruction_instrWritten hs.2 hb, Statement.parts, hl, Option.map_some]
      split
      · rename_i he
        exact absurd he hn.1
      · rfl

end Statement

end Lab8085.Assembly
