/-
  Lab8085.Proofs.Assembler.Printing

  A plain way to write programs down.

  The grammar of written programs leaves letter case, gaps and comments free.  The plain text
  of a program makes one choice: mnemonics in capitals, one space before an argument, a comma
  as well if the mnemonic has two words, and every statement on a line of its own.  It is one
  of the texts that write the program (`Program.written_text`).
-/
import Lab8085.Proofs.Assembler.Canonical

namespace Lab8085.Assembly

open Text

/-! ## Plain texts -/

/-- The plain text of an instruction. -/
def Instr.text (i : Instr) : List Char :=
  let m := i.row.mnemonic.toList
  m.map Char.toUpper ++
    match i.argument.text? with
    | none => []
    | some a => (if ' ' ∈ m then [',', ' '] else [' ']) ++ a

/-- The plain text of a statement: the label with a colon, the instruction. -/
def Statement.text (s : Statement) : List Char :=
  (s.label.elim [] fun n => n ++ [':']) ++ s.instruction.elim [] Instr.text

/-- The plain text of a program: its statements, each with a line feed. -/
def Program.text (p : Program) : List Char :=
  p.flatMap fun s => s.text ++ ['\n']

theorem Instr.written_text {i : Instr} (hi : i.Legal) : i.Written i.text := by
  obtain ⟨-, -, -, -, hlower⟩ := mnemonicWords_upper i.row hi.1
  have hm := spelled_upper (forall_mem_of_all hlower)
  have hnone : IsGap [] := fun c hc => absurd hc List.not_mem_nil
  have hspace : IsGap [' '] := fun c hc => .inl (List.mem_singleton.1 hc)
  rw [Instr.text]
  cases ha : i.argument.text? with
  | none =>
      simp only [List.append_nil]
      exact .bare ha hm
  | some a =>
      by_cases htwo : ' ' ∈ i.row.mnemonic.toList
      · simp only [if_pos htwo]
        have h := Instr.Written.comma ha hm hnone hspace rfl
        rw [List.append_nil] at h
        exact h
      · simp only [if_neg htwo, ← List.append_assoc]
        exact .gap ha hm htwo hspace (List.cons_ne_nil _ _) rfl

theorem Statement.written_text {s : Statement} (hs : ∀ i ∈ s.instruction, i.Legal) :
    s.Written s.text := by
  have hnone : IsGap [] := fun c hc => absurd hc List.not_mem_nil
  refine ⟨s.label.elim [] fun n => n ++ [':'], s.instruction.elim [] Instr.text, [], ?_, ?_,
    .inl rfl, ?_⟩
  · cases s.label with
    | none => rfl
    | some n => exact ⟨[], n, [], hnone, hnone, rfl, by simp⟩
  · cases hi : s.instruction with
    | none => exact hnone
    | some i => exact ⟨[], i.text, [], hnone, hnone, i.written_text (hs i hi), by simp⟩
  · rw [List.append_nil, Statement.text]

/-- The plain text of a program writes the program. -/
theorem Program.written_text {p : Program} (hp : ∀ s ∈ p, ∀ i ∈ s.instruction, i.Legal) :
    p.Written p.text := by
  induction p with
  | nil => exact .nil
  | cons s p ih =>
      have hrest := ih fun s' hs' => hp s' (List.mem_cons_of_mem s hs')
      have hcons : Program.text (s :: p) = s.text ++ '\n' :: Program.text p := by
        rw [Program.text, List.flatMap_cons, List.append_assoc]
        rfl
      rw [hcons]
      exact .cons (s.written_text (hp s List.mem_cons_self)) hrest

end Lab8085.Assembly
