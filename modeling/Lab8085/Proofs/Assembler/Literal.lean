/-
  Lab8085.Proofs.Assembler.Literal

  Which texts are read as numbers, as far as their characters go.  An accepted text
  without blanks consists of ASCII letters and digits (no other character has a
  hexadecimal digit as its lower case), so the case of its letters is ASCII case, and
  the number does not depend on it.
-/
import Lab8085.Proofs.Assembler.Text
import Lab8085.Source.Literal
import Mathlib.Data.List.Basic

namespace Lab8085.Source.Literal

open Text

/-- The characters of accepted literals in lower case: hexadecimal digits and the final `h`. -/
def isLiteralChar (c : Char) : Bool :=
  (hexDigit? c).isSome || c == 'h'

theorem isLiteralChar_le {c : Char} (h : isLiteralChar c = true) :
    48 ≤ c.toNat ∧ c.toNat ≤ 104 := by
  simp only [isLiteralChar, hexDigit?, Bool.or_eq_true, beq_iff_eq] at h
  rcases h with h | rfl
  · split at h
    · omega
    · split at h
      · omega
      · simp at h
  · decide

theorem isLiteralChar_of_hexDigit? {c : Char} (h : (hexDigit? c).isSome = true) :
    isLiteralChar c = true := by
  simp [isLiteralChar, h]

theorem isLiteralChar_of_decimalDigit? {c : Char} (h : (decimalDigit? c).isSome = true) :
    isLiteralChar c = true := by
  apply isLiteralChar_of_hexDigit?
  simp only [decimalDigit?] at h
  split at h
  · rename_i hc
    simp [hexDigit?, hc]
  · simp at h

/-- A number is read only from digits. -/
theorem valueFrom_digits {base : Nat} {digit? : Char → Option Nat} {acc n : Nat} {s : List Char}
    (h : valueFrom base digit? acc s = some n) : ∀ c ∈ s, (digit? c).isSome = true := by
  induction s generalizing acc with
  | nil => simp
  | cons d s ih =>
      rw [valueFrom] at h
      obtain ⟨k, hk, h⟩ := Option.bind_eq_some_iff.1 h
      intro c hc
      rcases List.mem_cons.1 hc with rfl | hc
      · rw [hk]
        rfl
      · exact ih h c hc

theorem value?_digits {base : Nat} {digit? : Char → Option Nat} {n : Nat} {s : List Char}
    (h : value? base digit? s = some n) :
    s ≠ [] ∧ ∀ c ∈ s, (digit? c).isSome = true := by
  cases s with
  | nil => simp [value?] at h
  | cons d s => exact ⟨by simp, valueFrom_digits h⟩

theorem ofLower?_chars {s : List Char} {n : Nat} (h : ofLower? s = some n) :
    s ≠ [] ∧ ∀ c ∈ s, isLiteralChar c = true := by
  rw [ofLower?] at h
  split at h
  · rename_i hlast
    split at h
    · obtain ⟨hne, hdigits⟩ := value?_digits h
      have hs : s = s.dropLast ++ ['h'] :=
        (List.dropLast_append_getLast? 'h' (by rw [hlast]; rfl)).symm
      refine ⟨fun e => hne (by rw [e]; rfl), ?_⟩
      intro c hc
      rw [hs] at hc
      rcases List.mem_append.1 hc with hc | hc
      · exact isLiteralChar_of_hexDigit? (hdigits c hc)
      · rw [List.mem_singleton.1 hc]
        decide
    · simp at h
  · obtain ⟨m, hm⟩ : ∃ m, value? 10 decimalDigit? s = some m := by
      cases hv : value? 10 decimalDigit? s with
      | none => simp [hv] at h
      | some m => exact ⟨m, rfl⟩
    obtain ⟨hne, hdigits⟩ := value?_digits hm
    exact ⟨hne, fun c hc => isLiteralChar_of_decimalDigit? (hdigits c hc)⟩

/-! ## Lower case -/

/-- The lower case of a capital letter outside ASCII lies above the letters of literals. -/
theorem lowerCaseRuns_above : ∀ r ∈ lowerCaseRuns, 104 < (r.first : Int) + r.shift := by
  decide +kernel

/-- A number that is no code point stands for the character zero. -/
theorem toNat_ofNat_or (n : Nat) : (Char.ofNat n).toNat = n ∨ (Char.ofNat n).toNat = 0 := by
  by_cases hn : n.isValidChar
  · have hv : Char.ofNat n = Char.ofNatAux n hn := dif_pos hn
    exact Or.inl (congrArg Char.toNat hv)
  · have hz : Char.ofNat n = '\x00' := dif_neg hn
    exact Or.inr (congrArg Char.toNat hz)

theorem isLiteralChar_lowerOther {c : Char} (hc : 128 ≤ c.toNat) :
    isLiteralChar (lowerOther c) = false := by
  rw [Bool.eq_false_iff]
  intro h
  have hle := isLiteralChar_le h
  rw [lowerOther] at hle
  split at hle
  · rename_i r hr
    have hmem := List.mem_of_find?_eq_some hr
    have hin := List.find?_some hr
    simp only [Bool.and_eq_true, decide_eq_true_eq] at hin
    have habove := lowerCaseRuns_above r hmem
    -- the shifted code point is too high, and the character zero is too low
    rcases toNat_ofNat_or (c.toNat + r.shift).toNat with hn | hn
    · omega
    · omega
  · omega

/-- Only an ASCII letter or digit has literal characters as its lower case. -/
theorem isNameChar_of_lowerAt {before after : List Char} {c : Char}
    (h : ∀ d ∈ lowerAt before c after, isLiteralChar d = true) : isNameChar c = true := by
  rw [lowerAt] at h
  split at h
  -- ASCII: the 128 characters are tried
  · rename_i hc
    have hl := h c.toLower (by simp)
    exact of_ascii (p := fun c => isLiteralChar c.toLower = true → isNameChar c = true)
      (by decide) hc hl
  · rename_i hc
    exfalso
    -- a dotted capital I, a final sigma, any other letter: none of them gives a literal character
    split at h
    · have := h 'i' (by simp)
      exact absurd this (by decide)
    · split at h
      · split at h
        · exact absurd (h _ List.mem_cons_self) (by decide)
        · exact absurd (h _ List.mem_cons_self) (by decide)
      · have hl := h (lowerOther c) (by simp)
        rw [isLiteralChar_lowerOther (by omega)] at hl
        exact Bool.false_ne_true hl

theorem isNameChar_of_lowerFrom {before s : List Char}
    (h : ∀ d ∈ lowerFrom before s, isLiteralChar d = true) : ∀ c ∈ s, isNameChar c = true := by
  induction s generalizing before with
  | nil => simp
  | cons d s ih =>
      rw [lowerFrom] at h
      intro c hc
      rcases List.mem_cons.1 hc with rfl | hc
      · exact isNameChar_of_lowerAt fun e he => h e (List.mem_append_left _ he)
      · exact ih (fun e he => h e (List.mem_append_right _ he)) c hc

/-! ## Accepted texts -/

variable {limit : Number.DigitLimit} {t : List Char}

theorem trim_visible (hv : ∀ c ∈ t, isBlank c = false) : trim t = t := by
  have h := trim_gaps (g := []) (k := []) (s := t) (by simp [IsGap]) (by simp [IsGap])
    (fun c hc => hv c (List.mem_of_mem_head? hc)) (fun c hc => hv c (List.mem_of_mem_getLast? hc))
  rwa [List.nil_append, List.append_nil] at h

/-- What is read is the lower case of the text, within the limit on its digits. -/
theorem read_eq_ok_iff (hv : ∀ c ∈ t, isBlank c = false) {n : Nat} :
    read (String.ofList t) limit = .ok n ↔
      (((lower t).all fun c => (decimalDigit? c).isSome) && limit.exceeded (lower t).length)
          = false ∧ ofLower? (lower t) = some n := by
  simp only [read, String.toList_ofList, trim_visible hv, within]
  cases hl : ((lower t).all fun c => (decimalDigit? c).isSome) && limit.exceeded (lower t).length
  · cases ho : ofLower? (lower t) <;> simp
  · simp

/-- An accepted text without blanks consists of ASCII letters and digits. -/
theorem isNameChar_of_read (hv : ∀ c ∈ t, isBlank c = false) {n : Nat}
    (h : read (String.ofList t) limit = .ok n) : t ≠ [] ∧ ∀ c ∈ t, isNameChar c = true := by
  obtain ⟨hne, hchars⟩ := ofLower?_chars ((read_eq_ok_iff hv).1 h).2
  exact ⟨fun e => hne (by rw [e]; rfl), isNameChar_of_lowerFrom hchars⟩

theorem toLower_toLower_of_isNameChar {c : Char} (h : isNameChar c = true) :
    c.toLower.toLower = c.toLower :=
  of_ascii (p := fun c => c.toLower.toLower = c.toLower) (by decide) (isNameChar_lt h)

/-- The lower case of an accepted text is read as the same number. -/
theorem read_toLower (hv : ∀ c ∈ t, isBlank c = false) {n : Nat}
    (h : read (String.ofList t) limit = .ok n) :
    read (String.ofList (t.map Char.toLower)) limit = .ok n := by
  obtain ⟨-, hname⟩ := isNameChar_of_read hv h
  have hname' : ∀ c ∈ t.map Char.toLower, isNameChar c = true := by
    intro c hc
    obtain ⟨d, hd, rfl⟩ := List.mem_map.1 hc
    exact isNameChar_toLower (hname d hd)
  have hlower : lower (t.map Char.toLower) = lower t := by
    rw [lower_ascii fun c hc => isNameChar_lt (hname' c hc),
      lower_ascii fun c hc => isNameChar_lt (hname c hc), List.map_map]
    exact List.map_congr_left fun c hc => toLower_toLower_of_isNameChar (hname c hc)
  rw [read_eq_ok_iff fun c hc => isBlank_of_isNameChar (hname' c hc), hlower]
  exact (read_eq_ok_iff hv).1 h

/-- A restart number without blanks is made of digits. -/
theorem digits_of_readIndex (hv : ∀ c ∈ t, isBlank c = false) {n : Fin 8}
    (h : readIndex (String.ofList t) limit = .ok n) :
    t ≠ [] ∧ ∀ c ∈ t, (decimalDigit? c).isSome = true := by
  simp only [readIndex, String.toList_ofList, trim_visible hv, within] at h
  split at h
  · simp at h
  · split at h
    · rename_i m hm
      exact value?_digits hm
    · simp at h

theorem isNameChar_of_decimalDigit? {c : Char} (h : (decimalDigit? c).isSome = true) :
    isNameChar c = true ∧ c.toLower = c := by
  have hlt : c.toNat < 128 := by
    have := isLiteralChar_le (isLiteralChar_of_decimalDigit? h)
    omega
  exact of_ascii
    (p := fun c => (decimalDigit? c).isSome = true → isNameChar c = true ∧ c.toLower = c)
    (by decide) hlt h

/-- Digits have no letter case. -/
theorem map_toLower_of_digits (h : ∀ c ∈ t, (decimalDigit? c).isSome = true) :
    t.map Char.toLower = t := by
  conv => rhs; rw [← List.map_id t]
  exact List.map_congr_left fun c hc => (isNameChar_of_decimalDigit? (h c hc)).2

end Lab8085.Source.Literal
