/-
  Lab8085.Proofs.Assembler.Numeral

  The grammar of numeric literals, with the numbers that they stand for.

  `Denotes` says which texts are literals, once they are trimmed and in lower case, and gives
  them their numbers by the places of their digits.  Reading agrees with it in both directions
  (`ofLower?_eq_some_iff`): the two forms of a literal cannot be confused, because the final `h`
  is no digit, so that one text has one number.  That digits are read as their number is an
  induction from the left; what has been read so far stands in front of the rest
  (`ReadsDigits.valueFrom`).
-/
import Lab8085.Proofs.Assembler.Literal
import Mathlib.Data.Nat.Digits.Defs
import Mathlib.Tactic.Ring

namespace Lab8085

namespace Source.Literal

open Text

/-! ## The grammar -/

/-- The digits, each at the place of its value. -/
def digitChars : List Char := "0123456789abcdef".toList

/-- The number that digits write in a base, the first of them the most significant. -/
def positional (base : Nat) (s : List Char) : Nat :=
  Nat.ofDigits base (s.map fun c => digitChars.idxOf c).reverse

/-- One or more digits of a base write a number. -/
def Writes (base : Nat) (s : List Char) (n : Nat) : Prop :=
  s ≠ [] ∧ (∀ c ∈ s, c ∈ digitChars.take base) ∧ n = positional base s

/-- The literals, trimmed and in lower case, with their numbers. -/
inductive Denotes : List Char → Nat → Prop
  | hexadecimal {s : List Char} {n : Nat} (h : Writes 16 s n) (hlength : s.length ≤ 4) :
      Denotes (s ++ ['h']) n
  | decimal {s : List Char} {n : Nat} (h : Writes 10 s n) (hmax : n ≤ 32767) : Denotes s n

/-- A row of decimal digits, leading zeros included, is longer than a limit allows. -/
def IsOverlong (limit : Number.DigitLimit) (s : List Char) : Prop :=
  (∀ c ∈ s, c ∈ digitChars.take 10) ∧ limit.exceeded s.length = true

/-! ## Digits -/

/-- Which characters are digits: only ASCII characters can be, and these are tried. -/
theorem isSome_iff_mem {digit? : Char → Option Nat} {digits : List Char}
    (hchar : ∀ {c}, (digit? c).isSome = true → isLiteralChar c = true)
    (hascii : ∀ n < 128, (digit? (Char.ofNat n)).isSome = true → Char.ofNat n ∈ digits)
    (hdigits : (digits.all fun c => (digit? c).isSome) = true) (c : Char) :
    (digit? c).isSome = true ↔ c ∈ digits := by
  refine ⟨fun h => ?_, List.all_eq_true.1 hdigits c⟩
  have hlt : c.toNat < 128 := by
    have := isLiteralChar_le (hchar h)
    omega
  exact of_ascii (p := fun c => (digit? c).isSome = true → c ∈ digits) hascii hlt h

theorem decimalDigit?_isSome (c : Char) :
    (decimalDigit? c).isSome = true ↔ c ∈ "0123456789".toList :=
  isSome_iff_mem isLiteralChar_of_decimalDigit? (by decide) (by decide) c

theorem hexDigit?_isSome (c : Char) :
    (hexDigit? c).isSome = true ↔ c ∈ "0123456789abcdef".toList :=
  isSome_iff_mem isLiteralChar_of_hexDigit? (by decide) (by decide) c

/-- A reader takes the digits of a base for their places among the digits, and nothing else. -/
structure ReadsDigits (base : Nat) (digit? : Char → Option Nat) : Prop where
  accepts : ∀ c, (digit? c).isSome = true ↔ c ∈ digitChars.take base
  value : ∀ c ∈ digitChars.take base, digit? c = some (digitChars.idxOf c)

theorem readsDigits_decimal : ReadsDigits 10 decimalDigit? :=
  ⟨decimalDigit?_isSome, forall_mem_of_all (by decide)⟩

theorem readsDigits_hexadecimal : ReadsDigits 16 hexDigit? :=
  ⟨hexDigit?_isSome, forall_mem_of_all (by decide)⟩

theorem positional_cons (base : Nat) (c : Char) (s : List Char) :
    positional base (c :: s) = digitChars.idxOf c * base ^ s.length + positional base s := by
  rw [positional, List.map_cons, Nat.ofDigits_reverse_cons, List.length_map, ← positional]
  ring

section Digits

variable {base n : Nat} {digit? : Char → Option Nat} {s : List Char}

/-- Digits are read as their number, behind the number `acc` that stands before them. -/
theorem ReadsDigits.valueFrom (h : ReadsDigits base digit?)
    (hs : ∀ c ∈ s, c ∈ digitChars.take base) (acc : Nat) :
    valueFrom base digit? acc s = some (acc * base ^ s.length + positional base s) := by
  induction s generalizing acc with
  | nil => simp [Literal.valueFrom, positional]
  | cons c s ih =>
      have hc := h.value c (hs c List.mem_cons_self)
      have hrest := ih (fun d hd => hs d (List.mem_cons_of_mem c hd))
        (base * acc + digitChars.idxOf c)
      rw [Literal.valueFrom, hc]
      refine hrest.trans (congrArg some ?_)
      rw [positional_cons, List.length_cons]
      ring

/-- What is read as a number is what writes it. -/
theorem ReadsDigits.value?_eq_some_iff (h : ReadsDigits base digit?) :
    value? base digit? s = some n ↔ Writes base s n := by
  have hread (hne : s ≠ []) (hs : ∀ c ∈ s, c ∈ digitChars.take base) :
      value? base digit? s = some (positional base s) := by
    obtain ⟨c, r, rfl⟩ := List.exists_cons_of_ne_nil hne
    have hvalue := h.valueFrom hs 0
    rwa [Nat.zero_mul, Nat.zero_add] at hvalue
  constructor
  · intro hvalue
    obtain ⟨hne, hdigits⟩ := value?_digits hvalue
    have hs : ∀ c ∈ s, c ∈ digitChars.take base := fun c hc => (h.accepts c).1 (hdigits c hc)
    exact ⟨hne, hs, Option.some.inj (hvalue.symm.trans (hread hne hs))⟩
  · rintro ⟨hne, hs, rfl⟩
    exact hread hne hs

/-- Hexadecimal digits bound their number by how many they are. -/
theorem Writes.lt (h : Writes 16 s n) : n < 16 ^ s.length := by
  obtain ⟨-, hs, rfl⟩ := h
  have hlt : ∀ d ∈ (s.map fun c => digitChars.idxOf c).reverse, d < 16 := by
    intro d hd
    obtain ⟨c, hc, rfl⟩ := List.mem_map.1 (List.mem_reverse.1 hd)
    exact List.idxOf_lt_length_of_mem (hs c hc)
  have hbound := Nat.ofDigits_lt_base_pow_length (by decide) hlt
  rwa [List.length_reverse, List.length_map] at hbound

end Digits

/-! ## Numbers -/

section Numbers

variable {u : List Char} {n : Nat} {t : String} {e : Error}

/-- Exactly the literals are read, as the numbers that they denote. -/
theorem ofLower?_eq_some_iff : ofLower? u = some n ↔ Denotes u n := by
  constructor
  · intro h
    rw [ofLower?] at h
    split at h
    · next hlast =>
        split at h
        · next hlength =>
            have hu : u = u.dropLast ++ ['h'] :=
              (List.dropLast_append_getLast? 'h' (by rw [hlast]; rfl)).symm
            rw [hu]
            exact .hexadecimal (readsDigits_hexadecimal.value?_eq_some_iff.1 h) hlength
        · cases h
    · obtain ⟨hvalue, hmax⟩ := Option.filter_eq_some_iff.1 h
      exact .decimal (readsDigits_decimal.value?_eq_some_iff.1 hvalue) (of_decide_eq_true hmax)
  · intro h
    cases h with
    | @hexadecimal s _ h hlength =>
        rw [ofLower?, if_pos List.getLast?_concat, List.dropLast_concat,
          if_pos (show s.length ≤ maxHexDigits from hlength)]
        exact readsDigits_hexadecimal.value?_eq_some_iff.2 h
    | decimal h hmax =>
        -- the last character is a digit, so it is not `h`
        have hlast : u.getLast? ≠ some 'h' := fun hlast =>
          absurd (h.2.1 'h' (List.mem_of_getLast? hlast)) (by decide)
        rw [ofLower?, if_neg hlast]
        exact Option.filter_eq_some_iff.2
          ⟨readsDigits_decimal.value?_eq_some_iff.2 h, decide_eq_true hmax⟩

/-- The number of a literal is that of a word. -/
theorem Denotes.le (h : Denotes u n) : n ≤ 0xFFFF := by
  cases h with
  | @hexadecimal s _ h hlength =>
      have hpow : 16 ^ s.length ≤ 16 ^ 4 := Nat.pow_le_pow_right (by decide) hlength
      have := h.lt
      omega
  | decimal h hmax => omega

/-- Without a limit on its digits a text is read by the grammar alone. -/
theorem read_none (t : String) :
    read t none = (ofLower? (lower (trim t.toList))).elim (.error (.malformedLiteral t)) .ok := by
  simp only [read, within_none]
  cases ofLower? (lower (trim t.toList)) <;> rfl

theorem read_none_eq_ok_iff : read t none = .ok n ↔ Denotes (lower (trim t.toList)) n := by
  rw [read_none, ← ofLower?_eq_some_iff]
  cases ofLower? (lower (trim t.toList)) <;> simp

theorem read_none_eq_error_iff : read t none = .error e ↔
    e = .malformedLiteral t ∧ ∀ n, ¬Denotes (lower (trim t.toList)) n := by
  simp only [read_none, ← ofLower?_eq_some_iff, ← Option.eq_none_iff_forall_ne_some]
  cases ofLower? (lower (trim t.toList)) with
  | none => simp [eq_comm]
  | some n => simp

theorem readByte_none_eq_ok_iff {b : Byte} : readByte t none = .ok b ↔
    ∃ n, Denotes (lower (trim t.toList)) n ∧ b.toNat = n % 256 := by
  simp only [← read_none_eq_ok_iff]
  rw [readByte]
  cases read t none with
  | error e => simp [Except.map]
  | ok n => simp [Except.map, BitVec.toNat_eq, eq_comm]

/-- A number is read as the word whose halves, low byte first, are its places in base 256. -/
theorem readWord_none_eq_ok_iff {w : Word} : readWord t none = .ok w ↔
    ∃ n, Denotes (lower (trim t.toList)) n ∧
      (lowByte w).toNat + 256 * (highByte w).toNat = n := by
  have hhalves : (lowByte w).toNat + 256 * (highByte w).toNat = w.toNat := by
    rw [toNat_lowByte, toNat_highByte, Nat.mod_add_div]
  rw [hhalves, readWord]
  constructor
  · intro h
    cases hread : read t none with
    | error e =>
        rw [hread] at h
        cases h
    | ok n =>
        have hn := read_none_eq_ok_iff.1 hread
        have hle := hn.le
        rw [hread] at h
        cases h
        refine ⟨n, hn, ?_⟩
        rw [BitVec.toNat_ofNat]
        exact Nat.mod_eq_of_lt (by omega)
  · rintro ⟨n, hn, rfl⟩
    rw [read_none_eq_ok_iff.2 hn, Except.map, BitVec.ofNat_toNat, BitVec.setWidth_eq]

/-- Bytes and words are refused where numbers are. -/
theorem map_eq_error_iff {α : Type} (f : Nat → α) :
    (read t none).map f = .error e ↔ read t none = .error e := by
  cases read t none <;> simp [Except.map]

end Numbers

/-! ## Restart numbers -/

section Restarts

variable {t : String}

theorem readIndex_none_eq_ok_iff {k : Fin 8} :
    readIndex t none = .ok k ↔ Writes 10 (trim t.toList) k := by
  rw [← readsDigits_decimal.value?_eq_some_iff, readIndex]
  simp only [within_none]
  cases value? 10 decimalDigit? (trim t.toList) with
  | none => simp
  | some n =>
      by_cases hn : n < 8
      · simp [hn, Fin.ext_iff]
      · have hne : n ≠ k := by omega
        simp [hn, hne]

theorem readIndex_none_eq_error_iff {e : Error} : readIndex t none = .error e ↔
    e = .indexOutOfRange t ∧ ∀ k ≤ 7, ¬Writes 10 (trim t.toList) k := by
  simp only [← readsDigits_decimal.value?_eq_some_iff]
  rw [readIndex]
  simp only [within_none]
  cases value? 10 decimalDigit? (trim t.toList) with
  | none => simp [eq_comm]
  | some n =>
      by_cases hn : n < 8
      · simp [hn]
        omega
      · simp [hn, eq_comm]
        omega

end Restarts

/-! ## Limits -/

section Limits

variable {α : Type} {limit : Number.DigitLimit} {s : List Char}

theorem isOverlong_iff : IsOverlong limit s ↔
    (s.all (fun c => (decimalDigit? c).isSome) && limit.exceeded s.length) = true := by
  simp only [IsOverlong, Bool.and_eq_true, List.all_eq_true, readsDigits_decimal.accepts]

/-- A limit counts only for rows of decimal digits that are too long. -/
theorem within_eq (limit : Number.DigitLimit) (s : List Char) (value : Except Error α) :
    (IsOverlong limit s → within limit s value = .error (.tooManyDigits s.length)) ∧
    (¬IsOverlong limit s → within limit s value = value) := by
  rw [isOverlong_iff, within]
  exact ⟨fun h => if_pos h, fun h => if_neg h⟩

/-- A text is read within a limit as it is without one, unless its digits are too many. -/
theorem read_within (t : String) (limit : Number.DigitLimit) :
    read t limit = within limit (lower (trim t.toList)) (read t none) := by
  simp only [read, within_none]

theorem readIndex_within (t : String) (limit : Number.DigitLimit) :
    readIndex t limit = within limit (trim t.toList) (readIndex t none) := by
  simp only [readIndex, within_none]

/-- No limit counts for a text that ends in `h`, which is no decimal digit. -/
theorem read_suffixed {t : String} (hback : (lower (trim t.toList)).getLast? = some 'h') :
    read t limit =
      (ofLower? (lower (trim t.toList))).elim (.error (.malformedLiteral t)) .ok := by
  have hfits : ¬IsOverlong limit (lower (trim t.toList)) := fun h =>
    absurd (h.1 'h' (List.mem_of_getLast? hback)) (by decide)
  rw [read_within, (within_eq limit _ _).2 hfits, read_none]

end Limits

end Source.Literal

end Lab8085
