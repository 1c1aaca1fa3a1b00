/-
  Lab8085.Proofs.Assembler.Text

  How source text comes apart.  The code of a line consists of name characters,
  spaces, tabs, colons and commas; everything else can only stand in a comment.
  For such text the Unicode rules of lower case, blanks and line breaks come down to
  ASCII: lower case acts on each character, and lines, words and the parts around a
  separator are found where they were put.
-/
import Lab8085.Source.Line
import Lab8085.Text.Lines
import Mathlib.Data.List.TakeWhile

namespace Lab8085.Text

/-! ## Characters of the code part -/

/-- The characters of names: ASCII letters, digits and the underscore. -/
def isNameChar (c : Char) : Bool :=
  c.isAlphanum || c == '_'

/-- The characters that code is written with. -/
def isCodeChar (c : Char) : Bool :=
  isNameChar c || c == ' ' || c == '\t' || c == ':' || c == ','

/-- What holds of the first 128 code points holds of every ASCII character. -/
theorem of_ascii {p : Char → Prop} (h : ∀ n < 128, p (Char.ofNat n)) {c : Char}
    (hc : c.toNat < 128) : p c := by
  rw [← Char.ofNat_toNat c]
  exact h _ hc

/-- What holds of every character of a text is found by computing it. -/
theorem forall_mem_of_all {p : Char → Prop} [DecidablePred p] {s : List Char}
    (h : s.all (fun c => decide (p c)) = true) : ∀ c ∈ s, p c :=
  fun c hc => of_decide_eq_true (List.all_eq_true.1 h c hc)

/-- Letters and digits lie between bounds below 128. -/
theorem isNameChar_lt {c : Char} (h : isNameChar c = true) : c.toNat < 128 := by
  have hbound {high : UInt32} (hc : c.val ≤ high) (hh : high.toNat < 128) : c.toNat < 128 :=
    Nat.lt_of_le_of_lt hc hh
  have hrange {low high : UInt32} (hc : (decide (low ≤ c.val) && decide (c.val ≤ high)) = true) :
      c.val ≤ high :=
    of_decide_eq_true (Bool.and_eq_true_iff.1 hc).2
  rw [isNameChar, Char.isAlphanum, Bool.or_eq_true, Bool.or_eq_true] at h
  rcases h with (halpha | hdigit) | hscore
  · rcases Bool.or_eq_true_iff.1 halpha with hupper | hlower
    · exact hbound (of_decide_eq_true hupper).2 (by decide)
    · exact hbound (hrange hlower) (by decide)
  · exact hbound (hrange hdigit) (by decide)
  · rw [beq_iff_eq.1 hscore]
    decide

theorem isCodeChar_of_isNameChar {c : Char} (h : isNameChar c = true) : isCodeChar c = true := by
  simp [isCodeChar, h]

theorem isCodeChar_lt {c : Char} (h : isCodeChar c = true) : c.toNat < 128 := by
  simp only [isCodeChar, Bool.or_eq_true, beq_iff_eq] at h
  rcases h with (((h | rfl) | rfl) | rfl) | rfl
  · exact isNameChar_lt h
  all_goals decide

/-- Lower case leads from name characters to name characters. -/
theorem isNameChar_toLower {c : Char} (h : isNameChar c = true) : isNameChar c.toLower = true :=
  of_ascii (p := fun c => isNameChar c = true → isNameChar c.toLower = true) (by decide)
    (isNameChar_lt h) h

theorem isBlank_of_isNameChar {c : Char} (h : isNameChar c = true) : isBlank c = false :=
  of_ascii (p := fun c => isNameChar c = true → isBlank c = false) (by decide) (isNameChar_lt h) h

/-- No separator is a name character. -/
theorem ne_of_isNameChar {c : Char} (h : isNameChar c = true) :
    c ≠ ' ' ∧ c ≠ ':' ∧ c ≠ ';' ∧ c ≠ ',' := by
  refine ⟨?_, ?_, ?_, ?_⟩
  all_goals rintro rfl; revert h; decide

theorem isLineBreak_of_isCodeChar {c : Char} (h : isCodeChar c = true) : isLineBreak c = false :=
  of_ascii (p := fun c => isCodeChar c = true → isLineBreak c = false) (by decide)
    (isCodeChar_lt h) h

/-- No code character becomes a semicolon. -/
theorem toLower_ne_semicolon {c : Char} (h : isCodeChar c = true) : c.toLower ≠ ';' :=
  of_ascii (p := fun c => isCodeChar c = true → c.toLower ≠ ';') (by decide) (isCodeChar_lt h) h

/-! ## Gaps -/

/-- Any number of spaces and tabs. -/
def IsGap (g : List Char) : Prop :=
  ∀ c ∈ g, c = ' ' ∨ c = '\t'

theorem IsGap.isCodeChar {g : List Char} (hg : IsGap g) : ∀ c ∈ g, isCodeChar c = true := by
  intro c hc
  rcases hg c hc with rfl | rfl
  · decide
  · decide

theorem IsGap.isBlank {g : List Char} (hg : IsGap g) : ∀ c ∈ g, isBlank c = true := by
  intro c hc
  rcases hg c hc with rfl | rfl
  · decide
  · decide

theorem IsGap.not_mem {g : List Char} (hg : IsGap g) {c : Char} (h1 : c ≠ ' ') (h2 : c ≠ '\t') :
    c ∉ g := by
  intro hc
  rcases hg c hc with rfl | rfl
  · exact h1 rfl
  · exact h2 rfl

/-- Gaps have no letters. -/
theorem IsGap.map_toLower {g : List Char} (hg : IsGap g) : g.map Char.toLower = g := by
  induction g with
  | nil => rfl
  | cons c g ih =>
      have hc : c.toLower = c := by
        rcases hg c List.mem_cons_self with rfl | rfl
        · decide
        · decide
      rw [List.map_cons, hc, ih fun d hd => hg d (List.mem_cons_of_mem _ hd)]

/-! ## Lines -/

/-- A line feed ends a line that has no break of its own. -/
theorem lines_append_lineFeed {s : List Char} (h : ∀ c ∈ s, isLineBreak c = false)
    (r : List Char) : lines (s ++ '\n' :: r) = s :: lines r := by
  induction s with
  | nil => exact lines_cons_lineFeed r
  | cons c s ih =>
      rw [List.cons_append, lines_cons_of_not_break (h c List.mem_cons_self),
        ih fun d hd => h d (List.mem_cons_of_mem _ hd)]
      rfl

/-! ## Lower case -/

/-- An ASCII beginning is lowered character by character, whatever follows it. -/
theorem lowerFrom_append {s : List Char} (h : ∀ c ∈ s, c.toNat < 128) (before r : List Char) :
    lowerFrom before (s ++ r) = s.map Char.toLower ++ lowerFrom (s.reverse ++ before) r := by
  induction s generalizing before with
  | nil => rfl
  | cons c s ih =>
      rw [List.cons_append, lowerFrom, lowerAt_ascii (h c List.mem_cons_self),
        ih fun d hd => h d (List.mem_cons_of_mem _ hd)]
      simp

/-! ## Blanks and words -/

/-- What is trimmed around a text that begins and ends with something else is trimmed away. -/
theorem trimWhere_append {p : Char → Bool} {g k s : List Char} (hg : ∀ c ∈ g, p c = true)
    (hk : ∀ c ∈ k, p c = true) (hhead : ∀ c ∈ s.head?, p c = false)
    (hlast : ∀ c ∈ s.getLast?, p c = false) : trimWhere p (g ++ s ++ k) = s := by
  have hr : ∀ c ∈ k.reverse, p c = true := fun c hc => hk c (List.mem_reverse.1 hc)
  cases s with
  | nil =>
      -- all is trimmed from the front to the end
      have hall : ∀ c ∈ g ++ k, p c = true := by
        intro c hc
        rcases List.mem_append.1 hc with hc | hc
        · exact hg c hc
        · exact hk c hc
      rw [List.append_nil, trimWhere, List.dropWhile_eq_nil_iff.2 hall]
      rfl
  | cons c s =>
      have hc : p c = false := hhead c rfl
      -- the text by its first character for the front, by its last for the back
      obtain ⟨t, d, hd⟩ := List.eq_nil_or_concat (c :: s) |>.resolve_left (by simp)
      have hdb : p d = false := hlast d (by rw [hd]; simp)
      rw [trimWhere, List.append_assoc, List.dropWhile_append_of_pos hg,
        List.cons_append, List.dropWhile_cons_of_neg (by simp [hc]), ← List.cons_append, hd]
      rw [List.concat_eq_append, List.reverse_append, List.dropWhile_append_of_pos hr,
        List.reverse_append, List.reverse_singleton, List.singleton_append,
        List.dropWhile_cons_of_neg (by simp [hdb])]
      simp

/-- Gaps around a text that begins and ends with a visible character are trimmed away. -/
theorem trim_gaps {g k s : List Char} (h₁ : IsGap g) (h₂ : IsGap k)
    (hhead : ∀ c ∈ s.head?, isBlank c = false) (hlast : ∀ c ∈ s.getLast?, isBlank c = false) :
    trim (g ++ s ++ k) = s :=
  trimWhere_append h₁.isBlank h₂.isBlank hhead hlast

theorem mem_of_mem_trim {c : Char} {s : List Char} (h : c ∈ trim s) : c ∈ s := by
  rw [trim, trimWhere, List.mem_reverse] at h
  have h := (List.dropWhile_sublist _).subset h
  exact (List.dropWhile_sublist _).subset (List.mem_reverse.1 h)

/-- Blanks before words add none. -/
theorem words_blanks {g : List Char} (hg : ∀ c ∈ g, isBlank c = true) (s : List Char) :
    words (g ++ s) = words s := by
  induction g with
  | nil => rfl
  | cons c g ih =>
      rw [List.cons_append, words_cons_blank (hg c List.mem_cons_self),
        ih fun d hd => hg d (List.mem_cons_of_mem _ hd)]

/-- Blanks after words add none. -/
theorem splitWord_append_blanks {g : List Char} (hg : ∀ c ∈ g, isBlank c = true)
    (s : List Char) : splitWord (s ++ g) = splitWord s := by
  induction s with
  | nil =>
      cases g with
      | nil => rfl
      | cons c g =>
          have hw := words_blanks (fun d hd => hg d (List.mem_cons_of_mem c hd)) []
          rw [List.append_nil, words_nil] at hw
          rw [List.nil_append, splitWord_cons_blank (hg c List.mem_cons_self), hw]
          rfl
  | cons c s ih =>
      rw [List.cons_append, splitWord, splitWord, ih]

theorem words_append_blanks {g : List Char} (hg : ∀ c ∈ g, isBlank c = true) (s : List Char) :
    words (s ++ g) = words s := by
  rw [words, splitWord_append_blanks hg, words]

/-- Trimming keeps the words. -/
theorem words_trim (s : List Char) : words (trim s) = words s := by
  -- what is trimmed on either side is blank
  have hfront : ∀ t : List Char, words (t.dropWhile isBlank) = words t := by
    intro t
    conv => rhs; rw [← List.takeWhile_append_dropWhile (p := isBlank) (l := t)]
    exact (words_blanks (fun c hc => List.mem_takeWhile_imp hc) _).symm
  have hback : ∀ t : List Char, words (t.reverse.dropWhile isBlank).reverse = words t := by
    intro t
    have ht : t = (t.reverse.dropWhile isBlank).reverse
        ++ (t.reverse.takeWhile isBlank).reverse := by
      rw [← List.reverse_append, List.takeWhile_append_dropWhile, List.reverse_reverse]
    conv => rhs; rw [ht]
    exact (words_append_blanks
      (fun c hc => List.mem_takeWhile_imp (List.mem_reverse.1 hc)) _).symm
  rw [trim, trimWhere, hback, hfront]

/-- Visible characters in front of a text lengthen its first word. -/
theorem splitWord_append {w : List Char} (hw : ∀ c ∈ w, isBlank c = false) (s : List Char) :
    splitWord (w ++ s) = (w ++ (splitWord s).1, (splitWord s).2) := by
  induction w with
  | nil => rfl
  | cons c w ih =>
      rw [List.cons_append, splitWord_cons_visible (hw c List.mem_cons_self),
        ih fun d hd => hw d (List.mem_cons_of_mem _ hd)]
      rfl

/-- A gap ends the word that stands before it. -/
theorem words_append_gap {w g : List Char} (hw : ∀ c ∈ w, isBlank c = false) (hne : w ≠ [])
    (hg : IsGap g) (hgne : g ≠ []) (s : List Char) :
    words (w ++ g ++ s) = w :: words s := by
  obtain ⟨c, g, rfl⟩ := List.exists_cons_of_ne_nil hgne
  have hc : isBlank c = true := hg.isBlank c List.mem_cons_self
  have hg' : ∀ d ∈ g, isBlank d = true := fun d hd => hg.isBlank d (List.mem_cons_of_mem _ hd)
  rw [List.append_assoc, words, splitWord_append hw, List.cons_append, splitWord_cons_blank hc,
    words_blanks hg']
  simp [consWord, hne]

/-- A text without blanks is a single word. -/
theorem words_visible {w : List Char} (hw : ∀ c ∈ w, isBlank c = false) (hne : w ≠ []) :
    words w = [w] := by
  have h := splitWord_append hw []
  rw [List.append_nil] at h
  rw [words, h]
  simp [splitWord, consWord, hne]

end Lab8085.Text

namespace Lab8085.Source.Line

/-! ## Cuts at a separator -/

theorem cutAt?_append {c : Char} {s : List Char} (h : c ∉ s) (r : List Char) :
    cutAt? c (s ++ c :: r) = some (s, r) := by
  induction s with
  | nil => simp [cutAt?]
  | cons d s ih =>
      have hd : d ≠ c := fun e => h (e ▸ List.mem_cons_self)
      rw [List.cons_append, cutAt?, if_neg hd, ih fun hc => h (List.mem_cons_of_mem _ hc)]
      rfl

theorem cutAt?_eq_none {c : Char} {s : List Char} (h : c ∉ s) : cutAt? c s = none := by
  induction s with
  | nil => rfl
  | cons d s ih =>
      have hd : d ≠ c := fun e => h (e ▸ List.mem_cons_self)
      rw [cutAt?, if_neg hd, ih fun hc => h (List.mem_cons_of_mem _ hc)]
      rfl

theorem before_append {c : Char} {s : List Char} (h : c ∉ s) (r : List Char) :
    before c (s ++ c :: r) = s := by
  have hs : ∀ d ∈ s, (decide (d ≠ c)) = true := by
    intro d hd
    simpa using fun e : d = c => h (e ▸ hd)
  rw [before, List.takeWhile_append_of_pos hs]
  simp

theorem before_eq_self {c : Char} {s : List Char} (h : c ∉ s) : before c s = s := by
  rw [before, List.takeWhile_eq_self_iff]
  intro d hd
  simpa using fun e : d = c => h (e ▸ hd)

end Lab8085.Source.Line
