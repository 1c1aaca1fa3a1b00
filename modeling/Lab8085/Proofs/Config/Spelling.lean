/-
  Lab8085.Proofs.Config.Spelling

  How integers are written in a configuration does not matter.

  Beside numbers a configuration may have texts: decimal digits with a sign, hexadecimal digits
  after `0x`, one to four of them before an `h`.  `Spells` has these forms, and `integer?_spelled`
  says that each is read as the number it writes.  The forms are told apart by the beginning and
  the end of a text alone, which no digit can imitate.

  A document that is spelled in another way (`Respelled`) differs in the values under the keys of
  integers, however deep they lie.  One lemma for each reading function says that the results are
  alike (`Alike`), and the lemmas go together as the functions do.
-/
import Lab8085.Proofs.Assembler.Numeral
import Lab8085.Config.Reading
import Mathlib.Data.List.Forall2

namespace Lab8085.Config

/-! ## Numerals -/

/-- The digits in order, in either case. -/
def smallDigits : List Char := "0123456789abcdef".toList

def capitalDigits : List Char := "0123456789ABCDEF".toList

/-- A digit with its value. -/
def IsDigit (base : Nat) (c : Char) (d : Nat) : Prop :=
  d < base ∧ (smallDigits[d]? = some c ∨ capitalDigits[d]? = some c)

/-- The number of a row of digits. -/
def numberOf (base : Nat) (ds : List Nat) : Nat :=
  ds.foldl (fun n d => base * n + d) 0

/-- At least one digit, and the number that the digits write. -/
def Writes (base : Nat) (cs : List Char) (n : Nat) : Prop :=
  cs ≠ [] ∧ ∃ ds, List.Forall₂ (IsDigit base) cs ds ∧ n = numberOf base ds

/-- The forms in which an integer may be written as text. Decimal digits are read up to 4300. -/
inductive Spells : Int → List Char → Prop
  | plain {cs : List Char} {n : Nat} (h : Writes 10 cs n) (hlength : cs.length ≤ 4300) :
      Spells n cs
  | plus {cs : List Char} {n : Nat} (h : Writes 10 cs n) (hlength : cs.length ≤ 4300) :
      Spells n ('+' :: cs)
  | minus {cs : List Char} {n : Nat} (h : Writes 10 cs n) (hlength : cs.length ≤ 4300) :
      Spells (-n) ('-' :: cs)
  | marked {cs : List Char} {n : Nat} {x : Char} (h : Writes 16 cs n) (hx : x = 'x' ∨ x = 'X') :
      Spells n ('0' :: x :: cs)
  | suffixed {cs : List Char} {n : Nat} {x : Char} (h : Writes 16 cs n) (hlength : cs.length ≤ 4)
      (hx : x = 'h' ∨ x = 'H') : Spells n (cs ++ [x])

/-- A text that writes an integer, perhaps with blanks around it. -/
def SpelledBy (s : String) (n : Int) : Prop :=
  ∃ front body back, s.toList = front ++ body ++ back ∧ (∀ c ∈ front, Text.isBlank c = true) ∧
    (∀ c ∈ back, Text.isBlank c = true) ∧ Spells n body

/-! ## Digits -/

section Digits

variable {base d n : Nat} {c : Char} {cs : List Char}

/-- What holds of the sixteen digits in both cases holds of every digit. -/
theorem IsDigit.of_all {P : Char → Nat → Prop}
    (h : ∀ d : Fin 16, P smallDigits[d] d ∧ P capitalDigits[d] d) (hc : IsDigit base c d) :
    P c d := by
  obtain ⟨-, hc | hc⟩ := hc
  · obtain ⟨hd, rfl⟩ := List.getElem?_eq_some_iff.1 hc
    exact (h ⟨d, hd⟩).1
  · obtain ⟨hd, rfl⟩ := List.getElem?_eq_some_iff.1 hc
    exact (h ⟨d, hd⟩).2

theorem IsDigit.isNameChar (hc : IsDigit base c d) : Text.isNameChar c = true :=
  hc.of_all (P := fun c _ => Text.isNameChar c = true) (by decide)

theorem IsDigit.toLower_ne (hc : IsDigit base c d) : c.toLower ≠ 'x' ∧ c.toLower ≠ 'h' ∧
    c.toLower ≠ '-' ∧ c.toLower ≠ '+' ∧ c.toLower ≠ '_' :=
  hc.of_all (P := fun c _ => c.toLower ≠ 'x' ∧ c.toLower ≠ 'h' ∧ c.toLower ≠ '-' ∧
    c.toLower ≠ '+' ∧ c.toLower ≠ '_') (by decide)

theorem IsDigit.hexDigit? (hc : IsDigit base c d) :
    Source.Literal.hexDigit? c.toLower = some d :=
  hc.of_all (P := fun c d => Source.Literal.hexDigit? c.toLower = some d) (by decide)

theorem IsDigit.digitIn? (hbase : base = 10 ∨ base = 16) (hc : IsDigit base c d) :
    Number.digitIn? base c.toLower = some d := by
  have hboth := hc.of_all (P := fun c d => Number.digitIn? 16 c.toLower = some d ∧
    (d < 10 → Number.digitIn? 10 c.toLower = some d)) (by decide +kernel)
  rcases hbase with rfl | rfl
  · exact hboth.2 hc.1
  · exact hboth.1

/-- Every character of a row of digits is a digit. -/
theorem Writes.isDigit (h : Writes base cs n) : ∀ c ∈ cs, ∃ d, IsDigit base c d := by
  obtain ⟨-, ds, hds, -⟩ := h
  induction hds with
  | nil => exact nofun
  | @cons c d cs ds hc _ ih => exact List.forall_mem_cons.2 ⟨⟨d, hc⟩, ih⟩

/-- Digits in lower case are not blank, no letter by which the forms are told apart, no sign and no
    underscore. -/
theorem Writes.lowered (h : Writes base cs n) : ∀ c ∈ cs.map Char.toLower,
    Number.isBlank c = false ∧ c ≠ 'x' ∧ c ≠ 'h' ∧ c ≠ '-' ∧ c ≠ '+' ∧ c ≠ '_' := by
  intro c hc
  obtain ⟨b, hb, rfl⟩ := List.mem_map.1 hc
  obtain ⟨d, hd⟩ := h.isDigit b hb
  have hvisible : Text.isBlank b.toLower = false :=
    Text.isBlank_of_isNameChar (Text.isNameChar_toLower hd.isNameChar)
  refine ⟨?_, hd.toLower_ne⟩
  rw [Number.isBlank, hvisible, Bool.false_and]

/-- Digits in lower case are read as the number that they write, behind others. -/
theorem digitsFrom_eq (hbase : base = 10 ∨ base = 16) {ds : List Nat}
    (h : List.Forall₂ (IsDigit base) cs ds) (acc : Nat) {afterDigit : Bool}
    (hne : afterDigit = true ∨ cs ≠ []) :
    Number.digitsFrom base acc afterDigit (cs.map Char.toLower) =
      some (ds.foldl (fun n d => base * n + d) acc) := by
  induction h generalizing acc afterDigit with
  | nil =>
      have hafter : afterDigit = true := hne.resolve_right fun hnil => hnil rfl
      rw [hafter]
      rfl
  | @cons c d cs ds hc _ ih =>
      obtain ⟨-, -, -, -, hscore⟩ := hc.toLower_ne
      rw [List.map_cons, Number.digitsFrom, if_neg hscore, hc.digitIn? hbase]
      exact ih (base * acc + d) (.inl rfl)

theorem Writes.natural? (hbase : base = 10 ∨ base = 16) (h : Writes base cs n) :
    Number.natural? base (cs.map Char.toLower) = some n := by
  obtain ⟨hne, ds, hds, rfl⟩ := h
  exact digitsFrom_eq hbase hds 0 (.inr hne)

theorem valueFrom_eq {ds : List Nat} (h : List.Forall₂ (IsDigit 16) cs ds) (acc : Nat) :
    Source.Literal.valueFrom 16 Source.Literal.hexDigit? acc (cs.map Char.toLower) =
      some (ds.foldl (fun n d => 16 * n + d) acc) := by
  induction h generalizing acc with
  | nil => rfl
  | @cons c d cs ds hc _ ih =>
      rw [List.map_cons, Source.Literal.valueFrom, hc.hexDigit?]
      exact ih (16 * acc + d)

theorem Writes.value? (h : Writes 16 cs n) :
    Source.Literal.value? 16 Source.Literal.hexDigit? (cs.map Char.toLower) = some n := by
  obtain ⟨hne, ds, hds, rfl⟩ := h
  obtain ⟨c, cs, rfl⟩ := List.exists_cons_of_ne_nil hne
  exact valueFrom_eq hds 0

end Digits

/-! ## The forms -/

section Forms

variable {n : Nat} {cs : List Char}

theorem unsigned_decimal (h : Writes 10 cs n) (hlength : cs.length ≤ 4300) :
    Number.unsigned 10 (cs.map Char.toLower) = .ok n := by
  have hmarked (s : List Char) : Number.marked? 10 s = Number.natural? 10 s := by
    unfold Number.marked?
    split
    · exact if_neg nofun
    · rfl
  have hfits : Number.DigitLimit.standard.exceeded
      ((cs.map Char.toLower).filter (· != '_')).length = false := by
    have hfilter := List.length_filter_le (· != '_') (cs.map Char.toLower)
    rw [List.length_map] at hfilter
    show decide (4300 < _) = false
    rw [decide_eq_false_iff_not]
    omega
  simp only [Number.unsigned, hmarked, h.natural? (.inl rfl), hfits, Bool.and_false,
    Bool.false_eq_true, if_false]

theorem unsigned_hexadecimal (h : Writes 16 cs n) :
    Number.unsigned 16 ('0' :: 'x' :: cs.map Char.toLower) = .ok n := by
  have hmarked : Number.marked? 16 ('0' :: 'x' :: cs.map Char.toLower) = some n := by
    rw [Number.marked?, if_pos (by decide)]
    · exact h.natural? (.inr rfl)
    · intro r hscore
      obtain ⟨-, -, -, -, -, hne⟩ := h.lowered '_' (by rw [hscore]; exact List.mem_cons_self)
      exact hne rfl
  simp only [Number.unsigned, hmarked]
  rfl

/-- A text without blanks is not trimmed. -/
theorem trimWhere_visible {p : Char → Bool} {s : List Char} (h : ∀ c ∈ s, p c = false) :
    Text.trimWhere p s = s := by
  have htrim := Text.trimWhere_append (g := []) (k := []) (s := s) (p := p) nofun nofun
    (fun c hc => h c (List.mem_of_mem_head? hc)) (fun c hc => h c (List.mem_of_mem_getLast? hc))
  rwa [List.nil_append, List.append_nil] at htrim

theorem take_ne_marked {s : List Char} (hx : 'x' ∉ s) : s.take 2 ≠ ['0', 'x'] := by
  intro htake
  have hmem : 'x' ∈ s.take 2 := by
    rw [htake]
    decide
  exact hx (List.mem_of_mem_take hmem)

/-- A text is not taken for another form if its characters are not those that mark it. -/
theorem integerOfLower?_decimal {s : List Char} (hx : 'x' ∉ s) (hh : 'h' ∉ s) :
    integerOfLower? s = (Number.integer 10 s).toOption := by
  have hback : s.getLast? ≠ some 'h' := fun hlast => hh (List.mem_of_getLast? hlast)
  rw [integerOfLower?, if_neg (take_ne_marked hx), if_neg hback]

theorem integerOfLower?_plain (h : Writes 10 cs n) (hlength : cs.length ≤ 4300) :
    integerOfLower? (cs.map Char.toLower) = some (n : Int) := by
  have hx : 'x' ∉ cs.map Char.toLower := fun hmem => (h.lowered 'x' hmem).2.1 rfl
  have hh : 'h' ∉ cs.map Char.toLower := fun hmem => (h.lowered 'h' hmem).2.2.1 rfl
  have hunsigned := unsigned_decimal h hlength
  have htrim : Text.trimWhere Number.isBlank (cs.map Char.toLower) = cs.map Char.toLower :=
    trimWhere_visible fun c hc => (h.lowered c hc).1
  rw [integerOfLower?_decimal hx hh, Number.integer, htrim]
  split
  · next r hminus =>
      obtain ⟨-, -, -, hne, -⟩ := h.lowered '-' (by rw [hminus]; exact List.mem_cons_self)
      exact absurd rfl hne
  · next r hplus =>
      obtain ⟨-, -, -, -, hne, -⟩ := h.lowered '+' (by rw [hplus]; exact List.mem_cons_self)
      exact absurd rfl hne
  · rw [hunsigned]
    rfl

/-- A sign stands before a decimal number. -/
theorem integerOfLower?_signed (h : Writes 10 cs n) (hlength : cs.length ≤ 4300) {sign : Char}
    (hsign : sign = '+' ∨ sign = '-') :
    integerOfLower? (sign :: cs.map Char.toLower) =
      some (if sign = '-' then -(n : Int) else n) := by
  have hx : 'x' ∉ sign :: cs.map Char.toLower := by
    intro hmem
    rcases List.mem_cons.1 hmem with rfl | hmem
    · exact absurd hsign (by decide)
    · exact (h.lowered 'x' hmem).2.1 rfl
  have hh : 'h' ∉ sign :: cs.map Char.toLower := by
    intro hmem
    rcases List.mem_cons.1 hmem with rfl | hmem
    · exact absurd hsign (by decide)
    · exact (h.lowered 'h' hmem).2.2.1 rfl
  have htrim : Text.trimWhere Number.isBlank (sign :: cs.map Char.toLower) =
      sign :: cs.map Char.toLower := by
    refine trimWhere_visible (List.forall_mem_cons.2 ⟨?_, fun c hc => (h.lowered c hc).1⟩)
    rcases hsign with rfl | rfl
    · decide
    · decide
  rw [integerOfLower?_decimal hx hh, Number.integer, htrim]
  rcases hsign with rfl | rfl
  · simp only [unsigned_decimal h hlength]
    rfl
  · simp only [unsigned_decimal h hlength]
    rfl

theorem integerOfLower?_marked (h : Writes 16 cs n) :
    integerOfLower? ('0' :: 'x' :: cs.map Char.toLower) = some (n : Int) := by
  have htrim : Text.trimWhere Number.isBlank ('0' :: 'x' :: cs.map Char.toLower) =
      '0' :: 'x' :: cs.map Char.toLower := by
    refine trimWhere_visible ?_
    simp only [List.forall_mem_cons]
    exact ⟨by decide, by decide, fun c hc => (h.lowered c hc).1⟩
  have hfront : ('0' :: 'x' :: cs.map Char.toLower).take 2 = ['0', 'x'] := rfl
  rw [integerOfLower?, if_pos hfront, Number.integer, htrim]
  split
  · next hminus => cases hminus
  · next hplus => cases hplus
  · rw [unsigned_hexadecimal h]
    rfl

/-- What ends in `h` and does not begin with `0x` is read as in an assembly source. -/
theorem integerOfLower?_literal {s : List Char} (hfront : s.take 2 ≠ ['0', 'x'])
    (hback : s.getLast? = some 'h') :
    integerOfLower? s = (Source.Literal.ofLower? s).map fun n => (n : Int) := by
  rw [integerOfLower?, if_neg hfront, if_pos hback]

theorem integerOfLower?_suffixed (h : Writes 16 cs n) (hlength : cs.length ≤ 4) :
    integerOfLower? (cs.map Char.toLower ++ ['h']) = some (n : Int) := by
  have hx : 'x' ∉ cs.map Char.toLower ++ ['h'] := by
    intro hmem
    rcases List.mem_append.1 hmem with hmem | hmem
    · exact (h.lowered 'x' hmem).2.1 rfl
    · exact absurd (List.mem_singleton.1 hmem) (by decide)
  have hfits : (cs.map Char.toLower).length ≤ Source.Literal.maxHexDigits := by
    rw [List.length_map]
    exact hlength
  rw [integerOfLower?_literal (take_ne_marked hx) List.getLast?_concat, Source.Literal.ofLower?,
    if_pos List.getLast?_concat, List.dropLast_concat, if_pos hfits, h.value?]
  rfl

/-! ## Texts -/

/-- What an integer is written with is ASCII and not blank. -/
theorem Spells.chars {k : Int} {body : List Char} (h : Spells k body) :
    ∀ c ∈ body, c.toNat < 128 ∧ Text.isBlank c = false := by
  have hdigits {base m : Nat} {ds : List Char} (h : Writes base ds m) :
      ∀ c ∈ ds, c.toNat < 128 ∧ Text.isBlank c = false := by
    intro c hc
    obtain ⟨d, hd⟩ := h.isDigit c hc
    exact ⟨Text.isNameChar_lt hd.isNameChar, Text.isBlank_of_isNameChar hd.isNameChar⟩
  cases h with
  | plain h _ => exact hdigits h
  | plus h _ => exact List.forall_mem_cons.2 ⟨by decide, hdigits h⟩
  | minus h _ => exact List.forall_mem_cons.2 ⟨by decide, hdigits h⟩
  | marked h hx =>
      refine List.forall_mem_cons.2 ⟨by decide, List.forall_mem_cons.2 ⟨?_, hdigits h⟩⟩
      rcases hx with rfl | rfl
      · decide
      · decide
  | suffixed h _ hx =>
      refine List.forall_mem_append.2 ⟨hdigits h, List.forall_mem_singleton.2 ?_⟩
      rcases hx with rfl | rfl
      · decide
      · decide

/-- Every form is read as the number that it writes. -/
theorem integer?_spelled {s : String} {k : Int} (h : SpelledBy s k) :
    integer? (.text s) = some k := by
  obtain ⟨front, body, back, hs, hfront, hback, hbody⟩ := h
  have hchars := hbody.chars
  have htrim : Text.trim s.toList = body := by
    rw [hs]
    exact Text.trimWhere_append hfront hback
      (fun c hc => (hchars c (List.mem_of_mem_head? hc)).2)
      (fun c hc => (hchars c (List.mem_of_mem_getLast? hc)).2)
  rw [integer?, htrim, Text.lower_ascii fun c hc => (hchars c hc).1]
  cases hbody with
  | plain h hlength => exact integerOfLower?_plain h hlength
  | plus h hlength => exact integerOfLower?_signed h hlength (.inl rfl)
  | minus h hlength => exact integerOfLower?_signed h hlength (.inr rfl)
  | marked h hx =>
      rcases hx with rfl | rfl
      · exact integerOfLower?_marked h
      · exact integerOfLower?_marked h
  | suffixed h hlength hx =>
      rw [List.map_append]
      rcases hx with rfl | rfl
      · exact integerOfLower?_suffixed h hlength
      · exact integerOfLower?_suffixed h hlength

end Forms

/-! ## Documents in another spelling -/

/-- A value as it is, or an accepted text of the same number for it. -/
inductive Respelled : Value → Value → Prop
  | same (v : Value) : Respelled v v
  | text {v : Value} {s : String} {n : Int} (hv : integer? v = some n)
      (hs : integer? (.text s) = some n) : Respelled v (.text s)

/-- An entry as it is, or with the same key and a value that `R` allows there. -/
inductive EntryBy (R : Value → Value → Value → Prop) : Value × Value → Value × Value → Prop
  | same (e : Value × Value) : EntryBy R e e
  | value {k v w : Value} (h : R k v w) : EntryBy R (k, v) (k, w)

/-- A mapping with the same keys in the same order, and values that `R` allows. -/
inductive MapBy (R : Value → Value → Value → Prop) : Value → Value → Prop
  | same (v : Value) : MapBy R v v
  | map {es fs : List (Value × Value)} (h : List.Forall₂ (EntryBy R) es fs) :
      MapBy R (.map es) (.map fs)
  | marked (place : Nat × Nat) {v w : Value} (h : MapBy R v w) :
      MapBy R (.marked place v) (.marked place w)

/-- A collection of as many items, each of which `R` allows at its place. -/
inductive ItemsBy (R : Value → Value → Prop) : Value → Value → Prop
  | same (v : Value) : ItemsBy R v v
  | list {vs ws : List Value} (h : List.Forall₂ R vs ws) : ItemsBy R (.list vs) (.list ws)
  | pair {a b c d : Value} (h : R a c) (h' : R b d) : ItemsBy R (.pair a b) (.pair c d)
  | set {vs ws : List Value} (h : List.Forall₂ R vs ws) : ItemsBy R (.set vs) (.set ws)
  | marked (place : Nat × Nat) {v w : Value} (h : ItemsBy R v w) :
      ItemsBy R (.marked place v) (.marked place w)

/-- Keys, and how the values under them may differ. -/
abbrev Fields := List (String × (Value → Value → Prop))

/-- What may differ under a key. -/
def Fields.Allow (fields : Fields) (k v w : Value) : Prop :=
  ∃ name R, k = .text name ∧ fields.lookup name = some R ∧ R v w

/-- The integer of a program. -/
def programFields : Fields := [("load_address", Respelled)]

/-- The integers of a preload. -/
def preloadFields : Fields := [("address", Respelled), ("data", ItemsBy Respelled)]

/-- The integers of an initial state; the registers have them under every key. -/
def stateFields : Fields :=
  [("pc", Respelled), ("sp", Respelled), ("interrupt_mask", Respelled),
   ("registers", MapBy fun _ => Respelled)]

/-- The integers of a document. -/
def documentFields : Fields :=
  [("memory_size", Respelled), ("program", MapBy programFields.Allow),
   ("memory", ItemsBy (MapBy preloadFields.Allow)), ("initial_state", MapBy stateFields.Allow)]

/-! ## Readings that come to the same -/

/-- Two readings fail, or have related results. -/
def Alike {α β : Type} (R : α → β → Prop) : Except Failure α → Except Failure β → Prop
  | .ok a, .ok b => R a b
  | .error _, .error _ => True
  | _, _ => False

section Alike

variable {α β γ δ : Type} {R : α → β → Prop} {S : γ → δ → Prop}

theorem Alike.refl (x : Except Failure α) : Alike Eq x x := by
  cases x with
  | error f => trivial
  | ok a => exact rfl

theorem Alike.bind {x : Except Failure α} {y : Except Failure β} {f : α → Except Failure γ}
    {g : β → Except Failure δ} (hxy : Alike R x y) (hfg : ∀ a b, R a b → Alike S (f a) (g b)) :
    Alike S (x >>= f) (y >>= g) := by
  cases x with
  | error e =>
      cases y with
      | error e' => trivial
      | ok b => exact hxy.elim
  | ok a =>
      cases y with
      | error e' => exact hxy.elim
      | ok b => exact hfg a b hxy

/-- Readings with equal results, gone on with in the same way for each of them. -/
theorem Alike.bind_eq {x y : Except Failure α} {f : α → Except Failure γ}
    {g : α → Except Failure δ} (hxy : Alike Eq x y) (hfg : ∀ a, Alike S (f a) (g a)) :
    Alike S (x >>= f) (y >>= g) :=
  hxy.bind fun a _ hab => hab ▸ hfg a

theorem Alike.ok_iff {x y : Except Failure α} (h : Alike Eq x y) (a : α) :
    x = .ok a ↔ y = .ok a := by
  cases x with
  | error e =>
      cases y with
      | error e' => exact ⟨nofun, nofun⟩
      | ok b => exact h.elim
  | ok b =>
      cases y with
      | error e' => exact h.elim
      | ok c => rw [show b = c from h]

end Alike

/-! ## The reading functions -/

section Reading

variable {P : Value → Value → Value → Prop} {es fs : List (Value × Value)} {v w : Value}

theorem Respelled.integer? (h : Respelled v w) : Config.integer? v = Config.integer? w := by
  cases h with
  | same => rfl
  | text hv hs => exact hv.trans hs.symm

theorem Respelled.integer (h : Respelled v w) (key : String) :
    Alike Eq (integer key v) (integer key w) := by
  rw [Config.integer, Config.integer, h.integer?]
  cases Config.integer? w with
  | none => trivial
  | some n => exact rfl

/-- What stands under a key: the same, or what is allowed there. -/
inductive OptionBy (R : Value → Value → Prop) : Option Value → Option Value → Prop
  | same (o : Option Value) : OptionBy R o o
  | value {v w : Value} (h : R v w) : OptionBy R (some v) (some w)

theorem lookup?_self (name : String) (v : Value) (es : List (Value × Value)) :
    lookup? ((.text name, v) :: es) name = some v := by
  simp [lookup?]

theorem lookup?_of_ne {k : Value} {name : String} (hk : k ≠ .text name) (v : Value)
    (es : List (Value × Value)) : lookup? ((k, v) :: es) name = lookup? es name := by
  cases k with
  | text s =>
      have hs : s ≠ name := fun hs => hk (congrArg Value.text hs)
      simp [lookup?, hs]
  | _ => rfl

theorem lookup?_by (h : List.Forall₂ (EntryBy P) es fs) (name : String) :
    OptionBy (P (.text name)) (lookup? es name) (lookup? fs name) := by
  induction h with
  | nil => exact .same none
  | @cons e f es fs he _ ih =>
      by_cases hkey : e.1 = .text name
      · cases he with
        | same =>
            obtain ⟨k, v⟩ := e
            obtain rfl : k = .text name := hkey
            rw [lookup?_self, lookup?_self]
            exact .same (some v)
        | @value k v w hvw =>
            obtain rfl : k = .text name := hkey
            rw [lookup?_self, lookup?_self]
            exact .value hvw
      · cases he with
        | same =>
            obtain ⟨k, v⟩ := e
            rw [lookup?_of_ne hkey, lookup?_of_ne hkey]
            exact ih
        | value =>
            rw [lookup?_of_ne hkey, lookup?_of_ne hkey]
            exact ih

/-- Under a key of a field stands what the field allows. -/
theorem lookup?_field {fields : Fields} (h : List.Forall₂ (EntryBy fields.Allow) es fs)
    {name : String} {R : Value → Value → Prop} (hR : fields.lookup name = some R) :
    OptionBy R (lookup? es name) (lookup? fs name) := by
  have hby := lookup?_by h name
  generalize lookup? es name = o at hby
  generalize lookup? fs name = q at hby
  cases hby with
  | same => exact .same o
  | value hvw =>
      obtain ⟨name', S, hname, hS, hvw⟩ := hvw
      obtain rfl := Value.text.inj hname
      obtain rfl : R = S := Option.some.inj (hR.symm.trans hS)
      exact .value hvw

/-- Under other keys the same stands. -/
theorem lookup?_other {fields : Fields} (h : List.Forall₂ (EntryBy fields.Allow) es fs)
    {name : String} (hnone : fields.lookup name = none) : lookup? es name = lookup? fs name := by
  have hby := lookup?_by h name
  generalize lookup? es name = o at hby
  generalize lookup? fs name = q at hby
  cases hby with
  | same => rfl
  | value hvw =>
      obtain ⟨name', S, hname, hS, -⟩ := hvw
      obtain rfl := Value.text.inj hname
      cases hnone.symm.trans hS

/-- A value with a default for an absent one. -/
theorem OptionBy.getD {R : Value → Value → Prop} {o q : Option Value} (h : OptionBy R o q)
    (hR : ∀ v, R v v) (v : Value) : R (o.getD v) (q.getD v) := by
  cases h with
  | same => exact hR _
  | value h => exact h

theorem integerAt_alike {name : String}
    (h : OptionBy Respelled (lookup? es name) (lookup? fs name)) (key : String) (default : Int) :
    Alike Eq (integerAt es name key default) (integerAt fs name key default) := by
  rw [integerAt, integerAt]
  generalize lookup? es name = o at h
  generalize lookup? fs name = q at h
  cases h with
  | same => exact .refl _
  | value h => exact h.integer key

theorem bytes_alike {vs ws : List Value} (h : List.Forall₂ Respelled vs ws) (key : String) :
    Alike Eq (bytes key vs) (bytes key ws) := by
  induction h with
  | nil => exact .refl _
  | cons hv _ ih =>
      rw [bytes, bytes]
      refine (hv.integer key).bind_eq fun n => ?_
      split
      · exact ih.bind_eq fun ns => .refl _
      · trivial

/-! ### Collections -/

theorem ItemsBy.items? {R : Value → Value → Prop} (hR : ∀ v, R v v) (h : ItemsBy R v w) :
    Option.Rel (List.Forall₂ R) v.items? w.items? := by
  induction h with
  | same v =>
      cases v.items? with
      | none => exact .none
      | some vs => exact .some (List.forall₂_same.2 fun v _ => hR v)
  | list h => exact .some h
  | pair | set => exact .none
  | marked place _ ih => exact ih

theorem ItemsBy.elements {R : Value → Value → Prop} (hR : ∀ v, R v v) (h : ItemsBy R v w) :
    Alike (List.Forall₂ R) (elements v) (elements w) := by
  induction h with
  | same v =>
      cases Config.elements v with
      | error f => trivial
      | ok vs => exact List.forall₂_same.2 fun v _ => hR v
  | list h => exact h
  | pair h h' => exact .cons h (.cons h' .nil)
  | set h => exact h
  | marked place _ ih => exact ih

theorem MapBy.entries? (h : MapBy P v w) :
    Option.Rel (List.Forall₂ (EntryBy P)) v.entries? w.entries? := by
  induction h with
  | same v =>
      cases v.entries? with
      | none => exact .none
      | some es => exact .some (List.forall₂_same.2 fun e _ => .same e)
  | map h => exact .some h
  | marked place _ ih => exact ih

theorem MapBy.truth (h : MapBy P v w) : v.truth = w.truth := by
  induction h with
  | same v => rfl
  | map h =>
      cases h with
      | nil => rfl
      | cons => rfl
  | marked place _ ih => exact ih

/-! ### The parts of a document -/

theorem byteList_alike {o q : Option Value} (h : OptionBy (ItemsBy Respelled) o q)
    (key : String) : Alike Eq (byteList key o) (byteList key q) := by
  cases h with
  | same => exact .refl _
  | @value v w h =>
      have hitems := h.items? Respelled.same
      rw [byteList, byteList, Option.getD_some, Option.getD_some]
      generalize v.items? = vs at hitems
      generalize w.items? = ws at hitems
      cases hitems with
      | none => trivial
      | some hitems => exact bytes_alike hitems key

theorem optionalEntries_alike {o q : Option Value} (h : OptionBy (MapBy P) o q) :
    Alike (List.Forall₂ (EntryBy P)) (optionalEntries o) (optionalEntries q) := by
  have hmap {v w : Value} (h : MapBy P v w) :
      Alike (List.Forall₂ (EntryBy P)) (optionalEntries (some v)) (optionalEntries (some w)) := by
    have hentries := h.entries?
    rw [optionalEntries, optionalEntries, h.truth]
    generalize v.entries? = es at hentries
    generalize w.entries? = fs at hentries
    split
    · cases hentries with
      | none => trivial
      | some hentries => exact hentries
    · exact .nil
  cases h with
  | same =>
      cases o with
      | none => exact .nil
      | some v => exact hmap (.same v)
  | value h => exact hmap h

/-- What is not null is read as a program from its entries. -/
theorem program_some (hv : v ≠ .null) : program (some v) =
    match v.entries? with
    | some es => program (some (.map es))
    | none => .error (.config (.notMapping "program")) := by
  conv => lhs; unfold program
  rw [Option.getD_some]
  split
  · exact absurd rfl hv
  · cases v.entries? with
    | none => rfl
    | some es => rfl

theorem program_map_alike (h : List.Forall₂ (EntryBy programFields.Allow) es fs) :
    Alike Eq (program (some (.map es))) (program (some (.map fs))) := by
  have hsource : lookup? es "source" = lookup? fs "source" := lookup?_other h rfl
  have hpath : lookup? es "path" = lookup? fs "path" := lookup?_other h rfl
  simp only [program, Option.getD_some, Value.entries?, Value.bare, hsource, hpath]
  split
  · trivial
  · exact (integerAt_alike (lookup?_field h rfl) _ _).bind_eq fun address => .refl _

theorem program_alike {o q : Option Value} (h : OptionBy (MapBy programFields.Allow) o q) :
    Alike Eq (program o) (program q) := by
  cases h with
  | same => exact .refl _
  | value h =>
      cases h with
      | same => exact .refl _
      | map h => exact program_map_alike h
      | @marked place v w h =>
          have hentries := (MapBy.marked place h).entries?
          rw [program_some (v := .marked place v) nofun, program_some (v := .marked place w) nofun]
          generalize (Value.marked place v).entries? = es at hentries
          generalize (Value.marked place w).entries? = fs at hentries
          cases hentries with
          | none => trivial
          | some hentries => exact program_map_alike hentries

theorem preloads_alike {vs ws : List Value}
    (h : List.Forall₂ (MapBy preloadFields.Allow) vs ws) (index : Nat) :
    Alike Eq (preloads index vs) (preloads index ws) := by
  induction h generalizing index with
  | nil => exact .refl _
  | @cons v w vs ws hvw _ ih =>
      have hentries := hvw.entries?
      rw [preloads, preloads]
      generalize v.entries? = es at hentries
      generalize w.entries? = fs at hentries
      cases hentries with
      | none => trivial
      | @some es fs hentries =>
          have haddress : Respelled ((lookup? es "address").getD .null)
              ((lookup? fs "address").getD .null) :=
            (lookup?_field hentries rfl).getD Respelled.same .null
          have hdata : OptionBy (ItemsBy Respelled) (lookup? es "data") (lookup? fs "data") :=
            lookup?_field hentries rfl
          refine (haddress.integer _).bind_eq fun address => ?_
          refine (byteList_alike hdata _).bind_eq fun data => ?_
          exact (ih (index + 1)).bind_eq fun ps => .refl _

theorem registers_alike (h : List.Forall₂ (EntryBy fun _ => Respelled) es fs)
    (d : Dictionary String Int) : Alike Eq (registers d es) (registers d fs) := by
  induction h generalizing d with
  | nil => exact .refl _
  | @cons e f es fs he _ ih =>
      obtain ⟨k, v, w, rfl, rfl, hvw⟩ :
          ∃ k v w, e = (k, v) ∧ f = (k, w) ∧ Respelled v w := by
        cases he with
        | same => exact ⟨e.1, e.2, e.2, rfl, rfl, .same e.2⟩
        | value h => exact ⟨_, _, _, rfl, rfl, h⟩
      rw [registers, registers]
      refine (Alike.refl (name k)).bind_eq fun r => ?_
      exact (hvw.integer _).bind_eq fun n => ih _

theorem initialState_alike {o q : Option Value} (h : OptionBy (MapBy stateFields.Allow) o q) :
    Alike Eq (initialState o) (initialState q) := by
  rw [initialState, initialState]
  refine (optionalEntries_alike h).bind fun es fs hentries => ?_
  refine (integerAt_alike (lookup?_field hentries rfl) _ _).bind_eq fun pc => ?_
  refine (integerAt_alike (lookup?_field hentries rfl) _ _).bind_eq fun sp => ?_
  refine (integerAt_alike (lookup?_field hentries rfl) _ _).bind_eq fun mask => ?_
  have hregisters : OptionBy (MapBy fun _ => Respelled) (lookup? es "registers")
      (lookup? fs "registers") := lookup?_field hentries rfl
  have hflags : lookup? es "flags" = lookup? fs "flags" := lookup?_other hentries rfl
  rw [hflags]
  refine (optionalEntries_alike hregisters).bind fun rs rs' hrs => ?_
  exact (registers_alike hrs {}).bind_eq fun d => .refl _

/-! ### Whole documents -/

theorem ofEntries_alike (h : List.Forall₂ (EntryBy documentFields.Allow) es fs) :
    Alike Eq (ofEntries es) (ofEntries fs) := by
  have hmemory : ItemsBy (MapBy preloadFields.Allow) ((lookup? es "memory").getD (.list []))
      ((lookup? fs "memory").getD (.list [])) := (lookup?_field h rfl).getD ItemsBy.same _
  rw [ofEntries, ofEntries]
  refine (integerAt_alike (lookup?_field h rfl) _ _).bind_eq fun size => ?_
  refine (program_alike (lookup?_field h rfl)).bind_eq fun p => ?_
  refine (hmemory.elements MapBy.same).bind fun vs ws hvs => ?_
  refine (preloads_alike hvs 0).bind_eq fun memory => ?_
  exact (initialState_alike (lookup?_field h rfl)).bind_eq fun initial => .refl _

theorem ofDocument_alike (h : MapBy documentFields.Allow v w) :
    Alike Eq (ofDocument v) (ofDocument w) := by
  induction h with
  | same v => exact .refl _
  | map h => exact ofEntries_alike h
  | marked place _ ih => exact ih

end Reading

/-! ## Literals of assembly source -/

/-- A text that ends in `h` and does not begin with `0x` is read as a literal of an assembly
    source. -/
theorem integer?_literal {s : String}
    (hfront : (Text.lower (Text.trim s.toList)).take 2 ≠ ['0', 'x'])
    (hback : (Text.lower (Text.trim s.toList)).getLast? = some 'h') (n : Int) :
    integer? (.text s) = some n ↔ ∃ k, Source.Literal.read s = .ok k ∧ n = k := by
  rw [integer?, integerOfLower?_literal hfront hback, Source.Literal.read_suffixed hback]
  cases Source.Literal.ofLower? (Text.lower (Text.trim s.toList)) with
  | none =>
      constructor
      · intro h
        cases h
      · rintro ⟨k, hk, -⟩
        cases hk
  | some k =>
      constructor
      · intro h
        exact ⟨k, rfl, (Option.some.inj h).symm⟩
      · rintro ⟨k', hk', rfl⟩
        cases hk'
        rfl

/-- However integers are written: each form is read as the number that it writes; a document in
    another spelling gives the same configuration, and one that gives none gives none in another
    spelling; and what ends in `h` and does not begin with `0x` is accepted exactly if it is a
    literal of an assembly source, as the same number. -/
theorem ofDocument_respelled :
    (∀ (s : String) (n : Int), SpelledBy s n → integer? (.text s) = some n) ∧
    (∀ v w : Value, MapBy documentFields.Allow v w →
      ∀ c, ofDocument v = .ok c ↔ ofDocument w = .ok c) ∧
    ∀ s : String, (Text.lower (Text.trim s.toList)).take 2 ≠ ['0', 'x'] →
      (Text.lower (Text.trim s.toList)).getLast? = some 'h' →
      ∀ n : Int, integer? (.text s) = some n ↔ ∃ k, Source.Literal.read s = .ok k ∧ n = k :=
  ⟨fun _ _ h => integer?_spelled h, fun _ _ h c => (ofDocument_alike h).ok_iff c,
    fun _ hfront hback n => integer?_literal hfront hback n⟩

/-- A document with all kinds of integers. -/
def numbered (size address first mask a : Value) : Value :=
  .map [(.text "memory_size", size),
    (.text "memory", .list [.map [(.text "address", address), (.text "data", .list [first])]]),
    (.text "initial_state", .map [(.text "interrupt_mask", mask),
      (.text "registers", .map [(.text "A", a)])])]

/-- What the document asks for. -/
def numberedSystem : System :=
  ⟨.int 256, none, [⟨16, [255]⟩], ⟨0, 0, 7, [("A", 66)], []⟩⟩

theorem ofDocument_respelled_numbered :
    ofDocument (numbered (.int 256) (.int 16) (.int 255) (.int 7) (.int 66)) = .ok numberedSystem ∧
      ofDocument (numbered (.text "0X100") (.text " 10H ") (.text "+255") (.int 7)
        (.text "0042h")) = .ok numberedSystem := by
  obtain ⟨hspelled, hdocument, hliteral⟩ := ofDocument_respelled
  have hzero {base : Nat} (hbase : 0 < base) : IsDigit base '0' 0 := ⟨hbase, .inl rfl⟩
  have hone {base : Nat} (hbase : 1 < base) : IsDigit base '1' 1 := ⟨hbase, .inl rfl⟩
  have htwo : IsDigit 10 '2' 2 := ⟨by decide, .inl rfl⟩
  have hfive : IsDigit 10 '5' 5 := ⟨by decide, .inl rfl⟩
  have hmarked : SpelledBy "0X100" 256 := by
    refine ⟨[], ['0', 'X', '1', '0', '0'], [], rfl, nofun, nofun, .marked ?_ (.inr rfl)⟩
    exact ⟨nofun, [1, 0, 0], .cons (hone (by decide)) (.cons (hzero (by decide))
      (.cons (hzero (by decide)) .nil)), rfl⟩
  have hsuffixed : SpelledBy " 10H " 16 := by
    refine ⟨[' '], ['1', '0'] ++ ['H'], [' '], rfl, List.forall_mem_singleton.2 rfl,
      List.forall_mem_singleton.2 rfl, .suffixed ?_ (by decide) (.inr rfl)⟩
    exact ⟨nofun, [1, 0], .cons (hone (by decide)) (.cons (hzero (by decide)) .nil), rfl⟩
  have hsigned : SpelledBy "+255" 255 := by
    refine ⟨[], ['+', '2', '5', '5'], [], rfl, nofun, nofun, .plus ?_ (by decide)⟩
    exact ⟨nofun, [2, 5, 5], .cons htwo (.cons hfive (.cons hfive .nil)), rfl⟩
  have hread : integer? (.text "0042h") = some 66 :=
    (hliteral "0042h" (by decide +kernel) (by decide +kernel) 66).2 ⟨66, rfl, rfl⟩
  have hdata : List.Forall₂ Respelled [.int 255] [.text "+255"] :=
    .cons (.text rfl (hspelled _ _ hsigned)) .nil
  have hpreload : MapBy preloadFields.Allow
      (.map [(.text "address", .int 16), (.text "data", .list [.int 255])])
      (.map [(.text "address", .text " 10H "), (.text "data", .list [.text "+255"])]) :=
    .map (.cons (.value ⟨"address", _, rfl, rfl, .text rfl (hspelled _ _ hsuffixed)⟩)
      (.cons (.value ⟨"data", _, rfl, rfl, .list hdata⟩) .nil))
  have hregisters : MapBy (fun _ => Respelled) (.map [(.text "A", .int 66)])
      (.map [(.text "A", .text "0042h")]) :=
    .map (.cons (.value (.text rfl hread)) .nil)
  have hstate : MapBy stateFields.Allow
      (.map [(.text "interrupt_mask", .int 7), (.text "registers", .map [(.text "A", .int 66)])])
      (.map [(.text "interrupt_mask", .int 7),
        (.text "registers", .map [(.text "A", .text "0042h")])]) :=
    .map (.cons (.same _) (.cons (.value ⟨"registers", _, rfl, rfl, hregisters⟩) .nil))
  have hrespelled : MapBy documentFields.Allow
      (numbered (.int 256) (.int 16) (.int 255) (.int 7) (.int 66))
      (numbered (.text "0X100") (.text " 10H ") (.text "+255") (.int 7) (.text "0042h")) :=
    .map (.cons (.value ⟨"memory_size", _, rfl, rfl, .text rfl (hspelled _ _ hmarked)⟩)
      (.cons (.value ⟨"memory", _, rfl, rfl, .list (.cons hpreload .nil)⟩)
        (.cons (.value ⟨"initial_state", _, rfl, rfl, hstate⟩) .nil)))
  exact ⟨rfl, (hdocument _ _ hrespelled numberedSystem).1 rfl⟩

end Lab8085.Config
