/-
  Lab8085.Text.LowerCase

  Lower case of a text. Every character has a lower case of its own, with two
  exceptions: the dotted capital I becomes two characters, and a capital sigma that
  ends a word becomes the final sigma. A sigma ends a word when a cased letter
  stands before it and none after it, characters without influence on case left out
  of account.
-/
import Lab8085.Text.Blank
import Lab8085.Text.CaseTable

namespace Lab8085.Text

/-- Whether the first character that is not ignorable for case has case. -/
def nearestIsCased (s : List Char) : Bool :=
  match s.dropWhile fun c => inRanges caseIgnorableRanges c.toNat with
  | [] => false
  | c :: _ => inRanges casedRanges c.toNat

/-- The lower case of a character outside ASCII, where it is one character. -/
def lowerOther (c : Char) : Char :=
  match lowerCaseRuns.find? fun r =>
      r.first ≤ c.toNat && c.toNat ≤ r.last && (c.toNat - r.first) % r.step == 0 with
  | some r => Char.ofNat (c.toNat + r.shift).toNat
  | none => c

/-- The lower case of a character between the text before it (nearest first) and after it. -/
def lowerAt (before : List Char) (c : Char) (after : List Char) : List Char :=
  if c.toNat < 0x80 then [c.toLower]
  else if c.toNat = 0x130 then ['i', '\u0307']
  else if c.toNat = 0x3A3 then
    [if nearestIsCased before && !nearestIsCased after then '\u03C2' else '\u03C3']
  else [lowerOther c]

/-- The lower case of the rest of a text whose beginning is given in reverse. -/
def lowerFrom (before : List Char) : List Char → List Char
  | [] => []
  | c :: r => lowerAt before c r ++ lowerFrom (c :: before) r

/-- The lower case of a text. -/
def lower (s : List Char) : List Char :=
  lowerFrom [] s

/-! ## ASCII text -/

/-- What stands before plays no part for an ASCII character. -/
theorem lowerAt_ascii {c : Char} (h : c.toNat < 0x80) (before after : List Char) :
    lowerAt before c after = [c.toLower] := by
  simp [lowerAt, h]

theorem lowerFrom_ascii {s : List Char} (h : ∀ c ∈ s, c.toNat < 0x80) (before : List Char) :
    lowerFrom before s = s.map Char.toLower := by
  induction s generalizing before with
  | nil => rfl
  | cons c r ih =>
    have hr : ∀ d ∈ r, d.toNat < 0x80 := fun d hd => h d (List.mem_cons_of_mem _ hd)
    rw [lowerFrom, lowerAt_ascii (h c List.mem_cons_self), ih hr]
    rfl

/-- An ASCII text is lowered character by character. -/
theorem lower_ascii {s : List Char} (h : ∀ c ∈ s, c.toNat < 0x80) :
    lower s = s.map Char.toLower :=
  lowerFrom_ascii h []

end Lab8085.Text
