/-
  Lab8085.Text.Lines

  Division of a text into lines, and the one line break of text files. A carriage
  return followed by a line feed is a single break; a break at the end of the text
  opens no further line.
-/

namespace Lab8085.Text

/-- Characters that end a line: line feed, vertical tab, form feed, carriage return, the file,
    group and record separators, next line, and the line and paragraph separators. -/
def isLineBreak (c : Char) : Bool :=
  let n := c.toNat
  (0x0A ≤ n && n ≤ 0x0D) || (0x1C ≤ n && n ≤ 0x1E) || n == 0x85 || n == 0x2028 || n == 0x2029

/-- Puts a character in front of the first of some lines. -/
def consLine (c : Char) : List (List Char) → List (List Char)
  | [] => [[c]]
  | l :: ls => (c :: l) :: ls

/-- The lines of a text, without their breaks. -/
def lines : List Char → List (List Char)
  | [] => []
  | '\r' :: '\n' :: r => [] :: lines r
  | c :: r => if isLineBreak c then [] :: lines r else consLine c (lines r)

/-- The text of a file as it is read: every carriage return, with a line feed after it or not,
    becomes a line feed. -/
def uniformBreaks : List Char → List Char
  | [] => []
  | '\r' :: '\n' :: r => '\n' :: uniformBreaks r
  | c :: r => (if c = '\r' then '\n' else c) :: uniformBreaks r

/-! ## Small laws -/

theorem lines_nil : lines [] = [] := rfl

/-- A line feed closes a line. -/
theorem lines_cons_lineFeed (r : List Char) : lines ('\n' :: r) = [] :: lines r := by
  simp [lines, isLineBreak]

/-- A character that breaks no line belongs to the first line. -/
theorem lines_cons_of_not_break {c : Char} (h : isLineBreak c = false) (r : List Char) :
    lines (c :: r) = consLine c (lines r) := by
  have hc : c ≠ '\r' := by rintro rfl; simp [isLineBreak] at h
  rw [lines.eq_3 _ _ (by intro _ h1; exact absurd h1 hc)]
  simp [h]

end Lab8085.Text
