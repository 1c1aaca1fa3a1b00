/-
  Lab8085.Yaml.Cursor

  Positions in the text of a YAML document, with the line and the column that they
  have, and the characters that the grammar tells apart. The end of the text is
  seen as a NUL, which no document holds.
-/
import Lab8085.Text.Surrogate

namespace Lab8085.Yaml

/-! ## Characters -/

/-- The character seen past the end. -/
def endMark : Char := Char.ofNat 0

/-- Line breaks. -/
def isBreak (c : Char) : Bool :=
  let n := c.toNat
  n == 0x0A || n == 0x0D || n == 0x85 || n == 0x2028 || n == 0x2029

def isBreakOrEnd (c : Char) : Bool :=
  isBreak c || c == endMark

/-- What may follow a word: a blank, a break or the end. -/
def isSeparator (c : Char) : Bool :=
  isBreakOrEnd c || c == ' ' || c == '\t'

/-- What may follow a directive or a tag. -/
def isSpaceOrBreak (c : Char) : Bool :=
  isBreakOrEnd c || c == ' '

/-- Letters, digits, hyphen and underscore, the characters of names. -/
def isNameChar (c : Char) : Bool :=
  c.isAlphanum || c == '-' || c == '_'

/-- Characters of tags besides letters and digits. -/
def tagMarks : List Char := "-;/?:@&=+$,_.!~*()[]%".toList ++ [Char.ofNat 39]

/-- Whether a document may hold a character: no controls but tab and line breaks, and no
    surrogates. -/
def isAllowed (c : Char) : Bool :=
  let n := Text.codePoint c
  n == 0x09 || n == 0x0A || n == 0x0D || (0x20 ≤ n && n ≤ 0x7E) || n == 0x85 ||
    (0xA0 ≤ n && n ≤ 0xFFFD && !Text.isSurrogate n) || 0x10000 ≤ n

/-! ## Positions -/

/-- The text from a position on, the length of the whole text, and where the position is. -/
structure Cursor where
  rest : List Char
  size : Nat
  index : Nat := 0
  line : Nat := 0
  column : Nat := 0
  deriving Inhabited

namespace Cursor

/-- The beginning of a text. -/
def ofText (s : List Char) : Cursor :=
  ⟨s, s.length, 0, 0, 0⟩

/-- The character at the position. -/
def peek (c : Cursor) : Char :=
  c.rest.headD endMark

/-- The character some places further on. -/
def peekAt (c : Cursor) (n : Nat) : Char :=
  (c.rest.drop n).headD endMark

/-- One character further on. A carriage return before a line feed does not end the line, and a
    byte order mark takes no column. -/
def next (c : Cursor) : Cursor :=
  match c.rest with
  | [] => c
  | x :: r =>
    if isBreak x && !(x == '\r' && r.head? == some '\n') then
      ⟨r, c.size, c.index + 1, c.line + 1, 0⟩
    else if x.toNat = 0xFEFF then ⟨r, c.size, c.index + 1, c.line, c.column⟩
    else ⟨r, c.size, c.index + 1, c.line, c.column + 1⟩

/-- Some characters further on. -/
def advance : Nat → Cursor → Cursor
  | 0, c => c
  | n + 1, c => advance n c.next

/-- The characters up to the first that does not satisfy `p`, and the position there. -/
def takeWhile (c : Cursor) (p : Char → Bool) : List Char × Cursor :=
  let taken := c.rest.takeWhile p
  (taken, advance taken.length c)

def skipWhile (c : Cursor) (p : Char → Bool) : Cursor :=
  (c.takeWhile p).2

def skipSpaces (c : Cursor) : Cursor :=
  c.skipWhile (· == ' ')

/-- Past a comment, if there is one, to the end of its line. -/
def skipComment (c : Cursor) : Cursor :=
  if c.peek == '#' then c.skipWhile fun x => !isBreak x else c

/-- The line break at the position as it is kept in text, and the position after it: the common
    breaks become a line feed. -/
def lineBreak? (c : Cursor) : Option (Char × Cursor) :=
  if c.peek == '\r' && c.peekAt 1 == '\n' then some ('\n', advance 2 c)
  else if isBreak c.peek then
    some (if c.peek.toNat < 0x100 then '\n' else c.peek, c.next)
  else none

/-- Past a line break, if there is one. -/
def skipBreak (c : Cursor) : Cursor :=
  match c.lineBreak? with
  | some (_, c) => c
  | none => c

/-- Three equal marks that stand alone at the beginning of a line. -/
def marks (c : Cursor) (mark : Char) : Bool :=
  c.peek == mark && c.peekAt 1 == mark && c.peekAt 2 == mark && isSeparator (c.peekAt 3)

/-- The end of the document's text is marked here. -/
def atDocumentMark (c : Cursor) : Bool :=
  c.marks '-' || c.marks '.'

/-- How many characters are left; bounds every loop over the text. -/
def fuel (c : Cursor) : Nat :=
  c.size - c.index + 1

end Cursor

end Lab8085.Yaml
