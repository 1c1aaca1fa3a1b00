/-
  Lab8085.Yaml.Scalar

  The text of scalars: quoted, plain, and block scalars. Line breaks inside quoted
  and plain scalars fold: a single break becomes a space, of several the first is
  dropped. A literal block keeps its breaks; a folded block folds breaks between
  lines that are not indented further.
-/
import Lab8085.Yaml.Cursor
import Lab8085.Yaml.Fault

namespace Lab8085.Yaml.Scalar

/-- Text read so far, and the position after it. -/
abbrev Piece := List Char × Cursor

/-! ## Quoted scalars -/

/-- The character that a one-letter escape stands for. -/
def escape? (c : Char) : Option Char :=
  match c with
  | '0' => some (Char.ofNat 0x00)
  | 'a' => some (Char.ofNat 0x07)
  | 'b' => some (Char.ofNat 0x08)
  | 't' => some (Char.ofNat 0x09)
  | '\t' => some (Char.ofNat 0x09)
  | 'n' => some (Char.ofNat 0x0A)
  | 'v' => some (Char.ofNat 0x0B)
  | 'f' => some (Char.ofNat 0x0C)
  | 'r' => some (Char.ofNat 0x0D)
  | 'e' => some (Char.ofNat 0x1B)
  | ' ' => some ' '
  | '"' => some '"'
  | '\\' => some '\\'
  | '/' => some '/'
  | 'N' => some (Char.ofNat 0x85)
  | '_' => some (Char.ofNat 0xA0)
  | 'L' => some (Char.ofNat 0x2028)
  | 'P' => some (Char.ofNat 0x2029)
  | _ => none

/-- How many hexadecimal digits follow an escape letter. -/
def escapeDigits? (c : Char) : Option Nat :=
  match c with
  | 'x' => some 2
  | 'u' => some 4
  | 'U' => some 8
  | _ => none

/-- The value of a hexadecimal digit of either case. -/
def hexDigit? (c : Char) : Option Nat :=
  if 48 ≤ c.toNat ∧ c.toNat ≤ 57 then some (c.toNat - 48)
  else if 97 ≤ c.toNat ∧ c.toNat ≤ 102 then some (c.toNat - 87)
  else if 65 ≤ c.toNat ∧ c.toNat ≤ 70 then some (c.toNat - 55)
  else none

/-- The number that `n` hexadecimal digits write. -/
def hexNumber? (n : Nat) (s : List Char) : Option Nat :=
  if (s.take n).length = n then
    (s.take n).foldlM (fun acc c => (hexDigit? c).map (16 * acc + ·)) 0
  else none

/-- Breaks of the blank lines after a break, up to the next text; a document mark may not come
    here. `acc` holds the breaks before, latest first. -/
def breaks (fuel : Nat) (acc : List Char) (c : Cursor) : Reading Piece :=
  match fuel with
  | 0 => malformed
  | fuel + 1 =>
    if c.atDocumentMark then malformed
    else
      let c := c.skipWhile fun x => x == ' ' || x == '\t'
      match c.lineBreak? with
      | some (b, c) => breaks fuel (b :: acc) c
      | none => .ok (acc.reverse, c)

/-- What a line break followed by further breaks becomes. -/
def fold (first : Char) (more : List Char) : List Char :=
  if first ≠ '\n' then first :: more
  else if more.isEmpty then [' ']
  else more

/-- Blanks inside a quoted scalar, or a break with the breaks after it. -/
def quotedBlanks (c : Cursor) : Reading Piece :=
  let (blanks, c) := c.takeWhile fun x => x == ' ' || x == '\t'
  if c.rest.isEmpty then malformed
  else match c.lineBreak? with
    | some (b, c) => do
      let (more, c) ← breaks c.fuel [] c
      return (fold b more, c)
    | none => .ok (blanks, c)

/-- The character of a code point. Numbers that do not fit into 31 bits are refused as numbers. -/
def character (n : Nat) : Reading Char :=
  match Text.charOf? n with
  | some x => .ok x
  | none => .error (if n < 0x80000000 then .noCodePoint else .overflow)

/-- An escape of a double-quoted scalar; the position is after the backslash. -/
def quotedEscape (c : Cursor) : Reading Piece :=
  match escape? c.peek with
  | some x => .ok ([x], c.next)
  | none =>
    match escapeDigits? c.peek with
    | some n => do
      let code ← wellFormed (hexNumber? n c.next.rest)
      return ([← character code], c.next.advance n)
    | none =>
      match c.lineBreak? with
      | some (_, c) => breaks c.fuel [] c
      | none => malformed

/-- Whether a character of a quoted scalar stands for itself wherever it is. -/
def isQuotedText (c : Char) : Bool :=
  !(isSeparator c || c == '"' || c == '\\' || c == Char.ofNat 39)

/-- The rest of a scalar in double quotes (`double`) or single quotes, with the closing quote.
    `acc` holds the characters before, latest first. -/
def quoted (double : Bool) (fuel : Nat) (acc : List Char) (c : Cursor) : Reading Piece :=
  let single := Char.ofNat 39
  match fuel with
  | 0 => malformed
  | fuel + 1 =>
    let x := c.peek
    if isQuotedText x then
      let (text, c) := c.takeWhile isQuotedText
      quoted double fuel (text.reverseAux acc) c
    else if x == single then
      if double then quoted double fuel (x :: acc) c.next
      else if c.peekAt 1 == single then quoted double fuel (x :: acc) (c.advance 2)
      else .ok (acc.reverse, c.next)
    else if x == '"' then
      if double then .ok (acc.reverse, c.next) else quoted double fuel (x :: acc) c.next
    else if x == '\\' then
      if double then do
        let (text, c) ← quotedEscape c.next
        quoted double fuel (text.reverseAux acc) c
      else quoted double fuel (x :: acc) c.next
    else do
      let (text, c) ← quotedBlanks c
      quoted double fuel (text.reverseAux acc) c

/-! ## Plain scalars -/

/-- Whether a plain scalar goes on with a character before `after`. Inside brackets (`flow`) the
    punctuation of collections ends it. -/
def isPlainText (flow : Bool) (x after : Char) : Bool :=
  let punctuation := [',', '?', '[', ']', Char.ofNat 0x7B, Char.ofNat 0x7D]
  !(isSeparator x ||
    (x == ':' && (isSeparator after ||
      (flow && [',', '[', ']', Char.ofNat 0x7B, Char.ofNat 0x7D].contains after))) ||
    (flow && punctuation.contains x))

/-- The characters of a plain scalar up to the next blank or end. -/
def plainWord (flow : Bool) : List Char → List Char
  | [] => []
  | x :: r => if isPlainText flow x (r.headD endMark) then x :: plainWord flow r else []

/-- Breaks after the first break of a plain scalar; `none` before a document mark. `acc` holds
    the breaks before, latest first. -/
def plainBreaks (fuel : Nat) (acc : List Char) (c : Cursor) : Option (List Char) × Cursor :=
  match fuel with
  | 0 => (some acc.reverse, c)
  | fuel + 1 =>
    let c := c.skipSpaces
    match c.lineBreak? with
    | some (b, c) =>
      if c.atDocumentMark then (none, c) else plainBreaks fuel (b :: acc) c
    | none => (some acc.reverse, c)

/-- Blanks inside a plain scalar as they are kept, if the scalar may go on after them, and whether
    a line break was among them. -/
def plainBlanks (c : Cursor) : Option (List Char) × Bool × Cursor :=
  let (blanks, c) := c.takeWhile (· == ' ')
  match c.lineBreak? with
  | some (b, c) =>
    if c.atDocumentMark then (none, true, c)
    else
      let (more, c) := plainBreaks c.fuel [] c
      (more.map (fold b), true, c)
  | none => (if blanks.isEmpty then none else some blanks, false, c)

/-- A plain scalar in a block that is indented by `indent`: its text, the position after it, and
    whether it was followed by a line break. `acc` holds the characters before, latest first. -/
def plain (flow : Bool) (indent : Int) (fuel : Nat) (acc blanks : List Char) (broken : Bool)
    (c : Cursor) : List Char × Bool × Cursor :=
  match fuel with
  | 0 => (acc.reverse, broken, c)
  | fuel + 1 =>
    let word := if c.peek == '#' then [] else plainWord flow c.rest
    if word.isEmpty then (acc.reverse, broken, c)
    else
      let acc := word.reverseAux (blanks.reverseAux acc)
      match plainBlanks (c.advance word.length) with
      | (none, broken, c) => (acc.reverse, broken, c)
      | (some blanks, broken, c) =>
        if c.peek == '#' || (!flow && c.column ≤ indent) then (acc.reverse, broken, c)
        else plain flow indent fuel acc blanks broken c

/-! ## Block scalars -/

/-- What happens to the breaks at the end of a block scalar. -/
inductive Chomping where
  | clip | strip | keep
  deriving DecidableEq

def chomping? (c : Char) : Option Chomping :=
  match c with
  | '+' => some .keep
  | '-' => some .strip
  | _ => none

/-- An explicit indentation from 1 to 9. -/
def increment? (c : Char) : Option Nat :=
  if c.isDigit then some (c.toNat - 48) else none

/-- The header of a block scalar after its mark: chomping and explicit indentation, in either
    order. -/
def header (c : Cursor) : Option (Chomping × Option Nat × Cursor) := do
  let (k, n, c) : Option Chomping × Option Nat × Cursor :=
    match chomping? c.peek with
    | some k =>
      match increment? c.next.peek with
      | some n => (some k, some n, c.advance 2)
      | none => (some k, none, c.next)
    | none =>
      match increment? c.peek with
      | some n =>
        match chomping? c.next.peek with
        | some k => (some k, some n, c.advance 2)
        | none => (none, some n, c.next)
      | none => (none, none, c)
  if n == some 0 || !isSpaceOrBreak c.peek then none
  let c := c.skipSpaces.skipComment
  if !isBreakOrEnd c.peek then none
  return (k.getD .clip, n, c.skipBreak)

/-- Leading blank lines of a block without explicit indentation: their breaks, latest first, and
    the largest indentation among them. -/
def detect (fuel : Nat) (acc : List Char) (most : Nat) (c : Cursor) : List Char × Nat × Cursor :=
  match fuel with
  | 0 => (acc, most, c)
  | fuel + 1 =>
    if c.peek == ' ' then detect fuel acc (max most c.next.column) c.next
    else match c.lineBreak? with
      | some (b, c) => detect fuel (b :: acc) most c
      | none => (acc, most, c)

/-- Spaces up to a column. -/
def indentTo (column : Nat) (fuel : Nat) (c : Cursor) : Cursor :=
  match fuel with
  | 0 => c
  | fuel + 1 => if c.column < column && c.peek == ' ' then indentTo column fuel c.next else c

/-- Blank lines of a block that is indented by `indent`: their breaks, latest first. -/
def blockBreaks (indent : Nat) (fuel : Nat) (acc : List Char) (c : Cursor) : Piece :=
  match fuel with
  | 0 => (acc, c)
  | fuel + 1 =>
    let c := indentTo indent c.fuel c
    match c.lineBreak? with
    | some (b, c) => blockBreaks indent fuel (b :: acc) c
    | none => (acc, c)

/-- The lines of a block scalar after the breaks `before`: text, final break, breaks after it. All
    are kept with the latest character first. -/
def blockLines (folded : Bool) (indent : Nat) (fuel : Nat) (acc before : List Char) (c : Cursor) :
    List Char × List Char × List Char × Cursor :=
  match fuel with
  | 0 => (acc, [], before, c)
  | fuel + 1 =>
    if c.column = indent && !c.rest.isEmpty then
      let flush := !(c.peek == ' ' || c.peek == '\t')
      let (text, c) := c.takeWhile fun x => !isBreak x
      let acc := text.reverseAux (before ++ acc)
      let (final, c) : List Char × Cursor := match c.lineBreak? with
        | some (b, c) => ([b], c)
        | none => ([], c)
      let (more, c) := blockBreaks indent c.fuel [] c
      if c.column = indent && !c.rest.isEmpty then
        let joined := folded && final == ['\n'] && flush && !(c.peek == ' ' || c.peek == '\t')
        let between := if joined then (if more.isEmpty then [' '] else []) else final
        blockLines folded indent fuel (between ++ acc) more c
      else (acc, final, more, c)
    else (acc, [], before, c)

/-- A block scalar after its mark, inside a block that is indented by `indent`. -/
def block (folded : Bool) (indent : Int) (c : Cursor) : Option Piece := do
  let (chomping, increment, c) ← header c
  let least := (max (indent + 1) 1).toNat
  let (before, indent, c) : List Char × Nat × Cursor := match increment with
    | none =>
      let (before, most, c) := detect c.fuel [] 0 c
      (before, max least most, c)
    | some n =>
      let indent := least + n - 1
      let (before, c) := blockBreaks indent c.fuel [] c
      (before, indent, c)
  let (text, final, more, c) := blockLines folded indent c.fuel [] before c
  match chomping with
  | .strip => return (text.reverse, c)
  | .clip => return ((final ++ text).reverse, c)
  | .keep => return ((more ++ final ++ text).reverse, c)

end Lab8085.Yaml.Scalar
