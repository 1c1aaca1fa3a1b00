/-
  Lab8085.Yaml.Layout

  From text to tokens. Outside brackets indentation opens and closes blocks: a
  sequence or mapping that begins to the right of the block around it opens one, and
  text further to the left closes it. A mapping key without a mark is noticed only at
  its colon, so the place of every possible key is remembered, one for each level of
  brackets, until the line ends or the key would be longer than 1024 characters.
-/
import Lab8085.Yaml.Scalar
import Lab8085.Yaml.Token

namespace Lab8085.Yaml

/-- The place of a possible key: before which token it stands, whether nothing but a key may
    stand there, and where it is in the text. -/
structure KeyPlace where
  token : Nat
  required : Bool
  index : Nat
  line : Nat
  column : Nat

/-- How far the text has been read: tokens so far with the latest first and their number, depth of
    brackets, indentation of the blocks that are open (innermost first), whether a key may begin
    here, and possible keys by depth. -/
structure Layout where
  cursor : Cursor
  tokens : List Token := []
  count : Nat := 0
  depth : Int := 0
  indent : Int := -1
  outer : List Int := []
  keyAllowed : Bool := true
  keys : List (Int × KeyPlace) := []

namespace Layout

/-! ## Small steps -/

def inBrackets (l : Layout) : Bool :=
  l.depth != 0

def push (l : Layout) (t : Token) : Layout :=
  { l with tokens := t :: l.tokens, count := l.count + 1 }

def moveTo (l : Layout) (c : Cursor) : Layout :=
  { l with cursor := c }

def allowKey (l : Layout) (allowed : Bool) : Layout :=
  { l with keyAllowed := allowed }

/-- Opens a block at a column if it lies further to the right. -/
def opens (l : Layout) (column : Nat) : Bool :=
  l.indent < column

def openBlock (l : Layout) (column : Nat) : Layout :=
  { l with indent := column, outer := l.indent :: l.outer }

/-- Closes the blocks to the right of a column. -/
def closeBlocks (column : Int) : List Int → Layout → Layout
  | [], l => l
  | i :: is, l =>
    if column < l.indent then
      closeBlocks column is { l.push .blockEnd with indent := i, outer := is }
    else l

/-- Closes the blocks to the right of a column; inside brackets indentation does not matter. -/
def unindent (l : Layout) (column : Int) : Layout :=
  if l.inBrackets then l else closeBlocks column l.outer l

/-- Whether a possible key can still become one. -/
def KeyPlace.fresh (k : KeyPlace) (c : Cursor) : Bool :=
  k.line == c.line && c.index - k.index ≤ 1024

/-- Gives up the possible keys that are too old; a required one may not be given up. -/
def dropStale (l : Layout) : Reading Layout :=
  if l.keys.any fun k => !KeyPlace.fresh k.2 l.cursor && k.2.required then malformed
  else .ok { l with keys := l.keys.filter fun k => KeyPlace.fresh k.2 l.cursor }

def key? (l : Layout) : Option KeyPlace :=
  l.keys.lookup l.depth

def forgetKey (l : Layout) : Layout :=
  { l with keys := l.keys.filter fun k => k.1 != l.depth }

/-- Gives up the possible key at this depth, which may not be required. -/
def dropKey (l : Layout) : Reading Layout :=
  match l.key? with
  | some k => if k.required then malformed else .ok l.forgetKey
  | none => .ok l

/-- Remembers that a key may begin here. -/
def saveKey (l : Layout) : Reading Layout :=
  if l.keyAllowed then do
    let c := l.cursor
    let required := !l.inBrackets && l.indent == c.column
    let l ← l.dropKey
    return { l with keys := (l.depth, ⟨l.count, required, c.index, c.line, c.column⟩) :: l.keys }
  else .ok l

/-! ## Names, tags and directives -/

/-- A name after an anchor or alias mark. -/
def name? (c : Cursor) : Option (List Char × Cursor) :=
  let (name, c) := c.takeWhile isNameChar
  let follows := ['?', ':', ',', ']', Char.ofNat 0x7D, '%', '@', Char.ofNat 0x60]
  if name.isEmpty || !(isSeparator c.peek || follows.contains c.peek) then none
  else some (name, c)

/-- The bytes of consecutive percent escapes; `acc` holds those before, latest first. -/
def escapedBytes (fuel : Nat) (acc : List UInt8) (c : Cursor) : Option (List UInt8 × Cursor) :=
  match fuel with
  | 0 => none
  | fuel + 1 =>
    if c.peek == '%' then do
      let n ← Scalar.hexNumber? 2 c.next.rest
      escapedBytes fuel (UInt8.ofNat n :: acc) (c.advance 3)
    else some (acc.reverse, c)

/-- The characters of a tag, percent escapes decoded; `acc` holds those before, latest first. -/
def tagText (fuel : Nat) (acc : List Char) (c : Cursor) : Option (List Char × Cursor) :=
  match fuel with
  | 0 => none
  | fuel + 1 =>
    if c.peek == '%' then do
      let (bytes, c) ← escapedBytes c.fuel [] c
      let s ← String.fromUTF8? ⟨bytes.toArray⟩
      tagText fuel (s.toList.reverseAux acc) c
    else if c.peek.isAlphanum || tagMarks.contains c.peek then
      tagText fuel (c.peek :: acc) c.next
    else if acc.isEmpty then none
    else some (acc.reverse, c)

/-- A handle: a mark, or a name between two marks. -/
def handle? (c : Cursor) : Option (List Char × Cursor) :=
  if c.peek != '!' then none
  else if c.peekAt 1 == ' ' then some (['!'], c.next)
  else
    let (name, c) := c.next.takeWhile isNameChar
    if c.peek == '!' then some ('!' :: name ++ ['!'], c.next) else none

/-- A tag; the position is at its mark. -/
def tag? (c : Cursor) : Option (TagName × Cursor) := do
  let (name, c) ←
    if c.peekAt 1 == '<' then do
      let (suffix, c) ← tagText c.fuel [] (c.advance 2)
      if c.peek != '>' then none
      pure (TagName.mk none suffix, c.next)
    else if isSeparator (c.peekAt 1) then pure (TagName.mk none ['!'], c.next)
    else do
      let word := c.rest.drop 1 |>.takeWhile fun x => !isSpaceOrBreak x
      let (handle, c) ← if word.contains '!' then handle? c else pure (['!'], c.next)
      let (suffix, c) ← tagText c.fuel [] c
      pure (TagName.mk (some handle) suffix, c)
  if isSpaceOrBreak c.peek then return (name, c) else none

/-- Digits as a number. -/
def digits (c : Cursor) : Reading (Nat × Cursor) :=
  let (ds, c) := c.takeWhile Char.isDigit
  if ds.isEmpty then malformed
  else if Number.DigitLimit.standard.exceeded ds.length then .error (.tooManyDigits ds.length)
  else .ok (ds.foldl (fun n d => 10 * n + (d.toNat - 48)) 0, c)

/-- The end of a directive: a comment at most. -/
def directiveEnd (c : Cursor) : Reading Cursor :=
  let c := c.skipSpaces.skipComment
  if isBreakOrEnd c.peek then .ok c.skipBreak else malformed

/-- A directive; the position is at its mark. -/
def directive (c : Cursor) : Reading (Token × Cursor) := do
  let (name, c) := c.next.takeWhile isNameChar
  if name.isEmpty || !isSpaceOrBreak c.peek then malformed
  let (token, c) ←
    if name == "YAML".toList then do
      let (major, c) ← digits c.skipSpaces
      if c.peek != '.' then malformed
      let (_, c) ← digits c.next
      if !isSpaceOrBreak c.peek then malformed
      pure (Token.versionDirective major, c)
    else if name == "TAG".toList then do
      let (handle, c) ← wellFormed (handle? c.skipSpaces)
      if c.peek != ' ' then malformed
      let (value, c) ← wellFormed (tagText c.fuel [] c.skipSpaces)
      if !isSpaceOrBreak c.peek then malformed
      pure (Token.tagDirective handle value, c)
    else pure (Token.otherDirective, c.skipWhile fun x => !isBreak x)
  return (token, ← directiveEnd c)

/-! ## Tokens -/

/-- Past spaces, comments and line breaks to the next token. After a break outside brackets a key
    may begin. -/
def skipBlank (fuel : Nat) (l : Layout) : Layout :=
  match fuel with
  | 0 => l
  | fuel + 1 =>
    let c := l.cursor.skipSpaces.skipComment
    match c.lineBreak? with
    | some (_, c) =>
      let l := l.moveTo c
      skipBlank fuel (if l.inBrackets then l else l.allowKey true)
    | none => l.moveTo c

/-- Past a byte order mark at the very beginning. -/
def skipOrderMark (l : Layout) : Layout :=
  if l.cursor.index = 0 && l.cursor.peek.toNat = 0xFEFF then l.moveTo l.cursor.next else l

/-- The mark of a document's beginning or end. -/
def documentMark (l : Layout) (t : Token) : Reading Layout := do
  let l ← (l.unindent (-1)).dropKey
  return ((l.allowKey false).push t).moveTo (l.cursor.advance 3)

def openBracket (l : Layout) (t : Token) : Reading Layout := do
  let l ← l.saveKey
  return ({ l with depth := l.depth + 1, keyAllowed := true }.push t).moveTo l.cursor.next

def closeBracket (l : Layout) (t : Token) : Reading Layout := do
  let l ← l.dropKey
  return ({ l with depth := l.depth - 1, keyAllowed := false }.push t).moveTo l.cursor.next

/-- A comma inside brackets. -/
def flowEntry (l : Layout) : Reading Layout := do
  let l ← (l.allowKey true).dropKey
  return (l.push .flowEntry).moveTo l.cursor.next

/-- Opens a block for an entry or key here, unless inside brackets; outside a key must be allowed
    here. -/
def beginBlock (l : Layout) (t : Token) : Reading Layout :=
  if l.inBrackets then .ok l
  else if !l.keyAllowed then malformed
  else if l.opens l.cursor.column then .ok ((l.openBlock l.cursor.column).push t)
  else .ok l

/-- The mark of a sequence entry. -/
def blockEntry (l : Layout) : Reading Layout := do
  let l ← l.beginBlock .blockSequenceStart
  let l ← (l.allowKey true).dropKey
  return (l.push .blockEntry).moveTo l.cursor.next

/-- The mark of a key. -/
def keyMark (l : Layout) : Reading Layout := do
  let l ← l.beginBlock .blockMappingStart
  let l ← (l.allowKey (!l.inBrackets)).dropKey
  return (l.push .key).moveTo l.cursor.next

/-- Puts a token before the token with a number. -/
def insertAt (l : Layout) (place : Nat) (t : Token) : Layout :=
  { l with tokens := l.tokens.insertIdx (l.count - place) t, count := l.count + 1 }

/-- The colon of a value: what was remembered as a possible key now is one. -/
def valueMark (l : Layout) : Reading Layout := do
  let l ← match l.key? with
    | some k =>
      let l := (l.forgetKey.insertAt k.token .key).allowKey false
      if !l.inBrackets && l.opens k.column then
        pure ((l.openBlock k.column).insertAt k.token .blockMappingStart)
      else pure l
    | none => do
      let l ← l.beginBlock .blockMappingStart
      (l.allowKey (!l.inBrackets)).dropKey
  return (l.push .value).moveTo l.cursor.next

/-- A token that may begin a key. -/
def wordToken (l : Layout) (read : Cursor → Reading (Token × Cursor)) : Reading Layout := do
  let l ← l.saveKey
  let (t, c) ← read l.cursor
  return ((l.allowKey false).push t).moveTo c

/-- An alias or anchor; the position is at its mark. -/
def nameToken (make : List Char → Token) (c : Cursor) : Reading (Token × Cursor) :=
  (wellFormed (name? c.next)).map fun p => (make p.1, p.2)

def tagToken (c : Cursor) : Reading (Token × Cursor) :=
  (wellFormed (tag? c)).map fun p => (.tag p.1, p.2)

def quotedToken (double : Bool) (c : Cursor) : Reading (Token × Cursor) :=
  (Scalar.quoted double c.fuel [] c.next).map fun p => (.scalar p.1 false, p.2)

def blockToken (l : Layout) (folded : Bool) : Reading Layout := do
  let l ← (l.allowKey true).dropKey
  let (text, c) ← wellFormed (Scalar.block folded l.indent l.cursor.next)
  return (l.push (.scalar text false)).moveTo c

def plainToken (l : Layout) : Reading Layout := do
  let l ← l.saveKey
  let (text, broken, c) := Scalar.plain l.inBrackets l.indent l.cursor.fuel [] [] false l.cursor
  return ((l.allowKey broken).push (.scalar text true)).moveTo c

def directiveToken (l : Layout) : Reading Layout := do
  let l ← (l.unindent (-1)).dropKey
  let (t, c) ← directive l.cursor
  return ((l.allowKey false).push t).moveTo c

/-- Whether a plain scalar may begin with a character before `after`. -/
def beginsPlain (l : Layout) (x after : Char) : Bool :=
  let indicators := "-?:,[]#&*!|>%@".toList ++
    [Char.ofNat 0x7B, Char.ofNat 0x7D, Char.ofNat 0x22, Char.ofNat 0x27, Char.ofNat 0x60]
  !(isSeparator x || indicators.contains x) ||
    (!isSeparator after && (x == '-' || (!l.inBrackets && (x == '?' || x == ':'))))

/-- Reads the token at the position, which is not at the end. -/
def token (l : Layout) : Reading Layout :=
  let c := l.cursor
  let x := c.peek
  let after := c.peekAt 1
  if x == '%' && c.column = 0 then l.directiveToken
  else if c.column = 0 && c.marks '-' then l.documentMark .documentStart
  else if c.column = 0 && c.marks '.' then l.documentMark .documentEnd
  else if x == '[' then l.openBracket .flowSequenceStart
  else if x == Char.ofNat 0x7B then l.openBracket .flowMappingStart
  else if x == ']' then l.closeBracket .flowSequenceEnd
  else if x == Char.ofNat 0x7D then l.closeBracket .flowMappingEnd
  else if x == ',' then l.flowEntry
  else if x == '-' && isSeparator after then l.blockEntry
  else if x == '?' && (l.inBrackets || isSeparator after) then l.keyMark
  else if x == ':' && (l.inBrackets || isSeparator after) then l.valueMark
  else if x == '*' then l.wordToken (nameToken .alias)
  else if x == '&' then l.wordToken (nameToken .anchor)
  else if x == '!' then l.wordToken tagToken
  else if x == '|' && !l.inBrackets then l.blockToken false
  else if x == '>' && !l.inBrackets then l.blockToken true
  else if x == Char.ofNat 0x27 then l.wordToken (quotedToken false)
  else if x == Char.ofNat 0x22 then l.wordToken (quotedToken true)
  else if l.beginsPlain x after then l.plainToken
  else malformed

/-- Goes on to the next token, past blanks and out of the blocks that end before it. -/
def approach (l : Layout) : Reading Layout := do
  let l := skipOrderMark l
  let l ← (skipBlank l.cursor.fuel l).dropStale
  return l.unindent l.cursor.column

/-- The tokens of a text that ends here. -/
def finish (l : Layout) : Reading (List Token) := do
  let l ← (l.unindent (-1)).dropKey
  return (l.push .streamEnd).tokens.reverse

/-- The tokens of a text with a fault after the tokens so far. A token that may turn out to begin
    a key is known only when what follows has been read, so the fault stands in its place. -/
def broken (l : Layout) (e : Fault) : List Token :=
  let possible := l.keys.filter fun k => KeyPlace.fresh k.2 l.cursor
  let known := possible.foldl (fun n k => min n k.2.token) l.count
  l.tokens.reverse.take known ++ [.fault e]

/-- Reads all tokens. Every token takes at least one character. -/
def allTokens (fuel : Nat) (l : Layout) : List Token :=
  match fuel with
  | 0 => l.broken .malformed
  | fuel + 1 =>
    match l.approach with
    | .error e => l.broken e
    | .ok near =>
      if near.cursor.rest.isEmpty then
        match near.finish with
        | .ok tokens => tokens
        | .error e => l.broken e
      else
        match near.token with
        | .ok next => allTokens fuel next
        | .error e => l.broken e

end Layout

/-- The tokens of a text, up to its first fault. -/
def Token.ofText (s : List Char) : List Token :=
  if s.all isAllowed then
    let c := Cursor.ofText s
    Layout.allTokens c.fuel { cursor := c }
  else [.fault .malformed]

end Lab8085.Yaml
