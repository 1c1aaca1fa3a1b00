/-
  Lab8085.Text.Quoted

  Text in quotes, as messages show it. Single quotes are used unless the text holds
  a single quote and no double quote. The quote in use, the backslash and characters
  that cannot be printed are written as escapes.
-/
import Lab8085.Text.Blank
import Lab8085.Text.Hex
import Lab8085.Text.PrintableTable
import Lab8085.Text.Surrogate

namespace Lab8085.Text

def singleQuote : Char := Char.ofNat 39

def doubleQuote : Char := Char.ofNat 34

def backslash : Char := Char.ofNat 92

/-- An escape with a fixed number of lower-case hexadecimal digits. -/
def hexEscape (mark : Char) (width n : Nat) : List Char :=
  backslash :: mark :: (padHex width n).map Char.toLower

/-- A character inside quotes. -/
def escapeChar (quote c : Char) : List Char :=
  if c = quote || c = backslash then [backslash, c]
  else if c = '\n' then [backslash, 'n']
  else if c = '\r' then [backslash, 'r']
  else if c = '\t' then [backslash, 't']
  else
    let n := codePoint c
    if inRanges printableRanges n then [c]
    else if n < 0x100 then hexEscape 'x' 2 n
    else if n < 0x10000 then hexEscape 'u' 4 n
    else hexEscape 'U' 8 n

/-- The quote that a text is put in. -/
def quoteFor (s : List Char) : Char :=
  if s.contains singleQuote && !s.contains doubleQuote then doubleQuote else singleQuote

/-- A text in quotes. -/
def quoted (s : String) : String :=
  let cs := s.toList
  let q := quoteFor cs
  String.ofList (q :: cs.flatMap (escapeChar q) ++ [q])

/-- Bytes in quotes: those of printable ASCII as characters, others as escapes. -/
def quotedBytes (bytes : List Nat) : String :=
  let q := quoteFor (bytes.map Char.ofNat)
  let escape (n : Nat) : List Char :=
    if n < 0x80 then escapeChar q (Char.ofNat n) else hexEscape 'x' 2 n
  String.ofList ('b' :: q :: bytes.flatMap escape ++ [q])

end Lab8085.Text
