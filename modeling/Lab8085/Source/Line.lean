/-
  Lab8085.Source.Line

  The parts of a source line. A semicolon starts a comment; the text before the
  first colon is a label. Of the rest, the text before the first comma is the
  mnemonic and the words after it are operands; without a comma the first word is
  the mnemonic. Letter case does not matter: all parts are in lower case.
-/
import Lab8085.Source.Error
import Lab8085.Text.LowerCase

namespace Lab8085.Source

/-- A source line: its label, its mnemonic with single spaces between words, its operands. -/
structure Line where
  label : Option String
  mnemonic : Option String
  operands : List String
  deriving DecidableEq

namespace Line

/-- The text before the first `c` and the text after it, if there is a `c`. -/
def cutAt? (c : Char) : List Char → Option (List Char × List Char)
  | [] => none
  | d :: r =>
    if d = c then some ([], r)
    else (cutAt? c r).map fun p => (d :: p.1, p.2)

/-- The text before the first `c`, or all of it. -/
def before (c : Char) (s : List Char) : List Char :=
  s.takeWhile (· ≠ c)

/-- The instruction part of a line in lower case. -/
def ofInstruction (label : Option String) (s : List Char) : Line :=
  match Text.trim s with
  | [] => ⟨label, none, []⟩
  | body =>
    match cutAt? ',' body with
    | some (head, rest) =>
      ⟨label, some (String.ofList (Text.joinWords (Text.words head))),
        (Text.words rest).map String.ofList⟩
    | none =>
      match Text.words body with
      | [] => ⟨label, none, []⟩
      | w :: ws => ⟨label, some (String.ofList w), ws.map String.ofList⟩

/-- A line in lower case and without its comment. -/
def ofLower (s : List Char) : Except Error Line :=
  match cutAt? ':' s with
  | none => .ok (ofInstruction none s)
  | some (name, rest) =>
    match Text.trim name with
    | [] => .error .emptyLabel
    | label => .ok (ofInstruction (some (String.ofList label)) rest)

/-- The parts of a line of text. -/
def parse (s : List Char) : Except Error Line :=
  ofLower (before ';' (Text.lower s))

end Line

end Lab8085.Source
