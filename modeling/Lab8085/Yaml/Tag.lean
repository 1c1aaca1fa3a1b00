/-
  Lab8085.Yaml.Tag

  Tags of nodes, and the tag that a plain scalar gets from its text: booleans as
  words, integers in four bases and in sexagesimal notation, floating-point numbers
  with a point, nulls, timestamps. All other text is a string.
-/
import Lab8085.Yaml.Timestamp

namespace Lab8085.Yaml

/-- The kinds of value that a node can be tagged as. `merge` and `default` are the tags of the
    scalars `<<` and `=`. -/
inductive Tag where
  | null | bool | int | float | timestamp | binary | str
  | seq | orderedMap | pairs | set | map | merge | default
  /-- A tag that no value has. -/
  | other
  deriving DecidableEq

namespace Tag

/-- The beginning that all tags of values share. -/
def base : List Char := "tag:yaml.org,2002:".toList

/-- The tag of a full name. -/
def ofName (name : List Char) : Tag :=
  if name.take base.length = base then
    match String.ofList (name.drop base.length) with
    | "null" => .null
    | "bool" => .bool
    | "int" => .int
    | "float" => .float
    | "timestamp" => .timestamp
    | "binary" => .binary
    | "str" => .str
    | "seq" => .seq
    | "omap" => .orderedMap
    | "pairs" => .pairs
    | "set" => .set
    | "map" => .map
    | "merge" => .merge
    | "value" => .default
    | _ => .other
  else .other

/-! ## Forms of plain scalars -/

def trueWords : List String :=
  ["yes", "Yes", "YES", "true", "True", "TRUE", "on", "On", "ON"]

def falseWords : List String :=
  ["no", "No", "NO", "false", "False", "FALSE", "off", "Off", "OFF"]

def nullWords : List String :=
  ["", "~", "null", "Null", "NULL"]

/-- The text without a sign in front. -/
def unsigned (s : List Char) : List Char :=
  match s with
  | '+' :: r => r
  | '-' :: r => r
  | r => r

def isDigitOr (mark : Char) (c : Char) : Bool :=
  c.isDigit || c == mark

/-- One or more further groups of sexagesimal digits, each below sixty, and what follows them. -/
def sexagesimal? (fuel : Nat) (s : List Char) : Option (List Char) :=
  match fuel with
  | 0 => none
  | fuel + 1 =>
    match s with
    | ':' :: r =>
      let more (rest : List Char) : Option (List Char) :=
        match rest with
        | ':' :: _ => sexagesimal? fuel rest
        | _ => some rest
      match r with
      | a :: b :: rest =>
        if '0' ≤ a && a ≤ '5' && b.isDigit then more rest
        else if a.isDigit then more (b :: rest)
        else none
      | [a] => if a.isDigit then some [] else none
      | [] => none
    | _ => none

/-- Integers: binary, octal with a leading zero, decimal, hexadecimal, sexagesimal; underscores
    may stand among the digits. -/
def isInt (s : List Char) : Bool :=
  match unsigned s with
  | '0' :: 'b' :: r => !r.isEmpty && r.all fun c => c == '0' || c == '1' || c == '_'
  | '0' :: 'x' :: r =>
    !r.isEmpty && r.all fun c => c == '_' || c.isDigit || ('a' ≤ c && c ≤ 'f') || ('A' ≤ c && c ≤ 'F')
  | ['0'] => true
  | '0' :: r => r.all fun c => ('0' ≤ c && c ≤ '7') || c == '_'
  | d :: r =>
    d.isDigit &&
      match r.dropWhile (isDigitOr '_') with
      | [] => true
      | rest => sexagesimal? rest.length rest == some []
  | [] => false

/-- An exponent with its sign, or nothing. -/
def isExponent (s : List Char) : Bool :=
  match s with
  | [] => true
  | e :: sign :: d :: r =>
    (e == 'e' || e == 'E') && (sign == '+' || sign == '-') && d.isDigit && r.all Char.isDigit
  | _ => false

/-- Floating-point numbers have a point; only the exponent, infinity and the numbers that begin
    with a digit take a sign. -/
def isFloat (s : List Char) : Bool :=
  let infinity := [".inf", ".Inf", ".INF"]
  let notNumber := [".nan", ".NaN", ".NAN"]
  let body := unsigned s
  infinity.contains (String.ofList body) || notNumber.contains (String.ofList s) ||
    (match s with
      | '.' :: d :: r => d.isDigit && isExponent (r.dropWhile (isDigitOr '_'))
      | _ => false) ||
    (match body with
      | d :: r =>
        d.isDigit &&
          match r.dropWhile (isDigitOr '_') with
          | '.' :: r => isExponent (r.dropWhile (isDigitOr '_'))
          | ':' :: r =>
            match sexagesimal? (r.length + 1) (':' :: r) with
            | some ('.' :: r) => r.all (isDigitOr '_')
            | _ => false
          | _ => false
      | [] => false)

/-- Text that begins other tokens and that no value has. -/
def markWords : List String :=
  ["!", "&", "*"]

/-- The text that is looked at for a tag: a line break at the end of other text plays no part. -/
def withoutLastBreak (s : List Char) : List Char :=
  if 1 < s.length ∧ s.getLast? = some '\n' then s.dropLast else s

/-- The tag that the text of a plain scalar has. -/
def ofPlain (text : List Char) : Tag :=
  let s := withoutLastBreak text
  let word := String.ofList s
  if trueWords.contains word || falseWords.contains word then .bool
  else if isFloat s then .float
  else if isInt s then .int
  else if s = ['<', '<'] then .merge
  else if nullWords.contains word then .null
  else if Timestamp.isPlain s then .timestamp
  else if s = ['='] then .default
  else if markWords.contains word then .other
  else .str

end Tag

end Lab8085.Yaml
