/-
  Lab8085.Source.Literal

  Numeric literals: one to four hexadecimal digits followed by `h`, or a decimal
  number up to 32767. Blanks around a literal and the case of its letters do not
  matter. Digits are ASCII digits. The number of decimal digits may be limited, leading
  zeros included.
-/
import Lab8085.Source.Error
import Lab8085.Text.LowerCase
import Lab8085.Word

namespace Lab8085.Source.Literal

variable {α : Type}

/-- The value of a decimal digit. -/
def decimalDigit? (c : Char) : Option Nat :=
  if 48 ≤ c.toNat ∧ c.toNat ≤ 57 then some (c.toNat - 48) else none

/-- The value of a hexadecimal digit in lower case. -/
def hexDigit? (c : Char) : Option Nat :=
  if 48 ≤ c.toNat ∧ c.toNat ≤ 57 then some (c.toNat - 48)
  else if 97 ≤ c.toNat ∧ c.toNat ≤ 102 then some (c.toNat - 87) else none

/-- The number that digits write in a base, `acc` standing before them. -/
def valueFrom (base : Nat) (digit? : Char → Option Nat) (acc : Nat) : List Char → Option Nat
  | [] => some acc
  | c :: r => do valueFrom base digit? (base * acc + (← digit? c)) r

/-- The number that at least one digit writes in a base. -/
def value? (base : Nat) (digit? : Char → Option Nat) : List Char → Option Nat
  | [] => none
  | s => valueFrom base digit? 0 s

def maxDecimal : Nat := 0x7FFF

def maxHexDigits : Nat := 4

/-- The value of a literal that is trimmed and in lower case. A final `h` makes it hexadecimal. -/
def ofLower? (s : List Char) : Option Nat :=
  if s.getLast? = some 'h' then
    if s.dropLast.length ≤ maxHexDigits then value? 16 hexDigit? s.dropLast else none
  else
    (value? 10 decimalDigit? s).filter (· ≤ maxDecimal)

/-- The value of a decimal number if it has no more digits than the limit allows. -/
def within (limit : Number.DigitLimit) (s : List Char) (value : Except Error α) : Except Error α :=
  if s.all (fun c => (decimalDigit? c).isSome) && limit.exceeded s.length then
    .error (.tooManyDigits s.length)
  else value

/-- The value of a literal. -/
def read (text : String) (limit : Number.DigitLimit := .standard) : Except Error Nat :=
  let s := Text.lower (Text.trim text.toList)
  within limit s <|
    match ofLower? s with
    | some n => .ok n
    | none => .error (.malformedLiteral text)

/-- A literal as a byte: its low eight bits. -/
def readByte (text : String) (limit : Number.DigitLimit := .standard) : Except Error Byte :=
  (read text limit).map (BitVec.ofNat 8)

/-- A literal as a word. -/
def readWord (text : String) (limit : Number.DigitLimit := .standard) : Except Error Word :=
  (read text limit).map (BitVec.ofNat 16)

/-- A restart number: decimal digits with a value below eight. -/
def readIndex (text : String) (limit : Number.DigitLimit := .standard) : Except Error (Fin 8) :=
  let s := Text.trim text.toList
  within limit s <|
    match value? 10 decimalDigit? s with
    | some n => if h : n < 8 then .ok ⟨n, h⟩ else .error (.indexOutOfRange text)
    | none => .error (.indexOutOfRange text)

/-- Without a limit every number is within it. -/
@[simp] theorem within_none (s : List Char) (value : Except Error α) : within none s value = value := by
  simp [within]

end Lab8085.Source.Literal
