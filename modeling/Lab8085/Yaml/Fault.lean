/-
  Lab8085.Yaml.Fault

  What can be wrong with the text of a document, from its characters to its values.
-/
import Lab8085.Calendar
import Lab8085.Number.Limit
import Lab8085.Text.Quoted

namespace Lab8085.Yaml

/-- Why a text gives no value. -/
inductive Fault where
  /-- The text is no single document with known tags. -/
  | malformed
  /-- An escape names no code point. -/
  | noCodePoint
  /-- A number is too large for its place: of a code point, or of a sexagesimal digit. -/
  | overflow
  /-- Collections, or default values, are nested too deep. -/
  | tooDeep
  | emptyNumber
  | notInteger (base : Nat) (text : String)
  | tooManyDigits (count : Nat)
  | notFloat (text : String)
  | notTruth (word : String)
  /-- A text is no date. -/
  | notDate
  /-- A mapping is to be read as a date. -/
  | dateKind
  | calendar (e : CalendarFault)
  deriving DecidableEq

namespace Fault

/-- The longest text that is shown of a number that cannot be read. -/
def shownLimit : Nat := 200

def message : Fault → String
  | .malformed => "Invalid YAML"
  | .noCodePoint => "chr() arg not in range(0x110000)"
  | .overflow => "number too large"
  | .tooDeep => "nested too deep"
  | .emptyNumber => "string index out of range"
  | .notInteger base text =>
    "invalid literal for int() with base " ++ toString base ++ ": " ++
      String.ofList ((Text.quoted text).toList.take shownLimit)
  | .tooManyDigits count => Number.tooManyDigits count
  | .notFloat text => "could not convert string to float: " ++ Text.quoted text
  | .notTruth word => Text.quoted word
  | .notDate => "no date"
  | .dateKind => "a mapping is no date"
  | .calendar e => e.message

end Fault

/-- A result, or what is wrong with the text. -/
abbrev Reading (α : Type) := Except Fault α

/-- The text is no document. -/
def malformed {α : Type} : Reading α := .error .malformed

/-- A result that must be there in a well-formed document. -/
def wellFormed {α : Type} (x : Option α) : Reading α :=
  match x with
  | some a => .ok a
  | none => malformed

end Lab8085.Yaml
