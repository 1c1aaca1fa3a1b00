/-
  Lab8085.Source.Error

  What can be wrong with one line of assembly source, and how it is said.
-/
import Lab8085.Number.Limit

namespace Lab8085.Source

/-- A fault of a source line. -/
inductive Error where
  | unknownMnemonic (mnemonic : String)
  | operandCount (expected found : Nat)
  | invalidRegister (name : String) (allowed : List String)
  | invalidPair (name : String) (allowed : List String)
  | malformedLiteral (text : String)
  | indexOutOfRange (text : String)
  | emptyLabel
  | duplicateLabel (name : String)
  | undefinedLabel (name : String)
  /-- A decimal number has more digits than can be read. -/
  | tooManyDigits (count : Nat)
  deriving DecidableEq

namespace Error

def message : Error → String
  | .unknownMnemonic m => "Unknown opcode '" ++ m ++ "'"
  | .operandCount expected found =>
    "Expected " ++ toString expected ++ " operand(s), found " ++ toString found
  | .invalidRegister name allowed =>
    "Expected register " ++ "/".intercalate allowed ++ ", found '" ++ name ++ "'"
  | .invalidPair name allowed =>
    "Expected register pair " ++ "/".intercalate allowed ++ ", found '" ++ name ++ "'"
  | .malformedLiteral text => "Malformed numeric literal '" ++ text ++ "'"
  | .indexOutOfRange text => "Expected an index from 0 to 7, found '" ++ text ++ "'"
  | .emptyLabel => "Label name is empty"
  | .duplicateLabel name => "Label '" ++ name ++ "' is already defined"
  | .undefinedLabel name => "Label '" ++ name ++ "' is not defined"
  | .tooManyDigits count => Number.tooManyDigits count

end Error

end Lab8085.Source
