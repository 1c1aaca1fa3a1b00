/-
  Lab8085.Number.Limit

  How long decimal numbers may be. Reading a longer one and showing a longer one are
  faults of their own. Where the limit is a parameter, `none` stands for no limit.
-/

namespace Lab8085.Number

/-- The most digits that a decimal number may have, if there is such a bound. -/
abbrev DigitLimit := Option Nat

/-- The usual bound. -/
def DigitLimit.standard : DigitLimit := some 4300

/-- Whether a number of digits is beyond a bound. -/
def DigitLimit.exceeded (limit : DigitLimit) (count : Nat) : Bool :=
  limit.any fun most => most < count

/-- Whether an integer has too many digits to be shown. -/
def tooLong (n : Int) : Bool :=
  Nat.pow 10 4300 ≤ n.natAbs

def limitText : String := "Exceeds the limit (4300 digits) for integer string conversion"

def limitAdvice : String := "; use sys.set_int_max_str_digits() to increase the limit"

/-- The complaint about a number with too many digits that is to be read. -/
def tooManyDigits (count : Nat) : String :=
  limitText ++ ": value has " ++ toString count ++ " digits" ++ limitAdvice

/-- The complaint about a number with too many digits that is to be shown. -/
def tooLongToShow : String :=
  limitText ++ limitAdvice

@[simp] theorem DigitLimit.exceeded_none (count : Nat) :
    DigitLimit.exceeded none count = false := rfl

end Lab8085.Number
