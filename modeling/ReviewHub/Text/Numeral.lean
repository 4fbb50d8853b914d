/-!
# Bounded decimal numerals

Reading the decimal text of a natural number below a bound. One plus sign may stand in front and
leading zeros are allowed. Of a character that is no digit and a value that has grown too large,
the one met first from the left is reported.
-/

namespace ReviewHub.Text

/-- Why a text is not the numeral of a number in range. -/
inductive NumeralFault where
  | empty
  | invalidDigit
  | tooLarge
deriving DecidableEq, Repr

namespace NumeralFault

def message : NumeralFault → String
  | empty => "cannot parse integer from empty string"
  | invalidDigit => "invalid digit found in string"
  | tooLarge => "number too large to fit in target type"

end NumeralFault

def digit? (c : Char) : Option Nat :=
  if c.isDigit then some (c.toNat - '0'.toNat) else none

/-- Appends the digits to `value`, keeping the number below `bound`. -/
def appendDigits (bound value : Nat) : List Char → Except NumeralFault Nat
  | [] => .ok value
  | c :: cs =>
    match digit? c with
    | none => .error .invalidDigit
    | some d =>
      if value * 10 + d < bound then appendDigits bound (value * 10 + d) cs else .error .tooLarge

/-- The natural number below `bound` that the text denotes. -/
def readNumeral (bound : Nat) : List Char → Except NumeralFault Nat
  | [] => .error .empty
  | ['+'] => .error .invalidDigit
  | '+' :: cs => appendDigits bound 0 cs
  | cs => appendDigits bound 0 cs

end ReviewHub.Text
