/-!
# Counts

Natural numbers below a bound, written in digits with an optional plus sign.
-/
namespace CrewFlow.Text

inductive CountFault where
  | badDigit
  | tooLarge
  deriving DecidableEq, Repr

def CountFault.message : CountFault → String
  | .badDigit => "invalid digit found in string"
  | .tooLarge => "number too large to fit in target type"

/-- Reads the digits behind a number; the first fault from the left counts. -/
def countDigits (bound n : Nat) : List Char → Except CountFault Nat
  | [] => .ok n
  | c :: cs =>
    if !c.isDigit then .error .badDigit
    else
      let n := n * 10 + (c.toNat - 48)
      if bound ≤ n then .error .tooLarge else countDigits bound n cs

def readCount (bound : Nat) (text : String) : Except CountFault Nat :=
  match text.toList with
  | [] => .error .badDigit
  | ['+'] => .error .badDigit
  | '+' :: digits => countDigits bound 0 digits
  | digits => countDigits bound 0 digits

end CrewFlow.Text
