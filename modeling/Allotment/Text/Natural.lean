/-!
# Natural numbers in texts

Decimal digits, after a plus sign or not. Digits are read from the left, and the first thing that is
wrong counts.
-/

namespace Allotment.Text

inductive NaturalFault
  | empty
  | invalidDigit
  | tooLarge
deriving DecidableEq

def NaturalFault.message : NaturalFault → String
  | empty => "cannot parse integer from empty string"
  | invalidDigit => "invalid digit found in string"
  | tooLarge => "number too large to fit in target type"

/-- Goes on reading digits after `n`; the number has to stay below the bound. -/
def readDigits (bound : Nat) (n : Nat) : List Char → Except NaturalFault Nat
  | [] => .ok n
  | c :: cs =>
    if c.isDigit then
      let m := n * 10 + (c.toNat - '0'.toNat)
      if m < bound then readDigits bound m cs else .error .tooLarge
    else .error .invalidDigit

/-- The natural number below the bound that a text stands for. -/
def readNatural (bound : Nat) (s : String) : Except NaturalFault Nat :=
  match s.toList with
  | [] => .error .empty
  | ['+'] => .error .invalidDigit
  | '+' :: cs => readDigits bound 0 cs
  | cs => readDigits bound 0 cs

def readWord (s : String) : Except NaturalFault UInt64 :=
  (readNatural 18446744073709551616 s).map UInt64.ofNat

end Allotment.Text
