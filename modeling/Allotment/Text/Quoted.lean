import Allotment.Text.Printable

/-!
# Quoted texts

A text between double quotes in which every character can be seen.
-/

namespace Allotment.Text

/-- A number in lower-case hexadecimal, without padding. -/
def hex (n : Nat) : String := String.ofList (Nat.toDigits 16 n)

def showChar (c : Char) : String :=
  if c = '"' then "\\\""
  else if c = '\\' then "\\\\"
  else if c = '\n' then "\\n"
  else if c = '\r' then "\\r"
  else if c = '\t' then "\\t"
  else if c = '\x00' then "\\0"
  else if isPrintable c then c.toString
  else "\\u\x7b" ++ hex c.toNat ++ "\x7d"

def quoted (s : String) : String :=
  "\"" ++ String.join (s.toList.map showChar) ++ "\""

end Allotment.Text
