/-!
# JSON values

Only what readers of this library look at is kept: of a number whether it is natural, of a string
whether it is a text. An object keeps its members in order, repeated ones too.
-/

namespace Allotment

inductive Json
  | null
  | bool (b : Bool)
  /-- A natural number, or none for one with a sign, a fraction or an exponent. -/
  | num (n : Option Nat)
  /-- A text, or none for a string with half of a surrogate pair. -/
  | str (s : Option String)
  | arr (items : List Json)
  | obj (members : List (Option String × Json))

namespace Json

def text (s : String) : Json := str (some s)

def nat (n : Nat) : Json := num (some n)

def object (members : List (String × Json)) : Json := obj (members.map fun m => (some m.1, m.2))

end Json

end Allotment
