/-!
# Classes of characters

A class is given by the code points where its runs begin and end, alternately and in ascending
order: a character is in the class if an odd number of them are not above it.
-/

namespace Allotment.Text

def inRuns (bounds : List Nat) (c : Char) : Bool :=
  bounds.countP (· ≤ c.toNat) % 2 == 1

end Allotment.Text
