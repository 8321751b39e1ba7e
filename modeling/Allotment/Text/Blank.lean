import Allotment.Text.Runs

/-!
# Blanks

The white space of Unicode, and texts without it at their ends.
-/

namespace Allotment.Text

/-- Where the runs of white space begin and end. -/
def blankBounds : List Nat :=
  [0x9, 0xe, 0x20, 0x21, 0x85, 0x86, 0xa0, 0xa1, 0x1680, 0x1681, 0x2000, 0x200b, 0x2028, 0x202a,
   0x202f, 0x2030, 0x205f, 0x2060, 0x3000, 0x3001]

def isBlank (c : Char) : Bool := inRuns blankBounds c

def allBlank (s : String) : Bool := s.toList.all isBlank

def dropBlanks (s : List Char) : List Char := s.dropWhile isBlank

def trimEnd (s : List Char) : List Char := (dropBlanks s.reverse).reverse

end Allotment.Text
