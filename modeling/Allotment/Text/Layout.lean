/-!
# Layouts

A value shown as named parts, on one line or with each part on a line of its own.
-/

namespace Allotment.Text

inductive Layout
  | text (s : String)
  /-- A name and one unnamed part. -/
  | wrap (name : String) (part : Layout)
  /-- A name and named parts; the name alone if there are none. -/
  | record (name : String) (parts : List (String × Layout))
  | set (items : List Layout)
  | list (items : List Layout)

namespace Layout

/-! ### On one line -/

mutual

def inline : Layout → String
  | text s => s
  | wrap name part => name ++ "(" ++ part.inline ++ ")"
  | record name [] => name
  | record name (p :: ps) =>
    name ++ " \x7b " ++ ", ".intercalate (inlineParts (p :: ps)) ++ " \x7d"
  | set items => "\x7b" ++ ", ".intercalate (inlineItems items) ++ "\x7d"
  | list items => "[" ++ ", ".intercalate (inlineItems items) ++ "]"

def inlineItems : List Layout → List String
  | [] => []
  | l :: ls => l.inline :: inlineItems ls

def inlineParts : List (String × Layout) → List String
  | [] => []
  | (name, l) :: ps => (name ++ ": " ++ l.inline) :: inlineParts ps

end

/-! ### On many lines -/

/-- Lines one level further in, the last followed by a comma. -/
def indent : List String → List String
  | [] => []
  | [l] => ["    " ++ l ++ ","]
  | l :: ls => ("    " ++ l) :: indent ls

/-- Puts a text in front of the first line. -/
def label (s : String) : List String → List String
  | [] => [s]
  | l :: ls => (s ++ l) :: ls

mutual

def lines : Layout → List String
  | text s => [s]
  | wrap name part => (name ++ "(") :: indent part.lines ++ [")"]
  | record name [] => [name]
  | record name (p :: ps) => (name ++ " \x7b") :: linesOfParts (p :: ps) ++ ["\x7d"]
  | set [] => ["\x7b\x7d"]
  | set (l :: ls) => "\x7b" :: linesOfItems (l :: ls) ++ ["\x7d"]
  | list [] => ["[]"]
  | list (l :: ls) => "[" :: linesOfItems (l :: ls) ++ ["]"]

def linesOfItems : List Layout → List String
  | [] => []
  | l :: ls => indent l.lines ++ linesOfItems ls

def linesOfParts : List (String × Layout) → List String
  | [] => []
  | (name, l) :: ps => indent (label (name ++ ": ") l.lines) ++ linesOfParts ps

end

def stacked (l : Layout) : String := "\n".intercalate l.lines

end Layout

end Allotment.Text
