import Allotment.Json.Basic

/-!
# Writing JSON

The compact form, without blanks. Quotes, backslashes and control characters are escaped, and
nothing else.
-/

namespace Allotment.Json

def hexChar (n : Nat) : Char := (Nat.digitChar (n % 16))

def escape (c : Char) : List Char :=
  if c = '"' then ['\\', '"']
  else if c = '\\' then ['\\', '\\']
  else if c = '\x08' then ['\\', 'b']
  else if c = '\x0c' then ['\\', 'f']
  else if c = '\n' then ['\\', 'n']
  else if c = '\r' then ['\\', 'r']
  else if c = '\t' then ['\\', 't']
  else if c < ' ' then ['\\', 'u', '0', '0', hexChar (c.toNat / 16), hexChar c.toNat]
  else [c]

/-- A string; half of a surrogate pair stands for one that is no text. -/
def quote : Option String → List Char
  | some s => '"' :: s.toList.flatMap escape ++ ['"']
  | none => ['"', '\\', 'u', 'd', '8', '0', '0', '"']

/-- A number; minus one stands for one that is not natural. -/
def digitsOf : Option Nat → List Char
  | some n => Nat.toDigits 10 n
  | none => ['-', '1']

mutual

def chars : Json → List Char
  | null => ['n', 'u', 'l', 'l']
  | bool true => ['t', 'r', 'u', 'e']
  | bool false => ['f', 'a', 'l', 's', 'e']
  | num n => digitsOf n
  | str s => quote s
  | arr [] => ['[', ']']
  | arr (v :: vs) => '[' :: v.chars ++ charsOfItems vs ++ [']']
  | obj [] => ['\x7b', '\x7d']
  | obj ((k, v) :: ms) => '\x7b' :: quote k ++ ':' :: v.chars ++ charsOfMembers ms ++ ['\x7d']

def charsOfItems : List Json → List Char
  | [] => []
  | v :: vs => ',' :: v.chars ++ charsOfItems vs

def charsOfMembers : List (Option String × Json) → List Char
  | [] => []
  | (k, v) :: ms => ',' :: quote k ++ ':' :: v.chars ++ charsOfMembers ms

end

def compact (j : Json) : String := String.ofList j.chars

end Allotment.Json
