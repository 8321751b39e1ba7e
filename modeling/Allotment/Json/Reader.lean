import Allotment.Json.Basic
import Allotment.Json.Token

/-!
# Reading JSON

Tokens are read one by one. What is open, and what may come next, is kept in a `Progress`; a text is
a value if its tokens lead from the start to a finished value.
-/

namespace Allotment.Json

/-- Something opened and not closed yet, with what has been read of it, the latest first. -/
inductive Frame
  | arr (items : List Json)
  | obj (members : List (Option String × Json)) (key : Option String)

inductive Goal
  | value
  /-- A value, or the end of the array that has just begun. -/
  | firstItem
  | key (members : List (Option String × Json))
  /-- A key, or the end of the object that has just begun. -/
  | firstKey
  | colon (members : List (Option String × Json)) (key : Option String)
  | afterItem (items : List Json)
  | afterMember (members : List (Option String × Json))

inductive Progress
  | reading (goal : Goal) (frames : List Frame)
  | finished (v : Json)

namespace Progress

def deliver (v : Json) : List Frame → Progress
  | [] => finished v
  | .arr items :: fs => reading (.afterItem (v :: items)) fs
  | .obj members key :: fs => reading (.afterMember ((key, v) :: members)) fs

def value? (fs : List Frame) : Token → Option Progress
  | .null => some (deliver .null fs)
  | .bool b => some (deliver (.bool b) fs)
  | .num n => some (deliver (.num n) fs)
  | .str s => some (deliver (.str s) fs)
  | .openArr => some (reading .firstItem fs)
  | .openObj => some (reading .firstKey fs)
  | _ => none

def step : Progress → Token → Option Progress
  | finished _, _ => none
  | reading .value fs, t => value? fs t
  | reading .firstItem fs, .closeArr => some (deliver (.arr []) fs)
  | reading .firstItem fs, t => value? (.arr [] :: fs) t
  | reading .firstKey fs, .closeObj => some (deliver (.obj []) fs)
  | reading .firstKey fs, .str k => some (reading (.colon [] k) fs)
  | reading .firstKey _, _ => none
  | reading (.key members) fs, .str k => some (reading (.colon members k) fs)
  | reading (.key _) _, _ => none
  | reading (.colon members k) fs, .colon => some (reading .value (.obj members k :: fs))
  | reading (.colon _ _) _, _ => none
  | reading (.afterItem items) fs, .comma => some (reading .value (.arr items :: fs))
  | reading (.afterItem items) fs, .closeArr => some (deliver (.arr items.reverse) fs)
  | reading (.afterItem _) _, _ => none
  | reading (.afterMember members) fs, .comma => some (reading (.key members) fs)
  | reading (.afterMember members) fs, .closeObj => some (deliver (.obj members.reverse) fs)
  | reading (.afterMember _) _, _ => none

def start : Progress := reading .value []

def result? : Progress → Option Json
  | finished v => some v
  | reading _ _ => none

end Progress

def ofTokens? (ts : List Token) : Option Json :=
  (ts.foldlM Progress.step Progress.start).bind Progress.result?

def parse? (s : String) : Option Json := (tokens? s.toList).bind ofTokens?

/-! ### Looking into values -/

def asBool? : Json → Option Bool
  | bool b => some b
  | _ => none

def asText? : Json → Option String
  | str s => s
  | _ => none

def asNat? (bound : Nat) : Json → Option Nat
  | num (some n) => if n < bound then some n else none
  | _ => none

def asWord? (j : Json) : Option UInt64 := (j.asNat? 18446744073709551616).map UInt64.ofNat

def asList? {α : Type} (item : Json → Option α) : Json → Option (List α)
  | arr items => items.mapM item
  | _ => none

/-- A value that may be missing: nothing stands for `null`. -/
def asOption? {α : Type} (item : Json → Option α) : Json → Option (Option α)
  | null => some none
  | j => (item j).map some

def hasBrokenKey (members : List (Option String × Json)) : Bool := members.any (·.1.isNone)

/-- The value of a name among members: none in the outer option if it stands there twice. -/
def member? (members : List (Option String × Json)) (name : String) : Option (Option Json) :=
  match members.filter (·.1 == some name) with
  | [] => some none
  | [m] => some (some m.2)
  | _ => none

/-- The values of the named fields of an object, which may have others too. -/
def fieldsOfMembers? (names : List String) (members : List (Option String × Json)) :
    Option (List (Option Json)) :=
  if hasBrokenKey members then none else names.mapM (member? members)

/-- The values of the named fields of a record: an object, or an array with just these fields in
order. -/
def fields? (names : List String) : Json → Option (List (Option Json))
  | obj members => fieldsOfMembers? names members
  | arr items => if items.length = names.length then some (items.map some) else none
  | _ => none

/-- As `fields?`, but an array may break off early. -/
def leadingFields? (names : List String) : Json → Option (List (Option Json))
  | obj members => fieldsOfMembers? names members
  | arr items =>
    if items.length ≤ names.length then
      some (items.map some ++ List.replicate (names.length - items.length) none)
    else none
  | _ => none

end Allotment.Json
