import Allotment.Config.Variables
import Allotment.Text.Alphanumeric

/-!
# Files of variables

A file gives variables line by line, as `NAME=value`. Values may be quoted, go on over line ends
inside quotes, and take in other variables with `$`. Variables that are set already keep their
value. Reading stops without a word at the first line that is malformed; what stands before it
counts.
-/

namespace Allotment.EnvFile

/-- Variables and their values; the first of two for one name counts. -/
abbrev Env := List (String × String)

def rest? : List Char → List Char → Option (List Char)
  | [], cs => some cs
  | _ :: _, [] => none
  | b :: bs, c :: cs => if b = c then rest? bs cs else none

/-- What a process knows of a name. It keeps a variable as a text, `NAME=value`, and answers with what
follows the name and an equals sign where a text begins with these. A name that has an equals sign
thus reaches into a value. -/
def fetch? (env : Env) (name : String) : Option String :=
  env.findSome? fun (n, v) =>
    (rest? (name ++ "=").toList (n ++ "=" ++ v).toList).map String.ofList

/-! ### Lines

A line goes on over its end inside quotes and after a backslash or a blank. -/

inductive Place
  | plain
  | blank
  | escaped
  | double
  | doubleEscaped
  | single
  | singleEscaped
deriving DecidableEq

/-- What a character that is neither quoted nor escaped leads to. -/
def Place.open : Char → Place
  | '\\' => escaped
  | '"' => double
  | '\'' => single
  | _ => plain

def Place.next (p : Place) (c : Char) : Place :=
  match p with
  | plain => if Text.isBlank c && c != '\n' && c != '\r' then blank else Place.open c
  | blank => Place.open c
  | escaped => plain
  | double => if c = '\\' then doubleEscaped else if c = '"' then plain else double
  | doubleEscaped => double
  | single => if c = '\\' then singleEscaped else if c = '\'' then plain else single
  | singleEscaped => single

/-- The characters of a line up to a comment, and the place after them; none for the place if a
comment was found. -/
def scan : Place → List Char → List Char × Option Place
  | p, [] => ([], some p)
  | p, c :: cs =>
    if p = .blank ∧ c = '#' then ([], none)
    else
      let (kept, place) := scan (p.next c) cs
      (c :: kept, place)

def cut : List Char → List (List Char)
  | [] => []
  | c :: cs =>
    if c = '\n' then [c] :: cut cs
    else
      match cut cs with
      | [] => [[c]]
      | l :: ls => (c :: l) :: ls

def dropLineEnd (l : List Char) : List Char :=
  match l.reverse with
  | '\n' :: '\r' :: r => r.reverse
  | '\n' :: r => r.reverse
  | _ => l

def isComment (l : List Char) : Bool := (Text.dropBlanks l).head? == some '#'

/-- Joins cut lines that belong together, `begun` being what the line so far holds and `p` the place
at its end. An unfinished line at the end is malformed: none stands for it. -/
def join (begun : List Char) (p : Place) : List (List Char) → List (Option (List Char))
  | [] => if p = .plain then [] else [none]
  | l :: ls =>
    if isComment (begun ++ l) then join [] .plain ls
    else
      match scan p l with
      | (kept, none) => some (begun ++ kept) :: join [] .plain ls
      | (_, some .plain) => some (dropLineEnd (begun ++ l)) :: join [] .plain ls
      | (_, some q) => join (begun ++ l) q ls

/-- The lines of a file; a mark at its start that tells the byte order is skipped. -/
def lines (text : String) : List (Option (List Char)) :=
  match text.toList with
  | '\uFEFF' :: cs => join [] .plain (cut cs)
  | cs => join [] .plain (cut cs)

/-! ### Values -/

/-- How far the name of a variable to be taken in has been read. -/
inductive Naming
  | off
  | bare (name : List Char)
  | braced (name : List Char)
deriving DecidableEq

/-- The state in which a character of a value is read; names and output have their latest character
first. -/
structure ValueState where
  single : Bool := false
  double : Bool := false
  escaped : Bool := false
  /-- Only blanks or a comment may follow. -/
  ending : Bool := false
  naming : Naming := .off
  output : List Char := []
deriving DecidableEq

namespace ValueState

def emit (s : ValueState) (c : Char) : ValueState := { s with output := c :: s.output }

def insert (value : String → String) (name : List Char) (s : ValueState) : ValueState :=
  { s with
    naming := .off
    output := (value (String.ofList name.reverse)).toList.reverse ++ s.output }

def escape? (s : ValueState) (c : Char) : Option ValueState :=
  let s := { s with escaped := false }
  if c = '\\' ∨ c = '\'' ∨ c = '"' ∨ c = '$' ∨ c = ' ' then some (s.emit c)
  else if c = 'n' then some (s.emit '\n')
  else none

def readBare (value : String → String) (name : List Char) (s : ValueState) (c : Char) :
    ValueState :=
  if Text.isAlphanumeric c then { s with naming := .bare (c :: name) }
  else if c = '\x7b' ∧ name = [] then { s with naming := .braced [] }
  else if c = '$' then { s.insert value name with naming := .bare [] }
  else (s.insert value name).emit c

def readBraced (value : String → String) (name : List Char) (s : ValueState) (c : Char) :
    ValueState :=
  if c = '\x7d' then s.insert value name else { s with naming := .braced (c :: name) }

def readPlain (s : ValueState) (c : Char) : ValueState :=
  if c = '$' then { s with naming := .bare [] }
  else if s.double then
    if c = '"' then { s with double := false }
    else if c = '\\' then { s with escaped := true }
    else s.emit c
  else if c = '\'' then { s with single := true }
  else if c = '"' then { s with double := true }
  else if c = '\\' then { s with escaped := true }
  else if c = ' ' ∨ c = '\t' then { s with ending := true }
  else s.emit c

/-- Reads the next character of a value; none where it must not stand. -/
def read? (value : String → String) (s : ValueState) (c : Char) : Option ValueState :=
  if s.escaped then s.escape? c
  else if s.single then some (if c = '\'' then { s with single := false } else s.emit c)
  else
    match s.naming with
    | .bare name => some (s.readBare value name c)
    | .braced name => some (s.readBraced value name c)
    | .off => some (s.readPlain c)

def finish? (value : String → String) (s : ValueState) : Option String :=
  match s.naming with
  | .braced _ => none
  | .bare name => if s.single || s.double then none else some (text (s.insert value name))
  | .off => if s.single || s.double then none else some (text s)
where
  text (s : ValueState) : String := String.ofList s.output.reverse

end ValueState

/-- The value that stands after an equals sign, `value` giving the variables that it takes in. -/
def readValue? (value : String → String) : ValueState → List Char → Option String
  | s, [] => s.finish? value
  | s, c :: cs =>
    if s.ending then
      if c = ' ' ∨ c = '\t' then readValue? value s cs
      else if c = '#' then s.finish? value
      else none
    else (s.read? value c).bind fun s => readValue? value s cs

/-! ### Assignments -/

def isNameStart (c : Char) : Bool := c.isAlpha || c == '_'

def isNamePart (c : Char) : Bool := c.isAlphanum || c == '_' || c == '.'

/-- The name at the front, and what follows it and its blanks. -/
def name? : List Char → Option (List Char × List Char)
  | [] => none
  | c :: cs =>
    if isNameStart c then
      some (c :: cs.takeWhile isNamePart, Text.dropBlanks (cs.dropWhile isNamePart))
    else none

/-- What follows an equals sign and its blanks. -/
def afterEquals? : List Char → Option (List Char)
  | '=' :: cs => some (Text.dropBlanks cs)
  | _ => none

/-- The name that a line assigns to, and the text of the value. A line may begin with `export`, which
may also be the name. -/
def target? (l : List Char) : Option (List Char × List Char) := do
  let (name, rest) ← name? l
  match afterEquals? rest with
  | some text => return (name, text)
  | none =>
    if name = "export".toList then
      let (name, rest) ← name? rest
      return (name, ← afterEquals? rest)
    else none

/-- What has been set: for the process, and by the file alone. -/
structure Scope where
  process : Env
  file : Env := []

namespace Scope

/-- The value of a variable that is taken in; nothing for one that is not set. -/
def value (s : Scope) (name : String) : String :=
  ((fetch? s.process name).or (s.file.lookup name)).getD ""

/-- The process keeps what it has; the file remembers the latest value. -/
def assign (s : Scope) (name text : String) : Scope where
  process := if (fetch? s.process name).isSome then s.process else s.process ++ [(name, text)]
  file := (name, text) :: s.file

def follow? (s : Scope) (l : List Char) : Option Scope :=
  let l := Text.dropBlanks (Text.trimEnd l)
  if l.isEmpty || l.head? == some '#' then some s
  else do
    let (name, text) ← target? l
    let name := String.ofList name
    if text.isEmpty || text.head? == some '#' then return s.assign name ""
    else return s.assign name (← readValue? s.value {} text)

def followAll : List (Option (List Char)) → Scope → Scope
  | [], s => s
  | none :: _, s => s
  | some l :: ls, s =>
    match s.follow? l with
    | none => s
    | some s => followAll ls s

end Scope

/-- The variables of a process after it has read a file. -/
def load (env : Env) (text : String) : Env := (Scope.followAll (lines text) ⟨env, []⟩).process

end EnvFile

namespace Config

/-- The configuration that the variables of a process give, after those of a file if there is one. -/
def ofEnv (env : EnvFile.Env) (file : Option String) : Except VariableFault Config :=
  let env := match file with
    | none => env
    | some text => EnvFile.load env text
  (ofLookup (EnvFile.fetch? env)).2

end Config

end Allotment
