/-!
# Tokens of JSON

A text is cut into tokens: brackets, commas, colons, words, numbers and strings, with blanks between
them. Numbers and strings are read here, by the rules of RFC 8259.
-/

namespace Allotment.Json

inductive Token
  | openArr
  | closeArr
  | openObj
  | closeObj
  | comma
  | colon
  | null
  | bool (b : Bool)
  | num (n : Option Nat)
  | str (s : Option String)
deriving DecidableEq

/-! ### Strings -/

/-- A piece of a string: a character, or a unit of UTF-16 written with `\u`. -/
inductive Piece
  | char (c : Char)
  | unit (n : Nat)
deriving DecidableEq

def hexDigit? (c : Char) : Option Nat :=
  if '0' ≤ c ∧ c ≤ '9' then some (c.toNat - '0'.toNat)
  else if 'a' ≤ c ∧ c ≤ 'f' then some (c.toNat - 'a'.toNat + 10)
  else if 'A' ≤ c ∧ c ≤ 'F' then some (c.toNat - 'A'.toNat + 10)
  else none

/-- The unit that four hexadecimal digits stand for. -/
def hexUnit? (a b c d : Char) : Option Nat := do
  let a ← hexDigit? a
  let b ← hexDigit? b
  let c ← hexDigit? c
  let d ← hexDigit? d
  return ((a * 16 + b) * 16 + c) * 16 + d

def unescape? : Char → Option Char
  | '"' => some '"'
  | '\\' => some '\\'
  | '/' => some '/'
  | 'b' => some '\x08'
  | 'f' => some '\x0c'
  | 'n' => some '\n'
  | 'r' => some '\r'
  | 't' => some '\t'
  | _ => none

/-- The pieces of a string up to its closing quote, and what follows it. -/
def pieces? : List Char → Option (List Piece × List Char)
  | [] => none
  | '"' :: rest => some ([], rest)
  | '\\' :: 'u' :: a :: b :: c :: d :: rest => do
    let n ← hexUnit? a b c d
    let (ps, rest) ← pieces? rest
    return (.unit n :: ps, rest)
  | '\\' :: e :: rest => do
    let c ← unescape? e
    let (ps, rest) ← pieces? rest
    return (.char c :: ps, rest)
  | c :: rest =>
    if c < ' ' ∨ c = '\\' then none
    else do
      let (ps, rest) ← pieces? rest
      return (.char c :: ps, rest)

def isHigh (n : Nat) : Bool := 0xD800 ≤ n && n ≤ 0xDBFF
def isLow (n : Nat) : Bool := 0xDC00 ≤ n && n ≤ 0xDFFF

def pair (hi lo : Nat) : Char := Char.ofNat (0x10000 + (hi - 0xD800) * 0x400 + (lo - 0xDC00))

/-- The text that pieces make, unless a surrogate stands alone. -/
def assemble : List Piece → Option (List Char)
  | [] => some []
  | .char c :: ps => (assemble ps).map (c :: ·)
  | .unit hi :: .unit lo :: ps =>
    if isHigh hi && isLow lo then (assemble ps).map (pair hi lo :: ·)
    else if isHigh hi || isLow hi then none
    else (assemble (.unit lo :: ps)).map (Char.ofNat hi :: ·)
  | .unit n :: ps => if isHigh n || isLow n then none else (assemble ps).map (Char.ofNat n :: ·)

def string? (s : List Char) : Option (Token × List Char) :=
  (pieces? s).map fun (ps, rest) => (.str ((assemble ps).map String.ofList), rest)

/-! ### Numbers -/

def digits (s : List Char) : List Char × List Char :=
  (s.takeWhile Char.isDigit, s.dropWhile Char.isDigit)

def natOf (ds : List Char) : Nat := ds.foldl (fun n d => n * 10 + (d.toNat - '0'.toNat)) 0

/-- Whether the integer part of a number is well formed: without a leading zero. -/
def isWhole : List Char → Bool
  | [] => false
  | ['0'] => true
  | c :: _ => c != '0'

/-- The rest after a fraction, if one stands there; `true` if so. -/
def fraction? : List Char → Option (Bool × List Char)
  | '.' :: s => if (digits s).1.isEmpty then none else some (true, (digits s).2)
  | s => some (false, s)

def dropSign : List Char → List Char
  | '+' :: s => s
  | '-' :: s => s
  | s => s

/-- The rest after an exponent, if one stands there; `true` if so. -/
def exponent? : List Char → Option (Bool × List Char)
  | 'e' :: s => if (digits (dropSign s)).1.isEmpty then none else some (true, (digits (dropSign s)).2)
  | 'E' :: s => if (digits (dropSign s)).1.isEmpty then none else some (true, (digits (dropSign s)).2)
  | s => some (false, s)

def magnitude? (s : List Char) : Option (Option Nat × List Char) :=
  if isWhole (digits s).1 then do
    let (fractional, t) ← fraction? (digits s).2
    let (scaled, t) ← exponent? t
    return (if fractional || scaled then none else some (natOf (digits s).1), t)
  else none

def number? : List Char → Option (Token × List Char)
  | '-' :: s => (magnitude? s).map fun (_, rest) => (.num none, rest)
  | s => (magnitude? s).map fun (n, rest) => (.num n, rest)

/-! ### All tokens -/

def isSpace (c : Char) : Bool := c == ' ' || c == '\n' || c == '\t' || c == '\r'

/-- The token at the front of a text that does not begin with a blank. -/
def token? : List Char → Option (Token × List Char)
  | '[' :: s => some (.openArr, s)
  | ']' :: s => some (.closeArr, s)
  | '\x7b' :: s => some (.openObj, s)
  | '\x7d' :: s => some (.closeObj, s)
  | ',' :: s => some (.comma, s)
  | ':' :: s => some (.colon, s)
  | 'n' :: 'u' :: 'l' :: 'l' :: s => some (.null, s)
  | 't' :: 'r' :: 'u' :: 'e' :: s => some (.bool true, s)
  | 'f' :: 'a' :: 'l' :: 's' :: 'e' :: s => some (.bool false, s)
  | '"' :: s => string? s
  | s => number? s

/-! ### Tokens use their text up -/

theorem length_pieces? {s : List Char} {ps : List Piece} {rest : List Char}
    (h : pieces? s = some (ps, rest)) : rest.length < s.length := by
  fun_induction pieces? s generalizing ps rest with
  | case1 => cases h
  | case2 => cases h; simp
  | case3 a b c d s ih =>
    simp only [bind, Option.bind_eq_some_iff, pure, Option.some.injEq, Prod.mk.injEq] at h
    obtain ⟨n, -, ⟨qs, r⟩, hq, -, rfl⟩ := h
    have := ih hq
    simp only [List.length_cons]
    omega
  | case4 e s _ ih =>
    simp only [bind, Option.bind_eq_some_iff, pure, Option.some.injEq, Prod.mk.injEq] at h
    obtain ⟨n, -, ⟨qs, r⟩, hq, -, rfl⟩ := h
    have := ih hq
    simp only [List.length_cons]
    omega
  | case5 => cases h
  | case6 c s _ _ _ _ ih =>
    simp only [bind, Option.bind_eq_some_iff, pure, Option.some.injEq, Prod.mk.injEq] at h
    obtain ⟨⟨qs, r⟩, hq, -, rfl⟩ := h
    have := ih hq
    simp only [List.length_cons]
    omega

theorem length_digits (s : List Char) :
    (digits s).1.length + (digits s).2.length = s.length := by
  rw [digits, ← List.length_append, List.takeWhile_append_dropWhile]

theorem length_dropSign (s : List Char) : (dropSign s).length ≤ s.length := by
  unfold dropSign
  split <;> simp

theorem length_fraction? {s rest : List Char} {b : Bool} (h : fraction? s = some (b, rest)) :
    rest.length ≤ s.length := by
  unfold fraction? at h
  split at h
  · rename_i t
    split at h
    · cases h
    · cases h
      have := length_digits t
      simp only [List.length_cons]
      omega
  · cases h
    exact Nat.le_refl _

theorem length_exponent? {s rest : List Char} {b : Bool} (h : exponent? s = some (b, rest)) :
    rest.length ≤ s.length := by
  unfold exponent? at h
  split at h
  · rename_i t
    split at h
    · cases h
    · cases h
      have := length_digits (dropSign t)
      have := length_dropSign t
      simp only [List.length_cons]
      omega
  · rename_i t
    split at h
    · cases h
    · cases h
      have := length_digits (dropSign t)
      have := length_dropSign t
      simp only [List.length_cons]
      omega
  · cases h
    exact Nat.le_refl _

theorem length_magnitude? {s rest : List Char} {n : Option Nat}
    (h : magnitude? s = some (n, rest)) : rest.length < s.length := by
  unfold magnitude? at h
  split at h
  · rename_i hw
    simp only [bind, Option.bind_eq_some_iff, pure, Option.some.injEq, Prod.mk.injEq] at h
    obtain ⟨⟨b, t⟩, ht, ⟨b', u⟩, hu, -, rfl⟩ := h
    have hne : (digits s).1 ≠ [] := by
      intro e
      rw [e] at hw
      cases hw
    have h1 := length_digits s
    have h2 := length_fraction? ht
    have h3 := length_exponent? hu
    have h4 := List.length_pos_iff.2 hne
    dsimp only at *
    omega
  · cases h

theorem length_number? {s rest : List Char} {t : Token} (h : number? s = some (t, rest)) :
    rest.length < s.length := by
  unfold number? at h
  split at h <;> simp only [Option.map_eq_some_iff, Prod.mk.injEq] at h <;>
    obtain ⟨⟨n, r⟩, hr, -, rfl⟩ := h
  · exact Nat.lt_succ_of_lt (length_magnitude? hr)
  · exact length_magnitude? hr

theorem length_token? {s rest : List Char} {t : Token} (h : token? s = some (t, rest)) :
    rest.length < s.length := by
  unfold token? at h
  split at h
  case h_10 =>
    simp only [string?, Option.map_eq_some_iff, Prod.mk.injEq] at h
    obtain ⟨⟨ps, r⟩, hr, -, rfl⟩ := h
    exact Nat.lt_succ_of_lt (length_pieces? hr)
  case h_11 => exact length_number? h
  all_goals
    cases h
    simp only [List.length_cons]
    omega

def tokens? (s : List Char) : Option (List Token) :=
  match s with
  | [] => some []
  | c :: r =>
    if isSpace c then tokens? r
    else
      match _ : token? (c :: r) with
      | none => none
      | some (t, rest) => (tokens? rest).map (t :: ·)
termination_by s.length
decreasing_by
  · exact Nat.lt_succ_self _
  · exact length_token? (by assumption)

end Allotment.Json
