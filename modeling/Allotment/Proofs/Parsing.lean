import Allotment.Json.Printer
import Allotment.Json.Reader

/-!
# Written JSON is read back

The compact form of a value, with anything that can follow it, is read as the value
(`follow?_chars`), so every value is read back from its compact form (`parse?_compact`). This holds
of numbers and strings that stand for no natural number and no text as well.
-/

namespace Allotment.Json

/-- The end of a text, or a mark that ends whatever stands before it. -/
def Closes (rest : List Char) : Prop := ∀ c ∈ rest.head?, c = ',' ∨ c = ']' ∨ c = '\x7d'

theorem closes_nil : Closes [] := by simp [Closes]

theorem closes_comma (s : List Char) : Closes (',' :: s) := by simp [Closes]

theorem closes_bracket (s : List Char) : Closes (']' :: s) := by simp [Closes]

theorem closes_brace (s : List Char) : Closes ('\x7d' :: s) := by simp [Closes]

/-! ### Numbers -/

theorem Closes.digits {rest : List Char} (closes : Closes rest) : digits rest = ([], rest) := by
  cases rest with
  | nil => rfl
  | cons c rest =>
    have other : c.isDigit = false := by
      obtain rfl | rfl | rfl := closes c rfl <;> decide
    simp [Json.digits, other]

theorem Closes.fraction? {rest : List Char} (closes : Closes rest) :
    fraction? rest = some (false, rest) := by
  unfold Json.fraction?
  split
  · obtain e | e | e := closes '.' rfl <;> cases e
  · rfl

theorem Closes.exponent? {rest : List Char} (closes : Closes rest) :
    exponent? rest = some (false, rest) := by
  unfold Json.exponent?
  split
  · obtain e | e | e := closes 'e' rfl <;> cases e
  · obtain e | e | e := closes 'E' rfl <;> cases e
  · rfl

theorem isDigit_of_mem_digits {n : Nat} {c : Char} (h : c ∈ Nat.toDigits 10 n) :
    c.isDigit = true := Nat.isDigit_of_mem_toDigits (by decide) (by decide) h

theorem digits_append {ds rest : List Char} (numerals : ∀ c ∈ ds, c.isDigit = true)
    (closes : Closes rest) : digits (ds ++ rest) = (ds, rest) := by
  have none := closes.digits
  simp only [digits, Prod.mk.injEq] at none
  rw [digits, List.takeWhile_append_of_pos numerals, List.dropWhile_append_of_pos numerals, none.1,
    none.2, List.append_nil]

theorem natOf_toDigits (n : Nat) : natOf (Nat.toDigits 10 n) = n := by
  have read := Nat.ofDigitChars_toDigits (b := 10) (n := n) (by decide) (by decide)
  simpa only [natOf, Nat.ofDigitChars, Nat.mul_comm] using read

theorem head_toDigits {n : Nat} (pos : 0 < n) :
    ∃ c ds, Nat.toDigits 10 n = c :: ds ∧ c ≠ '0' := by
  induction n using Nat.strongRecOn with
  | _ n ih =>
    rw [Nat.toDigits_eq_if (by decide)]
    split
    · rename_i small
      refine ⟨_, [], rfl, ?_⟩
      have : ∀ n < 10, 0 < n → Nat.digitChar n ≠ '0' := by decide
      exact this n small pos
    · rename_i large
      obtain ⟨c, ds, same, other⟩ := ih (n / 10) (by omega) (by omega)
      exact ⟨c, _, by rw [same, List.cons_append], other⟩

theorem isWhole_toDigits (n : Nat) : isWhole (Nat.toDigits 10 n) = true := by
  cases n with
  | zero => rfl
  | succ n =>
    obtain ⟨c, ds, same, other⟩ := head_toDigits (Nat.succ_pos n)
    rw [same]
    unfold isWhole
    split
    · contradiction
    · rfl
    · rename_i e
      cases e
      simpa using other

theorem magnitude?_toDigits (n : Nat) {rest : List Char} (closes : Closes rest) :
    magnitude? (Nat.toDigits 10 n ++ rest) = some (some n, rest) := by
  unfold magnitude?
  rw [digits_append (fun _ => isDigit_of_mem_digits) closes, if_pos (isWhole_toDigits n)]
  simp [closes.fraction?, closes.exponent?, natOf_toDigits]

/-- A digit begins a number and nothing else. -/
theorem token?_of_digit {c : Char} (digit : c.isDigit = true) (s : List Char) :
    token? (c :: s) = (magnitude? (c :: s)).map fun (n, rest) => (.num n, rest) := by
  unfold token?
  split
  case h_11 =>
    unfold number?
    split
    · rename_i e
      cases e
      exact absurd digit (by decide)
    · rfl
  all_goals
    rename_i e
    cases e
    exact absurd digit (by decide)

theorem token?_digitsOf (n : Option Nat) {rest : List Char} (closes : Closes rest) :
    token? (digitsOf n ++ rest) = some (.num n, rest) := by
  cases n with
  | none =>
    have one : magnitude? ('1' :: rest) = some (some 1, rest) := magnitude?_toDigits 1 closes
    show (magnitude? ('1' :: rest)).map _ = _
    rw [one]
    rfl
  | some n =>
    obtain ⟨c, ds, same⟩ := List.exists_cons_of_ne_nil (Nat.toDigits_ne_nil (n := n) (b := 10))
    have digit : c.isDigit = true := isDigit_of_mem_digits (n := n) (by simp [same])
    have read := magnitude?_toDigits n closes
    rw [same, List.cons_append] at read
    rw [digitsOf, same, List.cons_append, token?_of_digit digit, read]
    rfl

/-! ### Strings -/

theorem pieces?_letter {e c : Char} (letter : unescape? e = some c) (s : List Char) :
    pieces? ('\\' :: e :: s) = (pieces? s).map fun (ps, rest) => (.char c :: ps, rest) := by
  have other : e ≠ 'u' := by
    rintro rfl
    cases letter
  rw [pieces?.eq_4 e s fun _ _ _ _ _ same => absurd same other, letter]
  cases pieces? s <;> rfl

theorem pieces?_unit {a b c d : Char} {n : Nat} (unit : hexUnit? a b c d = some n)
    (s : List Char) :
    pieces? ('\\' :: 'u' :: a :: b :: c :: d :: s) =
      (pieces? s).map fun (ps, rest) => (.unit n :: ps, rest) := by
  rw [pieces?, unit]
  cases pieces? s <;> rfl

theorem pieces?_plain {c : Char} (visible : ¬ c < ' ') (quote : c ≠ '"') (escape : c ≠ '\\')
    (s : List Char) :
    pieces? (c :: s) = (pieces? s).map fun (ps, rest) => (.char c :: ps, rest) := by
  rw [pieces?.eq_5 c s quote (fun _ _ _ _ _ same => absurd same escape)
    (fun _ _ same => absurd same escape), if_neg (not_or.mpr ⟨visible, escape⟩)]
  cases pieces? s <;> rfl

theorem hexUnit?_control {n : Nat} (control : n < 32) :
    hexUnit? '0' '0' (hexChar (n / 16)) (hexChar n) = some n := by
  have all : ∀ n < 32, hexUnit? '0' '0' (hexChar (n / 16)) (hexChar n) = some n := by decide
  exact all n control

theorem assemble_control {c : Char} (control : c.toNat < 32) (ps : List Piece) :
    assemble (.unit c.toNat :: ps) = (assemble ps).map (c :: ·) := by
  have high : isHigh c.toNat = false := by simp [isHigh]; omega
  have low : isLow c.toNat = false := by simp [isLow]; omega
  rw [assemble.eq_def]
  split <;> rename_i same <;> cases same
  · simp [high, low]
  · simp [high, low]

/-- A written character is read as one piece, which stands for it. -/
theorem read_escape (c : Char) :
    ∃ p, (∀ ps, assemble (p :: ps) = (assemble ps).map (c :: ·)) ∧
      ∀ s, pieces? (escape c ++ s) = (pieces? s).map fun (ps, rest) => (p :: ps, rest) := by
  unfold escape
  iterate 7
    split
    · subst_vars
      exact ⟨.char _, fun _ => rfl, pieces?_letter rfl⟩
  split
  · rename_i control
    exact ⟨.unit c.toNat, assemble_control control, pieces?_unit (hexUnit?_control control)⟩
  · rename_i quote escape _ _ _ _ _ visible
    exact ⟨.char c, fun _ => rfl, pieces?_plain visible quote escape⟩

theorem pieces?_quoted (cs rest : List Char) :
    ∃ ps, pieces? (cs.flatMap escape ++ '"' :: rest) = some (ps, rest) ∧
      assemble ps = some cs := by
  induction cs with
  | nil => exact ⟨[], by simp [pieces?], rfl⟩
  | cons c cs ih =>
    obtain ⟨ps, pieces, assembled⟩ := ih
    obtain ⟨p, stands, read⟩ := read_escape c
    refine ⟨p :: ps, ?_, by rw [stands, assembled]; rfl⟩
    rw [List.flatMap_cons, List.append_assoc, read, pieces]
    rfl

theorem token?_quote (s : Option String) (rest : List Char) :
    token? (quote s ++ rest) = some (.str s, rest) := by
  cases s with
  | none => rfl
  | some s =>
    obtain ⟨ps, pieces, assembled⟩ := pieces?_quoted s.toList rest
    show string? ((s.toList.flatMap escape ++ ['"']) ++ rest) = _
    rw [List.append_assoc, string?]
    show (pieces? (s.toList.flatMap escape ++ '"' :: rest)).map _ = _
    simp [pieces, assembled]

/-! ### Tokens -/

theorem token?_blank {c : Char} (blank : isSpace c = true) (s : List Char) :
    token? (c :: s) = none := by
  simp only [isSpace, Bool.or_eq_true, beq_iff_eq] at blank
  obtain ((rfl | rfl) | rfl) | rfl := blank <;> rfl

theorem tokens?_of_token {s rest : List Char} {t : Token} (first : token? s = some (t, rest)) :
    tokens? s = (tokens? rest).map (t :: ·) := by
  cases s with
  | nil => cases first
  | cons c s =>
    rw [tokens?]
    split
    · rename_i blank
      rw [token?_blank blank] at first
      cases first
    · split <;> rename_i next
      · rw [first] at next
        cases next
      · rw [first] at next
        cases next
        rfl

namespace Progress

/-- What a text leads to. -/
def follow? (p : Progress) (s : List Char) : Option Progress :=
  (tokens? s).bind (·.foldlM step p)

theorem follow?_token {p q : Progress} {s rest : List Char} {t : Token}
    (first : token? s = some (t, rest)) (next : p.step t = some q) :
    p.follow? s = q.follow? rest := by
  unfold follow?
  rw [tokens?_of_token first]
  cases tokens? rest with
  | none => rfl
  | some ts => simp [next]

/-- What is expected is a value; it will be part of what the frames have open. -/
def Expects (goal : Goal) (fs gs : List Frame) : Prop :=
  ∀ t, t ≠ .closeArr → (reading goal fs).step t = value? gs t

theorem expects_value (fs : List Frame) : Expects .value fs fs := fun t _ => by cases t <;> rfl

theorem expects_firstItem (fs : List Frame) : Expects .firstItem fs (.arr [] :: fs) :=
  fun t other => by cases t <;> first | rfl | exact absurd rfl other

theorem closes_items (vs : List Json) (rest : List Char) :
    Closes (charsOfItems vs ++ ']' :: rest) := by
  cases vs with
  | nil => exact closes_bracket rest
  | cons v vs =>
    rw [charsOfItems, List.cons_append]
    exact closes_comma _

theorem closes_members (ms : List (Option String × Json)) (rest : List Char) :
    Closes (charsOfMembers ms ++ '\x7d' :: rest) := by
  match ms with
  | [] => exact closes_brace rest
  | (k, v) :: ms =>
    rw [charsOfMembers]
    exact closes_comma _

mutual

/-- A written value is read as this value. -/
theorem follow?_chars {goal : Goal} {fs gs : List Frame} {rest : List Char} (j : Json)
    (expects : Expects goal fs gs) (closes : Closes rest) :
    (reading goal fs).follow? (j.chars ++ rest) = (deliver j gs).follow? rest := by
  match j with
  | null => exact follow?_token (t := .null) rfl (expects _ (by simp))
  | bool true => exact follow?_token (t := .bool true) rfl (expects _ (by simp))
  | bool false => exact follow?_token (t := .bool false) rfl (expects _ (by simp))
  | num n => exact follow?_token (token?_digitsOf n closes) (expects _ (by simp))
  | str s => exact follow?_token (token?_quote s rest) (expects _ (by simp))
  | arr [] =>
    refine (follow?_token (t := .openArr) rfl (expects _ (by simp))).trans ?_
    exact follow?_token (t := .closeArr) rfl rfl
  | arr (v :: vs) =>
    have written : (arr (v :: vs)).chars ++ rest =
        '[' :: (v.chars ++ (charsOfItems vs ++ ']' :: rest)) := by simp [chars]
    rw [written]
    refine (follow?_token (t := .openArr) rfl (expects _ (by simp))).trans ?_
    rw [follow?_chars v (expects_firstItem gs) (closes_items vs rest)]
    exact follow?_items vs [v] gs rest
  | obj [] =>
    refine (follow?_token (t := .openObj) rfl (expects _ (by simp))).trans ?_
    exact follow?_token (t := .closeObj) rfl rfl
  | obj ((k, v) :: ms) =>
    have written : (obj ((k, v) :: ms)).chars ++ rest =
        '\x7b' :: (quote k ++ ':' :: (v.chars ++ (charsOfMembers ms ++ '\x7d' :: rest))) := by
      simp [chars]
    rw [written]
    refine (follow?_token (t := .openObj) rfl (expects _ (by simp))).trans ?_
    refine (follow?_token (token?_quote k _) rfl).trans ?_
    refine (follow?_token (t := .colon) rfl rfl).trans ?_
    rw [follow?_chars v (expects_value _) (closes_members ms rest)]
    exact follow?_members ms [(k, v)] gs rest

theorem follow?_items (vs items : List Json) (fs : List Frame) (rest : List Char) :
    (reading (.afterItem items) fs).follow? (charsOfItems vs ++ ']' :: rest) =
      (deliver (.arr (items.reverse ++ vs)) fs).follow? rest := by
  match vs with
  | [] =>
    rw [List.append_nil]
    exact follow?_token (t := .closeArr) rfl rfl
  | v :: vs =>
    have written : charsOfItems (v :: vs) ++ ']' :: rest =
        ',' :: (v.chars ++ (charsOfItems vs ++ ']' :: rest)) := by simp [charsOfItems]
    rw [written]
    refine (follow?_token (t := .comma) rfl rfl).trans ?_
    rw [follow?_chars v (expects_value _) (closes_items vs rest)]
    refine (follow?_items vs (v :: items) fs rest).trans ?_
    rw [List.reverse_cons, List.append_assoc]
    rfl

theorem follow?_members (ms members : List (Option String × Json)) (fs : List Frame)
    (rest : List Char) :
    (reading (.afterMember members) fs).follow? (charsOfMembers ms ++ '\x7d' :: rest) =
      (deliver (.obj (members.reverse ++ ms)) fs).follow? rest := by
  match ms with
  | [] =>
    rw [List.append_nil]
    exact follow?_token (t := .closeObj) rfl rfl
  | (k, v) :: ms =>
    have written : charsOfMembers ((k, v) :: ms) ++ '\x7d' :: rest =
        ',' :: (quote k ++ ':' :: (v.chars ++ (charsOfMembers ms ++ '\x7d' :: rest))) := by
      simp [charsOfMembers]
    rw [written]
    refine (follow?_token (t := .comma) rfl rfl).trans ?_
    refine (follow?_token (token?_quote k _) rfl).trans ?_
    refine (follow?_token (t := .colon) rfl rfl).trans ?_
    rw [follow?_chars v (expects_value _) (closes_members ms rest)]
    refine (follow?_members ms ((k, v) :: members) fs rest).trans ?_
    rw [List.reverse_cons, List.append_assoc]
    rfl

end

end Progress

/-- What is written is read back. -/
theorem parse?_compact (j : Json) : parse? j.compact = some j := by
  have read := Progress.follow?_chars j (Progress.expects_value []) closes_nil
  rw [List.append_nil] at read
  have ended : (Progress.deliver j []).follow? [] = some (.finished j) := by
    simp [Progress.follow?, tokens?, Progress.deliver]
  rw [ended] at read
  obtain ⟨ts, tokens, steps⟩ := Option.bind_eq_some_iff.mp read
  rw [parse?, compact, String.toList_ofList, tokens, Option.bind_some, ofTokens?]
  show (List.foldlM Progress.step (Progress.reading .value []) ts).bind _ = _
  rw [steps]
  rfl

/-! ### Members -/

section
variable {ms : List (String × Json)}

/-- Where no name stands twice, a member is found by its name. -/
theorem member?_object (once : (ms.map (·.1)).Nodup) (name : String) :
    member? (ms.map fun m => (some m.1, m.2)) name = some (ms.lookup name) := by
  induction ms with
  | nil => rfl
  | cons m ms ih =>
    obtain ⟨k, v⟩ := m
    obtain ⟨fresh, once⟩ := List.nodup_cons.mp once
    by_cases same : name = k
    · subst same
      have others : (ms.map fun m => (some m.1, m.2)).filter (·.1 == some name) = [] := by
        refine List.filter_eq_nil_iff.mpr fun p hp => ?_
        obtain ⟨m, hm, rfl⟩ := List.mem_map.mp hp
        have other : m.1 ≠ name := fun e => fresh (List.mem_map.mpr ⟨m, hm, e⟩)
        simpa using other
      simp [member?, others]
    · have skipped : (some k == some name) = false := by simpa using Ne.symm same
      have looked := ih once
      rw [member?] at looked ⊢
      rw [List.map_cons, List.filter_cons_of_neg (by simp [skipped]), looked, List.lookup_cons,
        beq_false_of_ne same]

theorem fieldsOfMembers?_object (once : (ms.map (·.1)).Nodup) (names : List String) :
    fieldsOfMembers? names (ms.map fun m => (some m.1, m.2)) =
      some (names.map (List.lookup · ms)) := by
  have whole : hasBrokenKey (ms.map fun m => (some m.1, m.2)) = false := by
    simp [hasBrokenKey]
  rw [fieldsOfMembers?, whole, if_neg Bool.false_ne_true]
  induction names with
  | nil => rfl
  | cons name names ih =>
    rw [List.mapM_cons, member?_object once, ih]
    rfl

theorem fields?_object (once : (ms.map (·.1)).Nodup) (names : List String) :
    (object ms).fields? names = some (names.map (List.lookup · ms)) :=
  fieldsOfMembers?_object once names

theorem leadingFields?_object (once : (ms.map (·.1)).Nodup) (names : List String) :
    (object ms).leadingFields? names = some (names.map (List.lookup · ms)) :=
  fieldsOfMembers?_object once names

end

theorem asWord?_nat (n : UInt64) : (nat n.toNat).asWord? = some n := by
  simp [nat, asWord?, asNat?, n.toNat_lt]

theorem mapM_map {α β : Type} {read : β → Option α} {write : α → β}
    (back : ∀ x, read (write x) = some x) (xs : List α) : (xs.map write).mapM read = some xs := by
  induction xs with
  | nil => rfl
  | cons x xs ih =>
    rw [List.map_cons, List.mapM_cons, back, ih]
    rfl

end Allotment.Json
