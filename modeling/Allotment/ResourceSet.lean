import Allotment.Ident

/-!
# Finite sets of resources

A set is its strictly ascending list of members, so sets with the same members are equal
(`ResourceSet.ext`). Each operation is described by what is in its result.
-/

namespace Allotment

/-- A finite set of resources, listed in strictly ascending order. -/
structure ResourceSet where
  toList : List ResourceId
  ascending : toList.Pairwise (· < ·)
deriving DecidableEq

namespace ResourceSet

instance : Membership ResourceId ResourceSet := ⟨fun s r => r ∈ s.toList⟩

instance (r : ResourceId) (s : ResourceSet) : Decidable (r ∈ s) :=
  inferInstanceAs (Decidable (r ∈ s.toList))

theorem mem_toList {r : ResourceId} {s : ResourceSet} : r ∈ s.toList ↔ r ∈ s := Iff.rfl

/-! ### Equality of sets -/

theorem head_eq_of_ascending {a b : ResourceId} {l m : List ResourceId}
    (hl : (a :: l).Pairwise (· < ·)) (hm : (b :: m).Pairwise (· < ·))
    (h : ∀ r, r ∈ a :: l ↔ r ∈ b :: m) : a = b := by
  have ha := (h a).1 (by simp)
  have hb := (h b).2 (by simp)
  rcases List.mem_cons.1 ha with e | ha
  · exact e
  · rcases List.mem_cons.1 hb with e | hb
    · exact e.symm
    · exact absurd ((List.pairwise_cons.1 hm).1 a ha)
        (ResourceId.lt_asymm ((List.pairwise_cons.1 hl).1 b hb))

theorem eq_of_ascending : ∀ {l m : List ResourceId}, l.Pairwise (· < ·) → m.Pairwise (· < ·) →
    (∀ r, r ∈ l ↔ r ∈ m) → l = m
  | [], [], _, _, _ => rfl
  | [], b :: m, _, _, h => absurd ((h b).2 (by simp)) (by simp)
  | a :: l, [], _, _, h => absurd ((h a).1 (by simp)) (by simp)
  | a :: l, b :: m, hl, hm, h => by
    obtain rfl := head_eq_of_ascending hl hm h
    congr 1
    obtain ⟨al, hl⟩ := List.pairwise_cons.1 hl
    obtain ⟨am, hm⟩ := List.pairwise_cons.1 hm
    refine eq_of_ascending hl hm fun r => ⟨fun hr => ?_, fun hr => ?_⟩
    · rcases List.mem_cons.1 ((h r).1 (List.mem_cons_of_mem _ hr)) with e | hr'
      · exact absurd (al r hr) (e ▸ ResourceId.lt_irrefl _)
      · exact hr'
    · rcases List.mem_cons.1 ((h r).2 (List.mem_cons_of_mem _ hr)) with e | hr'
      · exact absurd (am r hr) (e ▸ ResourceId.lt_irrefl _)
      · exact hr'

@[ext] theorem ext {s t : ResourceSet} (h : ∀ r, r ∈ s ↔ r ∈ t) : s = t := by
  cases s; cases t
  congr
  exact eq_of_ascending (by assumption) (by assumption) h

/-! ### Building sets -/

def empty : ResourceSet := ⟨[], .nil⟩

instance : EmptyCollection ResourceSet := ⟨empty⟩
instance : Inhabited ResourceSet := ⟨empty⟩

@[simp] theorem not_mem_empty (r : ResourceId) : r ∉ (∅ : ResourceSet) := List.not_mem_nil

/-- Puts `r` at its place in an ascending list that may hold it already. -/
def insertInto (r : ResourceId) : List ResourceId → List ResourceId
  | [] => [r]
  | x :: xs => if r < x then r :: x :: xs else if x < r then x :: insertInto r xs else x :: xs

theorem mem_insertInto {r a : ResourceId} {l : List ResourceId} :
    a ∈ insertInto r l ↔ a = r ∨ a ∈ l := by
  induction l with
  | nil => simp [insertInto]
  | cons x xs ih =>
    by_cases h : r < x
    · simp [insertInto, h]
    · by_cases k : x < r
      · simp only [insertInto, h, k, if_true, if_false, List.mem_cons, ih]
        exact or_left_comm
      · obtain rfl := ResourceId.eq_of_not_lt h k
        simp [insertInto, h]

theorem insertInto_ascending (r : ResourceId) {l : List ResourceId} (h : l.Pairwise (· < ·)) :
    (insertInto r l).Pairwise (· < ·) := by
  induction l with
  | nil => simp [insertInto]
  | cons x xs ih =>
    obtain ⟨hx, hxs⟩ := List.pairwise_cons.1 h
    by_cases k : r < x
    · simp only [insertInto, k, if_true]
      refine List.pairwise_cons.2 ⟨fun a ha => ?_, h⟩
      rcases List.mem_cons.1 ha with rfl | ha
      · exact k
      · exact ResourceId.lt_trans k (hx a ha)
    · by_cases k' : x < r
      · simp only [insertInto, k, k', if_true, if_false]
        refine List.pairwise_cons.2 ⟨fun a ha => ?_, ih hxs⟩
        rcases mem_insertInto.1 ha with rfl | ha
        · exact k'
        · exact hx a ha
      · simpa [insertInto, k, k'] using h

def insert (r : ResourceId) (s : ResourceSet) : ResourceSet :=
  ⟨insertInto r s.toList, insertInto_ascending r s.ascending⟩

@[simp] theorem mem_insert {r a : ResourceId} {s : ResourceSet} :
    a ∈ s.insert r ↔ a = r ∨ a ∈ s := mem_insertInto

/-- The set of the members of a list, in whatever order and however often they stand there. -/
def ofList (l : List ResourceId) : ResourceSet := l.foldr insert ∅

@[simp] theorem mem_ofList {a : ResourceId} {l : List ResourceId} : a ∈ ofList l ↔ a ∈ l := by
  induction l with
  | nil => simp [ofList]
  | cons x xs ih => rw [ofList, List.foldr_cons, mem_insert, ← ofList, ih, List.mem_cons]

def filter (p : ResourceId → Bool) (s : ResourceSet) : ResourceSet :=
  ⟨s.toList.filter p, s.ascending.filter p⟩

@[simp] theorem mem_filter {p : ResourceId → Bool} {a : ResourceId} {s : ResourceSet} :
    a ∈ s.filter p ↔ a ∈ s ∧ p a = true := List.mem_filter

/-! ### Combining sets -/

instance : Union ResourceSet := ⟨fun s t => t.toList.foldr insert s⟩

@[simp] theorem mem_union {a : ResourceId} {s t : ResourceSet} : a ∈ s ∪ t ↔ a ∈ s ∨ a ∈ t := by
  show a ∈ t.toList.foldr insert s ↔ a ∈ s ∨ a ∈ t.toList
  induction t.toList with
  | nil => simp
  | cons x xs ih =>
    rw [List.foldr_cons, mem_insert, ih, List.mem_cons]
    exact or_left_comm

instance : Inter ResourceSet := ⟨fun s t => s.filter (fun r => decide (r ∈ t))⟩

@[simp] theorem mem_inter {a : ResourceId} {s t : ResourceSet} : a ∈ s ∩ t ↔ a ∈ s ∧ a ∈ t := by
  show a ∈ s.filter _ ↔ _
  simp

instance : SDiff ResourceSet := ⟨fun s t => s.filter (fun r => !decide (r ∈ t))⟩

@[simp] theorem mem_sdiff {a : ResourceId} {s t : ResourceSet} : a ∈ s \ t ↔ a ∈ s ∧ a ∉ t := by
  show a ∈ s.filter _ ↔ _
  simp

/-! ### Asking about sets -/

def isEmpty (s : ResourceSet) : Bool := s.toList.isEmpty

theorem isEmpty_iff {s : ResourceSet} : s.isEmpty = true ↔ s = ∅ := by
  constructor
  · intro h
    exact ext fun r => ⟨fun hr => absurd (List.isEmpty_iff.1 h ▸ hr : r ∈ []) (by simp),
      fun hr => absurd hr (not_mem_empty r)⟩
  · rintro rfl
    rfl

def size (s : ResourceSet) : Nat := s.toList.length

def all (s : ResourceSet) (p : ResourceId → Bool) : Bool := s.toList.all p

theorem all_iff {s : ResourceSet} {p : ResourceId → Bool} :
    s.all p = true ↔ ∀ r ∈ s, p r = true := List.all_eq_true

def meets (s t : ResourceSet) : Bool := s.toList.any fun r => decide (r ∈ t)

theorem meets_iff {s t : ResourceSet} : s.meets t = true ↔ ∃ r, r ∈ s ∧ r ∈ t := by
  simp [meets, List.any_eq_true, mem_toList]

end ResourceSet

end Allotment
