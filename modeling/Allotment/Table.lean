import Allotment.Error
import Allotment.ResourceSet

/-!
# The reservation table

Which client holds which resource. A table is a finite partial map from resources to clients,
listed in the order of the resources; `Table.holder` is the map itself and `Table.ext` says that it
is all there is to a table. `Reservations` is the same at work, with entries that come and stay.
-/

namespace Allotment

structure Entry where
  holder : Option ClientId := none
deriving DecidableEq

namespace Entry

def isFree (e : Entry) : Bool := e.holder.isNone

/-- Free, or held by `c` already. -/
def isAvailableFor (e : Entry) (c : ClientId) : Bool := e.holder.all (· == c)

end Entry

structure Table where
  entries : List (ResourceId × ClientId)
  ascending : entries.Pairwise (·.1 < ·.1)
deriving DecidableEq

namespace Table

def empty : Table := ⟨[], .nil⟩

instance : EmptyCollection Table := ⟨empty⟩
instance : Inhabited Table := ⟨empty⟩

def holder (t : Table) (r : ResourceId) : Option ClientId :=
  (t.entries.find? (·.1 == r)).map (·.2)

def entry (t : Table) (r : ResourceId) : Entry := ⟨t.holder r⟩

@[simp] theorem holder_empty (r : ResourceId) : (∅ : Table).holder r = none := rfl

/-! ### A table is its holders -/

theorem find?_eq_some_iff_mem {l : List (ResourceId × ClientId)} (h : l.Pairwise (·.1 < ·.1))
    {r : ResourceId} {c : ClientId} :
    (l.find? (·.1 == r)).map (·.2) = some c ↔ (r, c) ∈ l := by
  induction l with
  | nil => simp
  | cons x xs ih =>
    obtain ⟨hx, hxs⟩ := List.pairwise_cons.1 h
    obtain ⟨a, d⟩ := x
    by_cases e : a = r
    · subst e
      simp only [List.find?_cons, beq_self_eq_true, Option.map_some, Option.some.injEq,
        List.mem_cons, Prod.mk.injEq, true_and]
      refine ⟨fun h => .inl h.symm, ?_⟩
      rintro (h | h)
      · exact h.symm
      · exact absurd (hx _ h) (ResourceId.lt_irrefl a)
    · have : (a == r) = false := beq_false_of_ne e
      simp only [List.find?_cons, this, ih hxs, List.mem_cons, Prod.mk.injEq]
      exact ⟨.inr, fun h => h.resolve_left fun h => e h.1.symm⟩

theorem holder_eq_some_iff {t : Table} {r : ResourceId} {c : ClientId} :
    t.holder r = some c ↔ (r, c) ∈ t.entries := find?_eq_some_iff_mem t.ascending

theorem entries_eq_of_mem_iff : ∀ {l m : List (ResourceId × ClientId)},
    l.Pairwise (·.1 < ·.1) → m.Pairwise (·.1 < ·.1) → (∀ x, x ∈ l ↔ x ∈ m) → l = m
  | [], [], _, _, _ => rfl
  | [], b :: m, _, _, h => absurd ((h b).2 (by simp)) (by simp)
  | a :: l, [], _, _, h => absurd ((h a).1 (by simp)) (by simp)
  | a :: l, b :: m, hl, hm, h => by
    obtain ⟨al, tl⟩ := List.pairwise_cons.1 hl
    obtain ⟨bm, tm⟩ := List.pairwise_cons.1 hm
    have hab : a = b := by
      rcases List.mem_cons.1 ((h a).1 (by simp)) with e | ha
      · exact e
      · rcases List.mem_cons.1 ((h b).2 (by simp)) with e | hb
        · exact e.symm
        · exact absurd (bm a ha) (ResourceId.lt_asymm (al b hb))
    subst hab
    congr 1
    refine entries_eq_of_mem_iff tl tm fun x => ⟨fun hx => ?_, fun hx => ?_⟩
    · rcases List.mem_cons.1 ((h x).1 (List.mem_cons_of_mem _ hx)) with e | hx'
      · exact absurd (al x hx) (e ▸ ResourceId.lt_irrefl _)
      · exact hx'
    · rcases List.mem_cons.1 ((h x).2 (List.mem_cons_of_mem _ hx)) with e | hx'
      · exact absurd (bm x hx) (e ▸ ResourceId.lt_irrefl _)
      · exact hx'

@[ext] theorem ext {t u : Table} (h : ∀ r, t.holder r = u.holder r) : t = u := by
  have key : ∀ x, x ∈ t.entries ↔ x ∈ u.entries := fun ⟨r, c⟩ => by
    rw [← holder_eq_some_iff, ← holder_eq_some_iff, h]
  cases t; cases u
  congr
  exact entries_eq_of_mem_iff (by assumption) (by assumption) key

theorem keys_nodup (t : Table) : (t.entries.map (·.1)).Nodup := by
  rw [List.Nodup, List.pairwise_map]
  apply t.ascending.imp
  intro x y before same
  exact ResourceId.ne_of_lt before same

/-! ### Recording holders -/

/-- Writes `c` down as the holder of `r` in an ascending list. -/
def writeInto (r : ResourceId) (c : ClientId) :
    List (ResourceId × ClientId) → List (ResourceId × ClientId)
  | [] => [(r, c)]
  | x :: xs =>
    if r < x.1 then (r, c) :: x :: xs
    else if x.1 < r then x :: writeInto r c xs
    else (r, c) :: xs

theorem mem_writeInto {r : ResourceId} {c : ClientId} {l : List (ResourceId × ClientId)}
    (h : l.Pairwise (·.1 < ·.1)) {x : ResourceId × ClientId} :
    x ∈ writeInto r c l ↔ x = (r, c) ∨ x ∈ l ∧ x.1 ≠ r := by
  induction l with
  | nil => simp [writeInto]
  | cons y ys ih =>
    obtain ⟨hy, hys⟩ := List.pairwise_cons.1 h
    by_cases k : r < y.1
    · simp only [writeInto, k, if_true, List.mem_cons]
      have hne : ∀ z, z = y ∨ z ∈ ys → z.1 ≠ r := by
        rintro z (rfl | hz)
        · exact (ResourceId.ne_of_lt k).symm
        · exact (ResourceId.ne_of_lt (ResourceId.lt_trans k (hy z hz))).symm
      exact ⟨fun h => h.imp_right fun h => ⟨h, hne _ h⟩, fun h => h.imp_right And.left⟩
    · by_cases k' : y.1 < r
      · simp only [writeInto, k, k', if_true, if_false, List.mem_cons, ih hys]
        constructor
        · rintro (rfl | rfl | ⟨hx, hn⟩)
          · exact .inr ⟨.inl rfl, ResourceId.ne_of_lt k'⟩
          · exact .inl rfl
          · exact .inr ⟨.inr hx, hn⟩
        · rintro (rfl | ⟨rfl | hx, hn⟩)
          · exact .inr (.inl rfl)
          · exact .inl rfl
          · exact .inr (.inr ⟨hx, hn⟩)
      · obtain e := ResourceId.eq_of_not_lt k k'
        simp only [writeInto, k, k', if_false, List.mem_cons]
        have hne : ∀ z ∈ ys, z.1 ≠ r := fun z hz => e ▸ (ResourceId.ne_of_lt (hy z hz)).symm
        constructor
        · exact fun h => h.imp_right fun h => ⟨.inr h, hne _ h⟩
        · rintro (h | ⟨rfl | hx, hn⟩)
          · exact .inl h
          · exact absurd e.symm hn
          · exact .inr hx

theorem writeInto_ascending (r : ResourceId) (c : ClientId) {l : List (ResourceId × ClientId)}
    (h : l.Pairwise (·.1 < ·.1)) : (writeInto r c l).Pairwise (·.1 < ·.1) := by
  induction l with
  | nil => simp [writeInto]
  | cons y ys ih =>
    obtain ⟨hy, hys⟩ := List.pairwise_cons.1 h
    by_cases k : r < y.1
    · simp only [writeInto, k, if_true]
      refine List.pairwise_cons.2 ⟨fun z hz => ?_, h⟩
      rcases List.mem_cons.1 hz with rfl | hz
      · exact k
      · exact ResourceId.lt_trans k (hy z hz)
    · by_cases k' : y.1 < r
      · simp only [writeInto, k, k', if_true, if_false]
        refine List.pairwise_cons.2 ⟨fun z hz => ?_, ih hys⟩
        rcases (mem_writeInto hys).1 hz with rfl | ⟨hz, -⟩
        · exact k'
        · exact hy z hz
      · obtain e := ResourceId.eq_of_not_lt k k'
        simp only [writeInto, k, k', if_false]
        exact List.pairwise_cons.2 ⟨fun z hz => e ▸ hy z hz, hys⟩

def write (t : Table) (r : ResourceId) (c : ClientId) : Table :=
  ⟨writeInto r c t.entries, writeInto_ascending r c t.ascending⟩

theorem holder_write (t : Table) (r : ResourceId) (c : ClientId) (a : ResourceId) :
    (t.write r c).holder a = if a = r then some c else t.holder a := by
  apply Option.ext
  intro d
  rw [holder_eq_some_iff]
  show (a, d) ∈ writeInto r c t.entries ↔ _
  rw [mem_writeInto t.ascending, ← holder_eq_some_iff]
  by_cases e : a = r
  · simp [e, eq_comm]
  · simp [e]

/-- A table of the given holders, the later of two for one resource. -/
def ofList (l : List (ResourceId × ClientId)) : Table := l.foldl (fun t x => t.write x.1 x.2) ∅

/-- Writing down holders of different resources: each of these gets its own, the others keep
theirs. -/
theorem holder_foldl_write {l : List (ResourceId × ClientId)} (distinct : (l.map (·.1)).Nodup)
    (t : Table) {r : ResourceId} {c : ClientId} :
    (l.foldl (fun t x => t.write x.1 x.2) t).holder r = some c ↔
      (r, c) ∈ l ∨ r ∉ l.map (·.1) ∧ t.holder r = some c := by
  induction l generalizing t with
  | nil => simp
  | cons x xs ih =>
    obtain ⟨a, d⟩ := x
    obtain ⟨new, later⟩ := List.nodup_cons.1 distinct
    rw [List.foldl_cons, ih later, holder_write]
    by_cases same : r = a
    · subst same
      have absent : (r, c) ∉ xs := fun member => new (List.mem_map.2 ⟨_, member, rfl⟩)
      simp [absent, new, eq_comm (a := c)]
    · simp [same]

theorem holder_ofList {l : List (ResourceId × ClientId)} (distinct : (l.map (·.1)).Nodup)
    {r : ResourceId} {c : ClientId} : (ofList l).holder r = some c ↔ (r, c) ∈ l := by
  simp [ofList, holder_foldl_write distinct]

/-! ### Allocating -/

def isAvailableFor (t : Table) (rs : ResourceSet) (c : ClientId) : Bool :=
  rs.all fun r => (t.entry r).isAvailableFor c

theorem isAvailableFor_iff {t : Table} {rs : ResourceSet} {c : ClientId} :
    t.isAvailableFor rs c = true ↔ ∀ r ∈ rs, t.holder r = none ∨ t.holder r = some c := by
  rw [isAvailableFor, ResourceSet.all_iff]
  refine forall_congr' fun r => imp_congr_right fun _ => ?_
  cases h : t.holder r <;> simp [entry, Entry.isAvailableFor, h]

/-- Gives `r` to `c` unless somebody else holds it; a second time changes nothing. -/
def allocate (t : Table) (r : ResourceId) (c : ClientId) : Except SchedulerError Table :=
  match t.holder r with
  | none => .ok (t.write r c)
  | some d => if d = c then .ok t else .error (.alreadyHeld r d)

/-- Gives the resources to `c` one after the other, up to the first that somebody else holds. -/
def allocateAll (t : Table) (c : ClientId) : List ResourceId → Except SchedulerError Table
  | [] => .ok t
  | r :: rs =>
    match t.allocate r c with
    | .ok u => u.allocateAll c rs
    | .error e => .error e

theorem holder_allocate {t u : Table} {r : ResourceId} {c : ClientId} (h : t.allocate r c = .ok u)
    (a : ResourceId) : u.holder a = if a = r then some c else t.holder a := by
  unfold allocate at h
  split at h
  · cases h
    exact holder_write t r c a
  · rename_i d hd
    split at h
    · rename_i e
      cases h
      by_cases k : a = r
      · rw [if_pos k, k, hd, e]
      · rw [if_neg k]
    · cases h

theorem allocate_of_available {t : Table} {r : ResourceId} {c : ClientId}
    (h : t.holder r = none ∨ t.holder r = some c) : ∃ u, t.allocate r c = .ok u := by
  rcases h with h | h <;> simp [allocate, h]

theorem holder_allocateAll {c : ClientId} {rs : List ResourceId} {t u : Table}
    (h : t.allocateAll c rs = .ok u) (a : ResourceId) :
    u.holder a = if a ∈ rs then some c else t.holder a := by
  induction rs generalizing t with
  | nil =>
    cases h
    simp
  | cons r rs ih =>
    unfold allocateAll at h
    split at h
    · rename_i v hv
      rw [ih h, holder_allocate hv]
      by_cases k : a ∈ rs
      · simp [k]
      · by_cases k' : a = r <;> simp [k, k']
    · cases h

theorem allocateAll_of_available {c : ClientId} {rs : List ResourceId} {t : Table}
    (h : ∀ r ∈ rs, t.holder r = none ∨ t.holder r = some c) :
    ∃ u, t.allocateAll c rs = .ok u := by
  induction rs generalizing t with
  | nil => exact ⟨t, rfl⟩
  | cons r rs ih =>
    obtain ⟨u, hu⟩ := allocate_of_available (h r (by simp))
    rw [allocateAll, hu]
    refine ih fun a ha => ?_
    rw [holder_allocate hu]
    by_cases k : a = r
    · simp [k]
    · simpa [k] using h a (List.mem_cons_of_mem _ ha)

/-! ### Freeing -/

def heldOf (t : Table) (c : ClientId) (rs : ResourceSet) : ResourceSet :=
  rs.filter fun r => t.holder r == some c

@[simp] theorem mem_heldOf {t : Table} {c : ClientId} {rs : ResourceSet} {r : ResourceId} :
    r ∈ t.heldOf c rs ↔ r ∈ rs ∧ t.holder r = some c := by
  simp [heldOf]

/-- The table in which nobody holds a resource of the set. -/
def clear (t : Table) (rs : ResourceSet) : Table :=
  ⟨t.entries.filter fun x => !decide (x.1 ∈ rs), t.ascending.filter _⟩

theorem holder_clear (t : Table) (rs : ResourceSet) (a : ResourceId) :
    (t.clear rs).holder a = if a ∈ rs then none else t.holder a := by
  apply Option.ext
  intro d
  rw [holder_eq_some_iff]
  show (a, d) ∈ t.entries.filter _ ↔ _
  rw [List.mem_filter, ← holder_eq_some_iff]
  by_cases e : a ∈ rs <;> simp [e]

/-- Takes the resources of the set that `c` holds from it, and says which these were. -/
def free (t : Table) (c : ClientId) (rs : ResourceSet) : ResourceSet × Table :=
  (t.heldOf c rs, t.clear (t.heldOf c rs))

theorem holder_free (t : Table) (c : ClientId) (rs : ResourceSet) (a : ResourceId) :
    (t.free c rs).2.holder a =
      if a ∈ rs ∧ t.holder a = some c then none else t.holder a := by
  simp [free, holder_clear]

def allocationsOf (t : Table) (c : ClientId) : ResourceSet :=
  .ofList ((t.entries.filter (·.2 == c)).map (·.1))

@[simp] theorem mem_allocationsOf {t : Table} {c : ClientId} {r : ResourceId} :
    r ∈ t.allocationsOf c ↔ t.holder r = some c := by
  simp [allocationsOf, holder_eq_some_iff]

def freeAll (t : Table) (c : ClientId) : ResourceSet × Table := t.free c (t.allocationsOf c)

end Table

end Allotment
