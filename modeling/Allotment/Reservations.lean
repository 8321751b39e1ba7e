import Allotment.Table

/-!
# Reservations

A table at work. An entry is made when a resource is first asked for and is never taken out again:
what has been freed leaves a free entry behind. `Reservations.holders` is the table that shows.
-/

namespace Allotment

structure Reservations where
  entries : List (ResourceId × Entry)
  distinct : (entries.map (·.1)).Nodup
deriving DecidableEq

namespace Reservations

def empty : Reservations := ⟨[], .nil⟩

instance : EmptyCollection Reservations := ⟨empty⟩

/-! ### Entries -/

def lookup (t : Reservations) (r : ResourceId) : Option Entry :=
  (t.entries.find? (·.1 == r)).map (·.2)

@[simp] theorem lookup_empty (r : ResourceId) : (∅ : Reservations).lookup r = none := rfl

/-- Puts an entry in the place of the one that the resource has, or behind all others. -/
def putInto (r : ResourceId) (e : Entry) : List (ResourceId × Entry) → List (ResourceId × Entry)
  | [] => [(r, e)]
  | x :: xs => if x.1 = r then (r, e) :: xs else x :: putInto r e xs

theorem keys_putInto (r : ResourceId) (e : Entry) (l : List (ResourceId × Entry)) :
    (putInto r e l).map (·.1) = if r ∈ l.map (·.1) then l.map (·.1) else l.map (·.1) ++ [r] := by
  induction l with
  | nil => rfl
  | cons x xs ih =>
    by_cases same : x.1 = r
    · simp [putInto, same]
    · rw [putInto, if_neg same, List.map_cons, ih]
      by_cases later : r ∈ xs.map (·.1)
      · simp [later]
      · simp [later, Ne.symm same]

theorem find?_putInto (r : ResourceId) (e : Entry) (l : List (ResourceId × Entry))
    (a : ResourceId) : ((putInto r e l).find? (·.1 == a)).map (·.2) =
      if a = r then some e else (l.find? (·.1 == a)).map (·.2) := by
  induction l with
  | nil => by_cases same : a = r <;> simp [putInto, same, Ne.symm]
  | cons x xs ih =>
    by_cases here : x.1 = r
    · by_cases same : a = r
      · simp [putInto, here, same]
      · have other : (r == a) = false := beq_false_of_ne (Ne.symm same)
        simp [putInto, here, same, other]
    · rw [putInto, if_neg here]
      by_cases same : x.1 = a
      · have other : a ≠ r := fun e => here (same.trans e)
        simp [same, other]
      · have passed : (x.1 == a) = false := beq_false_of_ne same
        simp only [List.find?_cons, passed, ih]

def put (t : Reservations) (r : ResourceId) (e : Entry) : Reservations where
  entries := putInto r e t.entries
  distinct := by
    rw [keys_putInto]
    split
    · exact t.distinct
    · rename_i new
      rw [List.nodup_append]
      refine ⟨t.distinct, by simp, fun a old b last => ?_⟩
      cases List.mem_singleton.1 last
      exact fun same => new (same ▸ old)

theorem lookup_put (t : Reservations) (r : ResourceId) (e : Entry) (a : ResourceId) :
    (t.put r e).lookup a = if a = r then some e else t.lookup a := find?_putInto r e t.entries a

theorem lookup_eq_some_iff {t : Reservations} {r : ResourceId} {e : Entry} :
    t.lookup r = some e ↔ (r, e) ∈ t.entries := by
  obtain ⟨l, distinct⟩ := t
  show (l.find? (·.1 == r)).map (·.2) = some e ↔ (r, e) ∈ l
  induction l with
  | nil => simp
  | cons x xs ih =>
    obtain ⟨a, d⟩ := x
    obtain ⟨new, later⟩ := List.nodup_cons.1 distinct
    by_cases same : a = r
    · subst same
      have absent : (a, e) ∉ xs := fun member => new (List.mem_map.2 ⟨_, member, rfl⟩)
      simp [absent, eq_comm (a := e)]
    · have passed : (a == r) = false := beq_false_of_ne same
      simp [passed, ih later, Ne.symm same]

/-- The entry of a resource, a free one made for it if there is none. -/
def enter (t : Reservations) (r : ResourceId) : Entry × Reservations :=
  match t.lookup r with
  | some e => (e, t)
  | none => ({}, t.put r {})

def holder (t : Reservations) (r : ResourceId) : Option ClientId := (t.lookup r).bind (·.holder)

theorem holder_eq_some_iff {t : Reservations} {r : ResourceId} {c : ClientId} :
    t.holder r = some c ↔ ∃ e, (r, e) ∈ t.entries ∧ e.holder = some c := by
  simp only [holder, Option.bind_eq_some_iff, lookup_eq_some_iff]

theorem holder_put (t : Reservations) (r : ResourceId) (e : Entry) (a : ResourceId) :
    (t.put r e).holder a = if a = r then e.holder else t.holder a := by
  rw [holder, lookup_put]
  split <;> rfl

theorem enter_holder (t : Reservations) (r : ResourceId) : (t.enter r).1.holder = t.holder r := by
  unfold enter holder
  cases t.lookup r <;> rfl

/-- No entry and a free one are the same to whoever asks. -/
theorem holder_enter (t : Reservations) (r a : ResourceId) :
    (t.enter r).2.holder a = t.holder a := by
  unfold enter
  cases known : t.lookup r with
  | some e => rfl
  | none =>
    rw [holder_put]
    split
    · rename_i same
      rw [same, holder, known]
      rfl
    · rfl

/-! ### Allocating -/

def isAvailableFor (t : Reservations) (rs : ResourceSet) (c : ClientId) : Bool :=
  rs.all fun r => (t.lookup r).all (·.isAvailableFor c)

/-- Gives `r` to `c` unless somebody else holds it; a second time changes nothing. -/
def allocate (t : Reservations) (r : ResourceId) (c : ClientId) :
    Except SchedulerError Unit × Reservations :=
  let (e, t) := t.enter r
  match e.holder.filter (· ≠ c) with
  | some d => (.error (.alreadyHeld r d), t)
  | none => (.ok (), t.put r ⟨some c⟩)

/-- Gives the resources to `c` one after the other, up to the first that somebody else holds. -/
def allocateAll (t : Reservations) (c : ClientId) :
    List ResourceId → Except SchedulerError Unit × Reservations
  | [] => (.ok (), t)
  | r :: rs =>
    match t.allocate r c with
    | (.ok (), t) => t.allocateAll c rs
    | (.error e, t) => (.error e, t)

/-! ### Freeing -/

/-- Frees the entry of `r` if `c` holds it, and adds `r` to what has been freed. -/
def freeOne (c : ClientId) : ResourceSet × Reservations → ResourceId → ResourceSet × Reservations
  | (freed, t), r =>
    match t.lookup r with
    | some e => if e.holder = some c then (freed.insert r, t.put r {}) else (freed, t)
    | none => (freed, t)

/-- Frees those of the resources that `c` holds, one after the other, and says which these were. -/
def free (t : Reservations) (c : ClientId) (rs : ResourceSet) : ResourceSet × Reservations :=
  rs.toList.foldl (freeOne c) (∅, t)

def allocationsOf (t : Reservations) (c : ClientId) : ResourceSet :=
  .ofList ((t.entries.filter (·.2.holder == some c)).map (·.1))

def freeAll (t : Reservations) (c : ClientId) : ResourceSet × Reservations :=
  t.free c (t.allocationsOf c)

/-! ### The table -/

/-- What is held, with its holder. -/
def held (l : List (ResourceId × Entry)) : List (ResourceId × ClientId) :=
  l.filterMap fun x => x.2.holder.map (x.1, ·)

theorem mem_held {l : List (ResourceId × Entry)} {r : ResourceId} {c : ClientId} :
    (r, c) ∈ held l ↔ ∃ e, (r, e) ∈ l ∧ e.holder = some c := by
  simp only [held, List.mem_filterMap, Option.map_eq_some_iff, Prod.mk.injEq]
  constructor
  · rintro ⟨⟨a, e⟩, member, d, own, rfl, rfl⟩
    exact ⟨e, member, own⟩
  · rintro ⟨e, member, own⟩
    exact ⟨(r, e), member, c, own, rfl, rfl⟩

theorem keys_held (l : List (ResourceId × Entry)) :
    ((held l).map (·.1)).Sublist (l.map (·.1)) := by
  induction l with
  | nil => exact .slnil
  | cons x xs ih =>
    obtain ⟨a, ⟨_ | d⟩⟩ := x
    · exact ih.cons a
    · exact ih.cons_cons a

def holders (t : Reservations) : Table := .ofList (held t.entries)

/-- The table shows the holder of each resource. -/
theorem holder_holders (t : Reservations) (r : ResourceId) : t.holders.holder r = t.holder r := by
  apply Option.ext
  intro c
  have distinct : ((held t.entries).map (·.1)).Nodup := t.distinct.sublist (keys_held t.entries)
  rw [holders, Table.holder_ofList distinct, mem_held, holder_eq_some_iff]

end Reservations

end Allotment
