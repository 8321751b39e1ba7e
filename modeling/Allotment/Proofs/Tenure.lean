import Mathlib.Data.List.Induction
import Allotment.Reservations

/-!
# Who holds what after a history

A table is known by the acts that led to it: a client holds a resource if and only if it was given
it at some time and no act since has taken it back (`Table.holder_run`). Reservations keep more than
that, an entry for all that was ever asked for, but whatever they answer is the answer of their
table, and what is done to them is done to it (`Reservations.holders_run`). So what they refuse,
free, find available and list follows from the history as well (`Reservations.refines_history`).
-/

namespace Allotment

namespace Table

inductive Act
  | allocate (r : ResourceId) (c : ClientId)
  | free (c : ClientId) (rs : ResourceSet)
  | freeAll (c : ClientId)
deriving DecidableEq

/-- An allocation that fails leaves the table as it was. -/
def act (t : Table) : Act → Table
  | .allocate r c =>
    match t.allocate r c with
    | .ok u => u
    | .error _ => t
  | .free c rs => (t.free c rs).2
  | .freeAll c => (t.freeAll c).2

/-- The table that a history leads to. -/
def run (as : List Act) : Table := as.foldl act ∅

/-- Takes `r` from `c` if it has it. -/
def Act.releases (r : ResourceId) (c : ClientId) : Act → Bool
  | .allocate _ _ => false
  | .free d rs => d == c && decide (r ∈ rs)
  | .freeAll d => d == c

variable {t u : Table} {r : ResourceId} {c d : ClientId} {rs : ResourceSet} {as : List Act}
  {a : Act}

theorem run_concat (as : List Act) (a : Act) : run (as ++ [a]) = (run as).act a :=
  List.foldl_append

/-! ### Refusals -/

theorem allocate_error {e : SchedulerError} :
    t.allocate r c = .error e ↔ ∃ d, d ≠ c ∧ t.holder r = some d ∧ e = .alreadyHeld r d := by
  unfold allocate
  cases held : t.holder r with
  | none => simp
  | some d =>
    by_cases own : d = c
    · simp [own]
    · constructor
      · intro refused
        simp only [if_neg own] at refused
        cases refused
        exact ⟨d, own, rfl, rfl⟩
      · rintro ⟨holder, -, same, rfl⟩
        cases same
        simp only [if_neg own]

theorem allocate_ok : (∃ u, t.allocate r c = .ok u) ↔ t.holder r = none ∨ t.holder r = some c := by
  constructor
  · rintro ⟨u, given⟩
    cases held : t.holder r with
    | none => exact .inl rfl
    | some d =>
      by_cases own : d = c
      · exact .inr (congrArg some own)
      · have refused := allocate_error.mpr ⟨d, own, held, rfl⟩
        cases given.symm.trans refused
  · exact allocate_of_available

theorem act_of_refused {e : SchedulerError} (refused : t.allocate r c = .error e) :
    t.act (.allocate r c) = t := by
  simp [act, refused]

/-! ### A table and its history -/

theorem holder_given {p : ResourceId} (given : t.allocate p d = .ok u) :
    u.holder r = some c ↔ (p = r ∧ d = c) ∨ t.holder r = some c := by
  rw [holder_allocate given]
  by_cases same : r = p
  · subst same
    rw [if_pos rfl]
    constructor
    · intro own
      exact .inl ⟨rfl, Option.some.inj own⟩
    · rintro (⟨-, rfl⟩ | held)
      · rfl
      · obtain free | own := allocate_ok.mp ⟨u, given⟩
        · cases held.symm.trans free
        · exact own.symm.trans held
  · rw [if_neg same]
    constructor
    · exact .inr
    · rintro (⟨own, -⟩ | held)
      · exact absurd own.symm same
      · exact held

theorem mem_freed : r ∈ (t.free c rs).1 ↔ r ∈ rs ∧ t.holder r = some c := mem_heldOf

theorem holder_left : (t.free d rs).2.holder r = some c ↔
    t.holder r = some c ∧ r ∉ (t.free d rs).1 := by
  simp only [free, holder_clear]
  by_cases freed : r ∈ t.heldOf d rs <;> simp [freed]

/-- All that an act does to who holds a resource. -/
theorem holder_act : (t.act a).holder r = some c ↔
    (a = .allocate r c ∧ ∃ u, t.allocate r c = .ok u) ∨
      (t.holder r = some c ∧ a.releases r c = false) := by
  cases a with
  | allocate p d =>
    cases tried : t.allocate p d with
    | error e =>
      rw [act_of_refused tried]
      constructor
      · intro held
        exact .inr ⟨held, rfl⟩
      · rintro (⟨same, u, given⟩ | ⟨held, -⟩)
        · cases same
          cases given.symm.trans tried
        · exact held
    | ok u =>
      simp only [act, tried, holder_given tried]
      constructor
      · rintro (⟨rfl, rfl⟩ | held)
        · exact .inl ⟨rfl, u, tried⟩
        · exact .inr ⟨held, rfl⟩
      · rintro (⟨same, -⟩ | ⟨held, -⟩)
        · cases same
          exact .inl ⟨rfl, rfl⟩
        · exact .inr held
  | free d rs =>
    simp only [act, holder_left, mem_freed, reduceCtorEq, false_and, false_or]
    apply and_congr_right
    intro held
    simpa [held, Act.releases, eq_comm (a := c)] using imp_not_comm
  | freeAll d =>
    simp only [act, freeAll, holder_left, mem_freed, mem_allocationsOf, reduceCtorEq, false_and,
      false_or]
    apply and_congr_right
    intro held
    simp [held, Act.releases, eq_comm (a := c)]

/-- Whoever holds a resource was given it, and no act since has taken it back. -/
theorem holder_run : (run as).holder r = some c ↔
    ∃ before after, as = before ++ .allocate r c :: after ∧
      (∃ u, (run before).allocate r c = .ok u) ∧ ∀ a ∈ after, a.releases r c = false := by
  induction as using List.reverseRecOn with
  | nil => simp [run]
  | append_singleton as a ih =>
    rw [run_concat, holder_act, ih]
    constructor
    · rintro (⟨rfl, given⟩ | ⟨⟨before, after, rfl, given, kept⟩, spared⟩)
      · exact ⟨as, [], rfl, given, by simp⟩
      · refine ⟨before, after ++ [a], by simp, given, ?_⟩
        intro b member
        rcases List.mem_append.mp member with earlier | last
        · exact kept b earlier
        · cases List.mem_singleton.mp last
          exact spared
    · rintro ⟨before, after, split, given, kept⟩
      rcases List.eq_nil_or_concat after with rfl | ⟨rest, b, rfl⟩
      · obtain ⟨rfl, last⟩ := List.append_inj' split rfl
        cases last
        exact .inl ⟨rfl, given⟩
      · rw [List.concat_eq_append, ← List.cons_append, ← List.append_assoc] at split
        obtain ⟨rfl, last⟩ := List.append_inj' split rfl
        cases last
        refine .inr ⟨⟨before, rest, rfl, given, ?_⟩, kept a (by simp)⟩
        intro b member
        exact kept b (by simp [member])

/-! ### Availability -/

theorem allocateAll_ok {order : List ResourceId} :
    (∃ u, t.allocateAll c order = .ok u) ↔
      ∀ r ∈ order, t.holder r = none ∨ t.holder r = some c := by
  constructor
  · intro given
    induction order generalizing t with
    | nil => simp
    | cons p order ih =>
      obtain ⟨u, given⟩ := given
      unfold allocateAll at given
      split at given
      · rename_i v first
        have own := allocate_ok.mp ⟨v, first⟩
        intro r member
        rcases List.mem_cons.mp member with rfl | later
        · exact own
        · have left := ih ⟨u, given⟩ r later
          rw [holder_allocate first] at left
          by_cases same : r = p
          · exact same ▸ own
          · simpa [same] using left
      · cases given
  · exact allocateAll_of_available

end Table

namespace Reservations

open Table (Act)

variable {t : Reservations} {r a : ResourceId} {c d : ClientId} {rs : ResourceSet}

def act (t : Reservations) : Act → Reservations
  | .allocate r c => (t.allocate r c).2
  | .free c rs => (t.free c rs).2
  | .freeAll c => (t.freeAll c).2

/-- The reservations that a history leads to. -/
def run (as : List Act) : Reservations := as.foldl act ∅

theorem run_concat (as : List Act) (a : Act) : run (as ++ [a]) = (run as).act a :=
  List.foldl_append

/-! ### Allocating -/

theorem allocate_cases (t : Reservations) (r : ResourceId) (c : ClientId) :
    (∃ d, d ≠ c ∧ t.holder r = some d ∧ t.allocate r c = (.error (.alreadyHeld r d), t)) ∨
      (t.holder r = none ∨ t.holder r = some c) ∧
        t.allocate r c = (.ok (), (t.enter r).2.put r ⟨some c⟩) := by
  unfold allocate
  dsimp only
  rw [enter_holder]
  cases held : t.holder r with
  | none => exact .inr ⟨.inl rfl, rfl⟩
  | some d =>
    by_cases own : d = c
    · subst own
      have nobody : (some d).filter (fun x => decide (x ≠ d)) = none := by simp [Option.filter]
      exact .inr ⟨.inr rfl, by rw [nobody]⟩
    · obtain ⟨e, entry, -⟩ := Option.bind_eq_some_iff.mp held
      have entered : (t.enter r).2 = t := by rw [enter, entry]
      have somebody : (some d).filter (fun x => decide (x ≠ c)) = some d := by
        simp [Option.filter, own]
      exact .inl ⟨d, own, rfl, by rw [somebody, entered]⟩

/-- A refusal changes nothing, not even the entries. -/
theorem allocate_refused {e : SchedulerError} (refused : (t.allocate r c).1 = .error e) :
    (t.allocate r c).2 = t := by
  obtain ⟨d, -, -, same⟩ | ⟨-, same⟩ := allocate_cases t r c
  · rw [same]
  · rw [same] at refused
    cases refused

theorem holders_allocate (t : Reservations) (r : ResourceId) (c : ClientId) :
    t.holders.allocate r c = (t.allocate r c).1.map fun _ => (t.allocate r c).2.holders := by
  obtain ⟨d, other, held, same⟩ | ⟨own, same⟩ := allocate_cases t r c
  · rw [same]
    exact Table.allocate_error.mpr ⟨d, other, (holder_holders t r).trans held, rfl⟩
  · rw [← holder_holders] at own
    obtain ⟨u, given⟩ := Table.allocate_of_available own
    rw [same, given]
    refine congrArg Except.ok (Table.ext fun a => ?_)
    rw [Table.holder_allocate given, holder_holders, holder_holders, holder_put, holder_enter]

theorem given_iff {x : Except SchedulerError Unit} {u : Table} :
    (∃ v, (x.map fun _ => u) = .ok v) ↔ x = .ok () := by
  cases x <;> simp [Except.map]

theorem allocate_ok :
    (t.allocate r c).1 = .ok () ↔ ∃ u, t.holders.allocate r c = .ok u := by
  rw [holders_allocate, given_iff]

theorem allocate_error {e : SchedulerError} : (t.allocate r c).1 = .error e ↔
    ∃ d, d ≠ c ∧ t.holder r = some d ∧ e = .alreadyHeld r d := by
  rw [← holder_holders, ← Table.allocate_error, holders_allocate]
  cases (t.allocate r c).1 <;> simp [Except.map]

theorem holders_allocateAll (t : Reservations) (c : ClientId) (order : List ResourceId) :
    t.holders.allocateAll c order =
      (t.allocateAll c order).1.map fun _ => (t.allocateAll c order).2.holders := by
  induction order generalizing t with
  | nil => rfl
  | cons r order ih =>
    rw [Table.allocateAll, allocateAll, holders_allocate]
    rcases t.allocate r c with ⟨_ | _, u⟩
    · rfl
    · exact ih u

theorem allocateAll_ok {order : List ResourceId} :
    (t.allocateAll c order).1 = .ok () ↔ ∃ u, t.holders.allocateAll c order = .ok u := by
  rw [holders_allocateAll, given_iff]

theorem isAvailableFor_eq (t : Reservations) (rs : ResourceSet) (c : ClientId) :
    t.isAvailableFor rs c = t.holders.isAvailableFor rs c := by
  unfold isAvailableFor Table.isAvailableFor
  congr
  funext r
  rw [Table.entry, holder_holders, holder]
  cases t.lookup r <;> rfl

/-! ### Freeing -/

theorem freeOne_eq (c : ClientId) (freed : ResourceSet) (t : Reservations) (r : ResourceId) :
    freeOne c (freed, t) r =
      if t.holder r = some c then (freed.insert r, t.put r {}) else (freed, t) := by
  cases entry : t.lookup r <;> simp [freeOne, holder, entry]

theorem mem_freeOne (x : ResourceSet × Reservations) :
    a ∈ (freeOne c x r).1 ↔ a ∈ x.1 ∨ a = r ∧ x.2.holder r = some c := by
  rw [freeOne_eq]
  split <;> rename_i own
  · rw [ResourceSet.mem_insert, or_comm]
    simp [own]
  · simp [own]

theorem holder_freeOne (x : ResourceSet × Reservations) :
    (freeOne c x r).2.holder a =
      if a = r ∧ x.2.holder r = some c then none else x.2.holder a := by
  rw [freeOne_eq]
  split <;> rename_i own
  · simp [holder_put, own]
  · simp [own]

/-- The loop of a release, with what had been freed before. A resource comes up once, so whether it
is freed depends on who held it at the start. -/
theorem foldl_freeOne (c : ClientId) {l : List ResourceId} (once : l.Nodup)
    (x : ResourceSet × Reservations) :
    (∀ a, a ∈ (l.foldl (freeOne c) x).1 ↔ a ∈ x.1 ∨ a ∈ l ∧ x.2.holder a = some c) ∧
    ∀ a, (l.foldl (freeOne c) x).2.holder a =
      if a ∈ l ∧ x.2.holder a = some c then none else x.2.holder a := by
  induction l generalizing x with
  | nil => simp
  | cons r l ih =>
    obtain ⟨new, once⟩ := List.nodup_cons.mp once
    obtain ⟨freed, left⟩ := ih once (freeOne c x r)
    rw [List.foldl_cons]
    constructor
    · intro a
      rw [freed, mem_freeOne, holder_freeOne]
      by_cases same : a = r
      · subst same
        simp [new]
      · simp [same]
    · intro a
      rw [left, holder_freeOne]
      by_cases same : a = r
      · subst same
        simp [new]
      · simp [same]

theorem holders_free (t : Reservations) (c : ClientId) (rs : ResourceSet) :
    t.holders.free c rs = ((t.free c rs).1, (t.free c rs).2.holders) := by
  obtain ⟨freed, left⟩ := foldl_freeOne c (rs.ascending.imp ResourceId.ne_of_lt) (∅, t)
  refine Prod.ext (ResourceSet.ext fun a => ?_) (Table.ext fun a => ?_)
  · refine Table.mem_freed.trans (.trans ?_ (freed a).symm)
    rw [holder_holders]
    simp [ResourceSet.mem_toList]
  · rw [Table.holder_free, holder_holders, holder_holders]
    exact (left a).symm

theorem mem_free : r ∈ (t.free c rs).1 ↔ r ∈ rs ∧ t.holder r = some c := by
  rw [← holder_holders, ← Table.mem_freed, holders_free]

theorem holder_left : (t.free d rs).2.holder r = some c ↔
    t.holder r = some c ∧ r ∉ (t.free d rs).1 := by
  have left : (t.holders.free d rs).2.holder r = some c ↔ _ := Table.holder_left
  rwa [holders_free, holder_holders, holder_holders] at left

theorem mem_allocationsOf : r ∈ t.allocationsOf c ↔ t.holder r = some c := by
  simp [allocationsOf, holder_eq_some_iff]

theorem allocationsOf_eq (t : Reservations) (c : ClientId) :
    t.allocationsOf c = t.holders.allocationsOf c := by
  ext r
  rw [mem_allocationsOf, Table.mem_allocationsOf, holder_holders]

theorem holders_freeAll (t : Reservations) (c : ClientId) :
    t.holders.freeAll c = ((t.freeAll c).1, (t.freeAll c).2.holders) := by
  rw [freeAll, Table.freeAll, ← allocationsOf_eq, holders_free]

/-! ### Histories -/

theorem holders_act (t : Reservations) (a : Act) : (t.act a).holders = t.holders.act a := by
  cases a with
  | allocate r c =>
    show (t.allocate r c).2.holders = _
    rw [Table.act, holders_allocate]
    cases answer : (t.allocate r c).1 with
    | ok => rfl
    | error e => rw [allocate_refused answer]; rfl
  | free c rs => rw [Table.act, holders_free]; rfl
  | freeAll c => rw [Table.act, holders_freeAll]; rfl

/-- What a history does to reservations it does to their table. -/
theorem holders_run (as : List Act) : (run as).holders = Table.run as :=
  (List.foldl_hom holders fun t a => (holders_act t a).symm).symm

/-! ### Entries -/

theorem known_of_holder (held : t.holder r = some c) : (t.lookup r).isSome = true := by
  obtain ⟨e, entry, -⟩ := Option.bind_eq_some_iff.mp held
  rw [entry]
  rfl

theorem known_put (e : Entry) :
    ((t.put r e).lookup a).isSome = true ↔ a = r ∨ (t.lookup a).isSome = true := by
  rw [lookup_put]
  split <;> simp [*]

theorem known_enter :
    ((t.enter r).2.lookup a).isSome = true ↔ a = r ∨ (t.lookup a).isSome = true := by
  unfold enter
  cases entry : t.lookup r with
  | none => exact known_put {}
  | some e =>
    constructor
    · exact .inr
    · rintro (rfl | known)
      · rw [entry]
        rfl
      · exact known

theorem known_freeOne (x : ResourceSet × Reservations) :
    ((freeOne c x r).2.lookup a).isSome = true ↔ (x.2.lookup a).isSome = true := by
  rw [freeOne_eq]
  split
  · rename_i own
    refine (known_put {}).trans (or_iff_right_of_imp ?_)
    rintro rfl
    exact known_of_holder own
  · rfl

theorem known_free (rs : ResourceSet) :
    ((t.free c rs).2.lookup a).isSome = true ↔ (t.lookup a).isSome = true := by
  have loop (l : List ResourceId) (x : ResourceSet × Reservations) :
      ((l.foldl (freeOne c) x).2.lookup a).isSome = true ↔ (x.2.lookup a).isSome = true := by
    induction l generalizing x with
    | nil => rfl
    | cons r l ih => exact (ih (freeOne c x r)).trans (known_freeOne x)
  exact loop rs.toList (∅, t)

theorem known_act {b : Act} : ((t.act b).lookup r).isSome = true ↔
    (t.lookup r).isSome = true ∨ ∃ c, b = .allocate r c := by
  cases b with
  | allocate p c =>
    show ((t.allocate p c).2.lookup r).isSome = true ↔ _
    obtain ⟨d, -, held, same⟩ | ⟨-, same⟩ := allocate_cases t p c
    · rw [same]
      constructor
      · exact .inl
      · rintro (known | ⟨_, asked⟩)
        · exact known
        · cases asked
          exact known_of_holder held
    · rw [same, known_put, known_enter, ← or_assoc, or_self, or_comm]
      refine or_congr_right ⟨?_, ?_⟩
      · rintro rfl
        exact ⟨c, rfl⟩
      · rintro ⟨_, asked⟩
        cases asked
        rfl
  | free c rs => exact (known_free rs).trans (by simp)
  | freeAll c => exact (known_free (t.allocationsOf c)).trans (by simp)

/-- A resource has an entry from when it was first asked for, whatever is freed since. -/
theorem known_run {as : List Act} :
    ((run as).lookup r).isSome = true ↔ ∃ c, .allocate r c ∈ as := by
  induction as using List.reverseRecOn with
  | nil => simp [run]
  | append_singleton as b ih =>
    rw [run_concat, known_act, ih]
    simp [exists_or, eq_comm]

/-- Acts from nothing make a partial map from resources to clients. Whatever was ever asked for
keeps an entry, but what shows is the table that the same acts lead to. A client holds what it was
given at some time and no free of its own has covered since. An allocation fails if and only if
somebody else holds the resource; the error says who, and nothing changes. Freeing gives back just
that part of the set which the client held, and takes no more than that. A set is available if and
only if its resources can be allocated one after the other, in whatever order. The table lists for
each client what it holds, and no resource twice. -/
theorem refines_history (as : List Act) :
    let t := run as
    t.holders = Table.run as ∧
    (∀ r, t.holders.holder r = t.holder r ∧
      ((t.lookup r).isSome = true ↔ ∃ c, .allocate r c ∈ as)) ∧
    (∀ r c, t.holder r = some c ↔
      ∃ before after, as = before ++ .allocate r c :: after ∧
        ((run before).allocate r c).1 = .ok () ∧ ∀ a ∈ after, a.releases r c = false) ∧
    (∀ r c e, ((t.allocate r c).1 = .error e ↔
        ∃ d, d ≠ c ∧ t.holder r = some d ∧ e = .alreadyHeld r d) ∧
      ((t.allocate r c).1 = .error e → (t.allocate r c).2 = t)) ∧
    (∀ c rs r, (r ∈ (t.free c rs).1 ↔ r ∈ rs ∧ t.holder r = some c) ∧
      (r ∈ (t.freeAll c).1 ↔ t.holder r = some c) ∧
      (∀ d, (t.free c rs).2.holder r = some d ↔ t.holder r = some d ∧ r ∉ (t.free c rs).1) ∧
      ∀ d, (t.freeAll c).2.holder r = some d ↔ t.holder r = some d ∧ r ∉ (t.freeAll c).1) ∧
    (∀ c (rs : ResourceSet) (order : List ResourceId), (∀ r, r ∈ order ↔ r ∈ rs) →
      (t.isAvailableFor rs c = true ↔ (t.allocateAll c order).1 = .ok ())) ∧
    (∀ r c, (r, c) ∈ t.holders.entries ↔ r ∈ t.allocationsOf c) ∧
    (∀ r c d, r ∈ t.allocationsOf c → r ∈ t.allocationsOf d → c = d) ∧
    (t.holders.entries.map (·.1)).Nodup := by
  intro t
  refine ⟨holders_run as, fun r => ⟨holder_holders t r, known_run⟩, fun r c => ?_,
    fun r c e => ?_, fun c rs r => ?_, fun c rs order same => ?_, fun r c => ?_,
    fun r c d first second => ?_, t.holders.keys_nodup⟩
  · rw [← holder_holders, holders_run, Table.holder_run]
    simp only [allocate_ok, holders_run]
  · exact ⟨allocate_error, allocate_refused⟩
  · refine ⟨mem_free, ?_, fun d => holder_left, fun d => holder_left⟩
    rw [freeAll, mem_free, mem_allocationsOf, and_self]
  · rw [isAvailableFor_eq, allocateAll_ok, Table.allocateAll_ok, Table.isAvailableFor_iff]
    simp only [same]
  · rw [mem_allocationsOf, ← holder_holders, Table.holder_eq_some_iff]
  · rw [mem_allocationsOf] at first second
    exact Option.some.inj (first.symm.trans second)

/-- One client is given two resources and frees one of them, which goes to another; the latter asks
for the rest in vain, in either order. -/
theorem half_given_over :
    let a : ResourceId := ⟨"a"⟩
    let b : ResourceId := ⟨"b"⟩
    let x : ClientId := ⟨"x"⟩
    let y : ClientId := ⟨"y"⟩
    let both : ResourceSet := .ofList [a, b]
    let t := run [.allocate a x, .allocate b x, .free x (.ofList [a]), .allocate a y]
    t.holder a = some y ∧ t.holder b = some x ∧
    (t.allocate b y).1 = .error (.alreadyHeld b x) ∧ (t.allocate b y).2 = t ∧
    (∀ r, r ∈ [b, a] ↔ r ∈ both) ∧ (t.allocateAll y [b, a]).1 ≠ .ok () ∧
    (∀ r, r ∈ [a, b] ↔ r ∈ both) ∧ (t.allocateAll y [a, b]).1 ≠ .ok () ∧
    ∀ c, a ∈ t.allocationsOf c → c = y := by
  intro a b x y both t
  obtain ⟨-, -, history, refused, -, available, -, single, -⟩ :=
    refines_history [.allocate a x, .allocate b x, .free x (.ofList [a]), .allocate a y]
  have second : t.holder a = some y :=
    (history a y).mpr ⟨[.allocate a x, .allocate b x, .free x (.ofList [a])], [], rfl,
      by decide +kernel, by decide⟩
  have kept : t.holder b = some x :=
    (history b x).mpr ⟨[.allocate a x], [.free x (.ofList [a]), .allocate a y], rfl,
      by decide +kernel, by decide +kernel⟩
  have error : (t.allocate b y).1 = .error (.alreadyHeld b x) :=
    (refused b y _).1.mpr ⟨x, by decide, kept, rfl⟩
  have short : t.isAvailableFor both y ≠ true := by decide +kernel
  have forward : ∀ r, r ∈ [a, b] ↔ r ∈ both := fun r => ResourceSet.mem_ofList.symm
  have backward : ∀ r, r ∈ [b, a] ↔ r ∈ both := by
    intro r
    rw [← forward]
    exact (List.Perm.swap a b []).mem_iff
  refine ⟨second, kept, error, (refused b y _).2 error, backward, ?_, forward, ?_, ?_⟩
  · exact mt (available y both [b, a] backward).mpr short
  · exact mt (available y both [a, b] forward).mpr short
  · intro c listed
    exact single a c y listed (mem_allocationsOf.mpr second)

end Reservations

end Allotment
