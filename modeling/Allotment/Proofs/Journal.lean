import Allotment.Journal

/-!
# Reading the journal

What was the case at a moment is computed from the entries made before it: who held a resource
(`holder`), under which grant it was locked last (`locker`), and what has been written down since
(`sinceLock`).
-/

namespace Allotment

def Command.isFree : Command → Bool
  | free .. | freeAll _ => true
  | _ => false

namespace Event

/-- Written down while an advisor or a client is being asked. -/
def isBackground : Event → Bool
  | entered _ | advised .. | gateStarted .. | gateAsked _ | gateFinished .. => true
  | _ => false

/-- Written down by a task that asks its gate. -/
def isPoll : Event → Bool
  | gateAsked _ | gateFinished .. => true
  | _ => false

/-- Moves no resource, request or grant, and lets no grant be delivered. -/
def isQuiet : Event → Bool
  | locked _ | deferred _ | called .. | freed .. | cancelled _ => false
  | withdrawn _ | retried _ | stopped .. => false
  | consulted .complete _ _ approved => !approved
  | took q => !q.command.isFree
  | _ => true

/-- Says nothing of where a command, a request or a grant is. -/
def isRemark : Event → Bool
  | expanding _ | advised .. | consulted .. | gateStarted .. | gateAsked _ | gateFinished .. => true
  | decided .. | audited _ => true
  | _ => false

/-- A command comes into the queue, leaves it to be carried out, or goes back to it. -/
def isTraffic : Event → Bool
  | entered _ | took _ | retried _ => true
  | _ => false

theorem traffic_of_remark {e : Event} (h : e.isRemark = true) : e.isTraffic = false := by
  cases e <;> simp_all [isRemark, isTraffic]

theorem quiet_of_background {e : Event} (h : e.isBackground = true) : e.isQuiet = true := by
  cases e <;> simp_all [isBackground, isQuiet]

theorem background_of_entered {e : Event} (h : ∃ q, e = .entered q) : e.isBackground = true := by
  obtain ⟨q, rfl⟩ := h
  rfl

/-- Who holds `r` after the event, given who held it before. -/
def holds (r : ResourceId) (e : Event) (before : Option ClientId) : Option ClientId :=
  match e with
  | locked g => if r ∈ g.claimed then some g.client else before
  | freed _ rs _ => if r ∈ rs then none else before
  | _ => before

def locks (r : ResourceId) : Event → Bool
  | locked g => decide (r ∈ g.claimed)
  | _ => false

def frees (r : ResourceId) : Event → Bool
  | freed _ rs _ => decide (r ∈ rs)
  | _ => false

/-- The advisors say that a preparation is complete. -/
def completes : Event → Bool
  | consulted .complete _ _ approved => approved
  | _ => false

/-- A client is called back. -/
def calls : Event → Bool
  | called .. => true
  | _ => false

/-- Neither locks nor frees anything. -/
def isStill : Event → Bool
  | locked _ | freed .. => false
  | _ => true

theorem still_of_quiet {e : Event} (h : e.isQuiet = true) : e.isStill = true := by
  cases e <;> simp_all [isQuiet, isStill]

theorem still_of_entered {e : Event} (h : ∃ q, e = .entered q) : e.isStill = true := by
  obtain ⟨q, rfl⟩ := h
  rfl

theorem still_of_remark {e : Event} (h : e.isRemark = true) : e.isStill = true := by
  cases e <;> simp_all [isRemark, isStill]

theorem frees_of_remark {e : Event} (h : e.isRemark = true) (r : ResourceId) :
    e.frees r = false := by
  cases e <;> simp_all [isRemark, frees]

theorem locks_of_still {e : Event} (h : e.isStill = true) (r : ResourceId) :
    e.locks r = false := by
  cases e <;> simp_all [isStill, locks]

theorem holds_of_still {e : Event} (h : e.isStill = true) (r : ResourceId)
    (before : Option ClientId) : e.holds r before = before := by
  cases e <;> simp_all [isStill, holds]

end Event

namespace Journal

/-! ### Who holds what -/

def holder (j : Journal) (r : ResourceId) : Option ClientId := j.foldr (Event.holds r) none

@[simp] theorem holder_nil (r : ResourceId) : holder [] r = none := rfl

theorem holder_cons (e : Event) (j : Journal) (r : ResourceId) :
    holder (e :: j) r = e.holds r (holder j r) := rfl

theorem holder_append {es : List Event} (h : ∀ e ∈ es, e.isStill = true) (j : Journal)
    (r : ResourceId) : holder (es ++ j) r = holder j r := by
  induction es with
  | nil => rfl
  | cons e es ih =>
    obtain ⟨he, h⟩ := List.forall_mem_cons.mp h
    rw [List.cons_append, holder_cons, ih h, Event.holds_of_still he]

/-! ### The last lock -/

/-- The grant under which `r` was locked last. -/
def locker (j : Journal) (r : ResourceId) : Option Grant :=
  j.findSome? fun
    | .locked g => if r ∈ g.claimed then some g else none
    | _ => none

/-- The entries made since `r` was locked last, all of them if it never was. -/
def sinceLock (j : Journal) (r : ResourceId) : List Event := j.takeWhile fun e => !e.locks r

theorem locker_cons_of_not {e : Event} {r : ResourceId} (h : e.locks r = false) (j : Journal) :
    locker (e :: j) r = locker j r := by
  cases e <;> simp_all [locker, Event.locks]

theorem locker_locked {g : Grant} {r : ResourceId} (h : r ∈ g.claimed) (j : Journal) :
    locker (.locked g :: j) r = some g := by
  simp [locker, h]

theorem locker_append {es : List Event} {r : ResourceId} (h : ∀ e ∈ es, e.locks r = false)
    (j : Journal) : locker (es ++ j) r = locker j r := by
  induction es with
  | nil => rfl
  | cons e es ih =>
    obtain ⟨he, h⟩ := List.forall_mem_cons.mp h
    rw [List.cons_append, locker_cons_of_not he, ih h]

theorem sinceLock_locked {g : Grant} {r : ResourceId} (h : r ∈ g.claimed) (j : Journal) :
    sinceLock (.locked g :: j) r = [] := by
  simp [sinceLock, Event.locks, h]

theorem sinceLock_append {es : List Event} {r : ResourceId} (h : ∀ e ∈ es, e.locks r = false)
    (j : Journal) : sinceLock (es ++ j) r = es ++ sinceLock j r :=
  List.takeWhile_append_of_pos fun e he => by simp [h e he]

theorem mem_claimed_of_locker {j : Journal} {r : ResourceId} {g : Grant}
    (h : j.locker r = some g) : r ∈ g.claimed := by
  obtain ⟨e, -, he⟩ := List.exists_of_findSome?_eq_some h
  cases e with
  | locked k =>
    obtain ⟨hk, rfl⟩ : r ∈ k.claimed ∧ k = g := by simpa using he
    exact hk
  | _ => cases he

/-! ### Commands -/

/-- The commands that came in, the latest first. -/
def entered (j : Journal) : List Queued :=
  j.filterMap fun
    | .entered q => some q
    | _ => none

/-- The command that was taken last. -/
def served? (j : Journal) : Option Queued :=
  j.findSome? fun
    | .took q => some q
    | _ => none

theorem mem_entered {j : Journal} {q : Queued} : q ∈ j.entered ↔ .entered q ∈ j := by
  rw [entered, List.mem_filterMap]
  constructor
  · rintro ⟨e, he, h⟩
    cases e with
    | entered p =>
      cases h
      exact he
    | _ => cases h
  · exact fun h => ⟨_, h, rfl⟩

theorem entered_append {es : List Event} (h : ∀ e ∈ es, e.isTraffic = false) (j : Journal) :
    entered (es ++ j) = entered j := by
  induction es with
  | nil => rfl
  | cons e es ih =>
    obtain ⟨he, h⟩ := List.forall_mem_cons.mp h
    rw [List.cons_append, ← ih h]
    cases e with
    | entered q => cases he
    | _ => rfl

theorem mem_of_served {j : Journal} {q : Queued} (h : j.served? = some q) : .took q ∈ j := by
  obtain ⟨e, he, found⟩ := List.exists_of_findSome?_eq_some h
  cases e with
  | took p =>
    cases found
    exact he
  | _ => cases found

theorem served?_append {es : List Event} (h : ∀ e ∈ es, ∀ q, e ≠ .took q) (j : Journal) :
    served? (es ++ j) = served? j := by
  induction es with
  | nil => rfl
  | cons e es ih =>
    obtain ⟨he, h⟩ := List.forall_mem_cons.mp h
    rw [List.cons_append, ← ih h]
    cases e with
    | took q => exact absurd rfl (he q)
    | _ => rfl

/-! ### What holds of every entry -/

/-- Every entry is as `P` wants it, given the entries before it. -/
def Always (P : Event → Journal → Prop) : Journal → Prop
  | [] => True
  | e :: j => P e j ∧ Always P j

instance {P : Event → Journal → Prop} [∀ e j, Decidable (P e j)] :
    (j : Journal) → Decidable (Always P j)
  | [] => .isTrue trivial
  | e :: j =>
    have : Decidable (Always P j) := instDecidableAlways j
    inferInstanceAs (Decidable (P e j ∧ Always P j))

theorem Always.imp {P Q : Event → Journal → Prop} (h : ∀ e j, P e j → Q e j) {j : Journal}
    (always : Always P j) : Always Q j := by
  induction j with
  | nil => trivial
  | cons e j ih => exact ⟨h e j always.1, ih always.2⟩

theorem always_append_within {P : Event → Journal → Prop} {es : List Event} {j : Journal}
    (h : ∀ e ∈ es, ∀ fs : List Event, (∀ x ∈ fs, x ∈ es) → P e (fs ++ j)) (hj : Always P j) :
    Always P (es ++ j) := by
  induction es with
  | nil => exact hj
  | cons e es ih =>
    refine ⟨h e List.mem_cons_self es fun x => List.mem_cons_of_mem e, ih fun x hx fs within => ?_⟩
    exact h x (List.mem_cons_of_mem e hx) fs fun y hy => List.mem_cons_of_mem e (within y hy)

theorem always_append {P : Event → Journal → Prop} {es : List Event} {j : Journal}
    (h : ∀ e ∈ es, ∀ k, P e k) (hj : Always P j) : Always P (es ++ j) :=
  always_append_within (fun e he _ _ => h e he _) hj

theorem always_split {P : Event → Journal → Prop} {later earlier : Journal} {e : Event}
    (h : Always P (later ++ e :: earlier)) : P e earlier := by
  induction later with
  | nil => exact h.1
  | cons x later ih => exact ih h.2

/-- What `P` wants to precede an entry is there. -/
theorem mem_of_always {P : Event → Journal → Prop} {j : Journal} {e x : Event} (h : Always P j)
    (he : e ∈ j) (wants : ∀ earlier, P e earlier → x ∈ earlier) : x ∈ j := by
  obtain ⟨later, earlier, rfl⟩ := List.append_of_mem he
  have before := wants earlier (always_split h)
  exact List.mem_append_right _ (List.mem_cons_of_mem _ before)

theorem always_tail {P : Event → Journal → Prop} {later earlier : Journal}
    (h : Always P (later ++ earlier)) : Always P earlier := by
  induction later with
  | nil => exact h
  | cons x later ih => exact ih h.2

end Journal

end Allotment
