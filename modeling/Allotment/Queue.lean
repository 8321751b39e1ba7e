import Allotment.Error
import Allotment.Heap

/-!
# The command queue

Commands wait in a ranked heap: the one taken next is outranked by nothing that waits. A closed queue
takes nothing and gives nothing.
-/

namespace Allotment

structure Queue where
  heap : Heap := .empty
  nextSeq : Nat := 0
  closed : Bool := false
  ranked : heap.Ranked := by exact trivial

namespace Queue

def empty : Queue := {}

instance : Inhabited Queue := ⟨empty⟩

@[ext] theorem ext {q r : Queue} (hh : q.heap = r.heap) (hn : q.nextSeq = r.nextSeq)
    (hc : q.closed = r.closed) : q = r := by
  cases q; cases r; cases hh; cases hn; cases hc; rfl

/-- What waits, in no particular order. -/
def waiting (q : Queue) : List Queued := q.heap.toList

def length (q : Queue) : Nat := q.heap.size

def isEmpty (q : Queue) : Bool := q.length == 0

@[simp] theorem length_waiting (q : Queue) : q.waiting.length = q.length := Heap.length_toList q.heap

theorem isEmpty_iff {q : Queue} : q.isEmpty = true ↔ q.waiting = [] := by
  simp [isEmpty, ← length_waiting]

/-! ### Operations -/

def insert (q : Queue) (x : Queued) : Queue :=
  { q with heap := q.heap.push x, ranked := Heap.ranked_push q.ranked }

/-- Takes a command in under the next number. -/
def enter (q : Queue) (c : Command) (p : Priority) : Queue :=
  { q.insert ⟨c, p, q.nextSeq⟩ with nextSeq := q.nextSeq + 1 }

def push (q : Queue) (c : Command) (p : Priority) : Except SchedulerError (Nat × Queue) :=
  if q.closed then .error .terminated else .ok (q.nextSeq, q.enter c p)

def pushAll (q : Queue) (cs : List Command) (p : Priority) : Except SchedulerError Queue :=
  if q.closed then .error .terminated else .ok (cs.foldl (fun q c => q.enter c p) q)

/-- Puts commands back under the numbers they have; the answer says how many were taken. -/
def requeue (q : Queue) (xs : List Queued) : Nat × Queue :=
  if q.closed then (0, q)
  else (xs.length, { q with heap := q.heap.pushAll xs, ranked := Heap.ranked_pushAll xs q.ranked })

/-- The next command to be served. A closed queue gives none. -/
def take? (q : Queue) : Option (Queued × Queue) :=
  if q.closed then none
  else match h : q.heap.pop? with
    | none => none
    | some (x, heap) => some (x, { q with heap, ranked := Heap.ranked_pop? q.ranked h })

/-- Discards what waits, and takes nothing from now on; the answer says how many were discarded. -/
def close (q : Queue) : Nat × Queue :=
  (q.length, { nextSeq := q.nextSeq, closed := true })

/-! ### What the operations do to the waiting commands -/

theorem waiting_enter (q : Queue) (c : Command) (p : Priority) :
    (q.enter c p).waiting.Perm (⟨c, p, q.nextSeq⟩ :: q.waiting) :=
  Heap.push_perm _ q.heap

theorem waiting_requeue {q : Queue} (h : q.closed = false) (xs : List Queued) :
    (q.requeue xs).2.waiting.Perm (xs ++ q.waiting) := by
  simp only [requeue, h, Bool.false_eq_true, if_false]
  exact Heap.pushAll_perm xs q.heap

@[simp] theorem waiting_close (q : Queue) : q.close.2.waiting = [] := rfl

theorem take?_eq_none_iff {q : Queue} : q.take? = none ↔ q.closed = true ∨ q.waiting = [] := by
  unfold take?
  split
  · simp_all
  · rename_i hc
    have hc : q.closed = false := by simpa using hc
    rw [hc]
    split
    · rename_i h
      exact ⟨fun _ => .inr (Heap.pop?_eq_none_iff.1 h), fun _ => rfl⟩
    · rename_i x k h
      have hw : q.waiting ≠ [] := fun e => by
        rw [Heap.pop?_eq_none_iff.2 e] at h
        cases h
      simpa using hw

theorem waiting_of_take? {q r : Queue} {x : Queued} (h : q.take? = some (x, r)) :
    q.waiting.Perm (x :: r.waiting) ∧ r.nextSeq = q.nextSeq ∧ q.closed = false ∧
      r.closed = false := by
  unfold take? at h
  split at h
  · cases h
  · rename_i hc
    have hc : q.closed = false := by simpa using hc
    split at h
    · cases h
    · rename_i y k hk
      cases h
      exact ⟨Heap.pop?_perm hk, rfl, hc, hc⟩

/-- What is taken is outranked by nothing that waits. -/
theorem first_of_take? {q r : Queue} {x : Queued} (h : q.take? = some (x, r)) :
    ∀ y ∈ r.waiting, ¬ y.before x := by
  unfold take? at h
  split at h
  · cases h
  · split at h
    · cases h
    · rename_i y k hk
      cases h
      exact Heap.pop?_first q.ranked hk

end Queue

end Allotment
