import Allotment.Journal
import Allotment.Queue

/-!
# The world around an allocator

An allocator calls out to an expander, to advisors, to clients and to whoever keeps the records.
What they answer is theirs to decide: a `World` gives their answers as functions of a state of its
own, of any type, which each call may change. Advisors and clients may submit commands while they
are being called.
-/

namespace Allotment

structure World (σ : Type) where
  /-- The set to lock for a requested one; none if the expander breaks off. -/
  expand : ResourceSet → σ → Option ResourceSet × σ
  /-- What the advisor of a number answers, and what it submits meanwhile. -/
  advise : Nat → Hook → ClientId → ResourceSet → σ → Answer × List Submission × σ
  /-- Which tasks of the gates of a number ask their gate during a call, and with what result; the
  first argument after the number is the task that the call started. -/
  tasks : Nat → Option Nat → σ → List (Nat × Option GateOutcome) × σ
  /-- What a client says to a grant, and what it submits meanwhile. -/
  call : Client → ResourceSet → σ → Reply × List Submission × σ
  /-- Whether the outside sink survives an event. -/
  audit : AuditEvent → σ → Bool × σ
  /-- A stamp that has not been given out before. -/
  stamp : σ → Stamp × σ

/-- What calls to the outside can touch: the world, the queue, and the journal. -/
structure Setting (σ : Type) where
  world : σ
  queue : Queue := .empty
  journal : Journal := []

namespace Setting

variable {σ : Type}

def note (e : Event) (x : Setting σ) : Setting σ := { x with journal := e :: x.journal }

def submit (x : Setting σ) (s : Submission) : Setting σ :=
  if x.queue.closed then x
  else { x.note (.entered ⟨s.command, s.priority, x.queue.nextSeq⟩) with
    queue := x.queue.enter s.command s.priority }

def submitAll (x : Setting σ) (ss : List Submission) : Setting σ := ss.foldl submit x

@[simp] theorem queue_note (e : Event) (x : Setting σ) : (x.note e).queue = x.queue := rfl
@[simp] theorem world_note (e : Event) (x : Setting σ) : (x.note e).world = x.world := rfl
@[simp] theorem journal_note (e : Event) (x : Setting σ) :
    (x.note e).journal = e :: x.journal := rfl

@[simp] theorem world_submit (x : Setting σ) (s : Submission) : (x.submit s).world = x.world := by
  unfold submit; split <;> rfl

@[simp] theorem closed_submit (x : Setting σ) (s : Submission) :
    (x.submit s).queue.closed = x.queue.closed := by
  unfold submit; split <;> rfl

@[simp] theorem closed_submitAll (x : Setting σ) (ss : List Submission) :
    (x.submitAll ss).queue.closed = x.queue.closed := by
  induction ss generalizing x with
  | nil => rfl
  | cons s ss ih => exact (ih _).trans (closed_submit x s)

end Setting

end Allotment
