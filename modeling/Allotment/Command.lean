import Allotment.Priority
import Allotment.ResourceSet

/-!
# Commands

What an allocator can be asked to do, and the order in which it is done: `Queued.before`.
-/

namespace Allotment

/-- Someone who can be called back: an identity, and the name its callback is reached by. Different
callbacks may act for one identity. -/
structure Client where
  id : ClientId
  endpoint : String
deriving DecidableEq

inductive Command
  /-- Lock the resources, then call the client back. -/
  | allocate (client : Client) (resources : ResourceSet)
  /-- Tell the advisors that the client has given the resources up. -/
  | released (client : ClientId) (resources : ResourceSet)
  /-- Look again at the tentative grant of which this is the requested, expanded or claimed set. -/
  | checkPrepared (client : ClientId) (resources : ResourceSet)
  | retryDeferred
  /-- Free those of the resources that the client holds. -/
  | free (client : ClientId) (resources : ResourceSet)
  | freeAll (client : ClientId)
  | withdraw (client : ClientId)
  | snapshot
  | shutdown
deriving DecidableEq

namespace Command

def kind : Command → String
  | allocate .. => "allocate"
  | released .. => "allocations_released"
  | checkPrepared .. => "check_allocations_prepared"
  | retryDeferred => "retry_deferred"
  | free .. => "free"
  | freeAll .. => "free_all"
  | withdraw .. => "withdraw"
  | snapshot => "snapshot"
  | shutdown => "shutdown"

def clientId? : Command → Option ClientId
  | allocate c _ => some c.id
  | released c _ | checkPrepared c _ | free c _ | freeAll c | withdraw c => some c
  | retryDeferred | snapshot | shutdown => none

def resources? : Command → Option ResourceSet
  | allocate _ rs | released _ rs | checkPrepared _ rs | free _ rs => some rs
  | freeAll _ | withdraw _ | retryDeferred | snapshot | shutdown => none

end Command

structure Submission where
  command : Command
  priority : Priority
deriving DecidableEq

/-- A command in the queue, with the number given to it on arrival. -/
structure Queued where
  command : Command
  priority : Priority
  seq : Nat
deriving DecidableEq

namespace Queued

/-- `a` is served before `b`: it has the higher priority, or the same and came earlier. -/
def before (a b : Queued) : Prop :=
  b.priority < a.priority ∨ a.priority = b.priority ∧ a.seq < b.seq

instance (a b : Queued) : Decidable (before a b) := by unfold before; infer_instance

def order (a b : Queued) : Ordering :=
  (compare a.priority b.priority).then (compare b.seq a.seq)

theorem before_irrefl (a : Queued) : ¬ before a a := by
  rintro (h | ⟨-, h⟩)
  · exact Nat.lt_irrefl _ h
  · exact Nat.lt_irrefl _ h

theorem before_trans {a b c : Queued} (h : before a b) (k : before b c) : before a c := by
  rcases h with h | ⟨h, h'⟩ <;> rcases k with k | ⟨k, k'⟩
  · exact .inl (Nat.lt_trans k h)
  · exact .inl (k ▸ h)
  · exact .inl (h ▸ k)
  · exact .inr ⟨h.trans k, Nat.lt_trans h' k'⟩

/-- Two commands of which neither is before the other have equal priorities and numbers. -/
theorem key_eq_of_not_before {a b : Queued} (h : ¬ before a b) (k : ¬ before b a) :
    a.priority = b.priority ∧ a.seq = b.seq := by
  have hp : a.priority = b.priority := by
    refine Priority.rank_inj.1 (Nat.le_antisymm ?_ ?_)
    · exact Nat.le_of_not_lt fun e => h (.inl e)
    · exact Nat.le_of_not_lt fun e => k (.inl e)
  refine ⟨hp, Nat.le_antisymm ?_ ?_⟩
  · exact Nat.le_of_not_lt fun e => k (.inr ⟨hp.symm, e⟩)
  · exact Nat.le_of_not_lt fun e => h (.inr ⟨hp, e⟩)

theorem not_before_trans {a b c : Queued} (h : ¬ before b a) (k : ¬ before c b) :
    ¬ before c a := by
  intro e
  by_cases hab : before a b
  · exact k (before_trans e hab)
  · obtain ⟨hp, hs⟩ := key_eq_of_not_before hab h
    exact k (by
      rcases e with e | ⟨e, e'⟩
      · exact .inl (hp ▸ e)
      · exact .inr ⟨e.trans hp, hs ▸ e'⟩)

end Queued

end Allotment
