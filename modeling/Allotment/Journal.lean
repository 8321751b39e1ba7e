import Allotment.Advisor.Gates
import Allotment.Snapshot

/-!
# The journal

Everything that happens in a scheduler is written down, the latest first, so that what is true of a
moment can be said of the entries before it.
-/

namespace Allotment

inductive AdvisorTag
  | zones
  | gates (name : String)
  | outside (name : String)
deriving DecidableEq

inductive Reply
  | accept
  | refuse
  /-- The callback broke off, which counts as a refusal. -/
  | breakOff
deriving DecidableEq

inductive FreeCause
  | asked
  | refused
deriving DecidableEq

inductive Event
  | entered (q : Queued)
  | took (q : Queued)
  /-- A requested set is about to be expanded. -/
  | expanding (requested : ResourceSet)
  /-- One advisor was asked. -/
  | advised (advisor : AdvisorTag) (hook : Hook) (client : ClientId) (resources : ResourceSet)
      (answer : Answer)
  /-- All advisors together were asked. -/
  | consulted (hook : Hook) (client : ClientId) (resources : ResourceSet) (approved : Bool)
  /-- A task has begun to wait for its gate. -/
  | gateStarted (advisor task : Nat) (key : GateKey)
  /-- A task has asked its gate for the first time. -/
  | gateAsked (key : GateKey)
  /-- A task has had its answer. -/
  | gateFinished (advisor task : Nat) (key : GateKey) (outcome : GateOutcome)
  /-- The claimed resources of a grant were locked. -/
  | locked (g : Grant)
  | deferred (r : Request)
  | called (g : Grant) (reply : Reply)
  /-- Resources were taken from their holder. -/
  | freed (client : ClientId) (resources : ResourceSet) (cause : FreeCause)
  /-- A tentative grant was dropped, having lost a resource. -/
  | cancelled (g : Grant)
  /-- A deferred request was dropped at its client's wish. -/
  | withdrawn (r : Request)
  /-- Every deferred request went back to the queue. -/
  | retried (rs : List Request)
  | decided (d : Decision) (client : ClientId) (resources : ResourceSet) (detail : Option String)
  /-- A decision was recorded outside. -/
  | audited (e : AuditEvent)
  /-- The command of this number was answered. -/
  | reported (seq : Nat) (s : Snapshot)
  /-- The allocator stopped and discarded what was left. -/
  | stopped (waiting : List Queued) (deferred : List Request) (pending : List Grant)
deriving DecidableEq

/-- The latest entry comes first. -/
abbrev Journal := List Event

namespace Journal

/-- The entries made after the first `n`, in the order in which they were made. -/
def since (j : Journal) (n : Nat) : List Event := (j.take (j.length - n)).reverse

def report? (j : Journal) (seq : Nat) : Option Snapshot :=
  j.findSome? fun
    | .reported n s => if n = seq then some s else none
    | _ => none

end Journal

end Allotment
