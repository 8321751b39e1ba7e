import Allotment.ResourceSet

/-!
# Clients that are told through a channel

An accepted grant is put into the channel for whoever receives from it. A grant is refused if it is
against the policy or if nobody receives any more.
-/

namespace Allotment

/-- Which grants are welcome: at most so many resources, and not a certain one. -/
structure AcceptPolicy where
  most : Option Nat := none
  barred : Option ResourceId := none
deriving DecidableEq

def AcceptPolicy.accepts (p : AcceptPolicy) (rs : ResourceSet) : Bool :=
  p.most.all (fun n => decide (rs.size ≤ n)) && p.barred.all fun r => !decide (r ∈ rs)

structure Notice where
  client : ClientId
  resources : ResourceSet
deriving DecidableEq

structure Channel where
  client : ClientId
  policy : AcceptPolicy := {}
  /-- What has not been received yet, oldest first. -/
  notices : List Notice := []
  abandoned : Bool := false
deriving DecidableEq

namespace Channel

def grant (ch : Channel) (rs : ResourceSet) : Bool × Channel :=
  if ch.policy.accepts rs && !ch.abandoned then
    (true, { ch with notices := ch.notices ++ [⟨ch.client, rs⟩] })
  else (false, ch)

/-- Receives all there is; nothing can be received once the channel is abandoned. -/
def receive (ch : Channel) : Option (List Notice) × Channel :=
  if ch.abandoned then (none, ch) else (some ch.notices, { ch with notices := [] })

def abandon (ch : Channel) : Channel := { ch with notices := [], abandoned := true }

end Channel

end Allotment
