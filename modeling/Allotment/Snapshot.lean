import Allotment.Audit
import Allotment.Command
import Allotment.Table

/-!
# Requests, grants, and views of the state
-/

namespace Allotment

/-- An allocation somebody has asked for, with its place in the order of service. -/
structure Request where
  client : Client
  resources : ResourceSet
  priority : Priority
  seq : Nat
deriving DecidableEq

def Request.queued (r : Request) : Queued := ⟨.allocate r.client r.resources, r.priority, r.seq⟩

/-- A request whose resources are locked and whose client has not been called back yet. -/
structure Grant where
  request : Request
  /-- All that is locked for it. -/
  expanded : ResourceSet
  /-- What its client did not hold before. -/
  claimed : ResourceSet
deriving DecidableEq

namespace Grant

def client (g : Grant) : ClientId := g.request.client.id

def requested (g : Grant) : ResourceSet := g.request.resources

/-- Whether a set names the grant to its client. -/
def isNamedBy (g : Grant) (c : ClientId) (rs : ResourceSet) : Bool :=
  g.client == c && (g.requested == rs || g.expanded == rs || g.claimed == rs)

/-- A client can name its grant by what it asked for, by what is locked, or by what was claimed. -/
theorem isNamedBy_iff {g : Grant} {c : ClientId} {rs : ResourceSet} :
    g.isNamedBy c rs = true ↔
      g.client = c ∧ (g.requested = rs ∨ g.expanded = rs ∨ g.claimed = rs) := by
  simp [isNamedBy, or_assoc]

/-- An earlier grant of the same client that covers a resource of this one holds it back. -/
def holdsBack (earlier g : Grant) : Bool :=
  earlier.client == g.client && earlier.expanded.meets g.expanded

end Grant

structure PendingRequest where
  client : ClientId
  resources : ResourceSet
deriving DecidableEq

structure Snapshot where
  holders : Table
  /-- What was asked for, oldest first. -/
  deferred : List PendingRequest
  /-- What is locked for clients that have not been called back. -/
  pendingPreparations : List PendingRequest
deriving DecidableEq

namespace Snapshot

def empty : Snapshot := ⟨∅, [], []⟩

instance : Inhabited Snapshot := ⟨empty⟩

def holder (s : Snapshot) (r : ResourceId) : Option ClientId := s.holders.holder r

def heldBy (s : Snapshot) (c : ClientId) : ResourceSet := s.holders.allocationsOf c

def isDeferred (s : Snapshot) (c : ClientId) : Bool := s.deferred.any (·.client == c)

end Snapshot

structure Counters where
  processed : Nat := 0
  grants : Nat := 0
  deferrals : Nat := 0
  refusals : Nat := 0
  frees : Nat := 0
deriving DecidableEq

namespace Counters

def addProcessed (c : Counters) : Counters := { c with processed := c.processed + 1 }
def addGrant (c : Counters) : Counters := { c with grants := c.grants + 1 }
def addDeferral (c : Counters) : Counters := { c with deferrals := c.deferrals + 1 }
def addRefusal (c : Counters) : Counters := { c with refusals := c.refusals + 1 }
def addFree (c : Counters) : Counters := { c with frees := c.frees + 1 }

end Counters

/-- The counters as they are published, in machine words. -/
structure Stats where
  commandsProcessed : UInt64
  grants : UInt64
  deferrals : UInt64
  refusals : UInt64
  frees : UInt64
  queuedCommands : UInt64
  terminated : Bool
deriving DecidableEq

def Counters.stats (c : Counters) (queued : Nat) (terminated : Bool) : Stats where
  commandsProcessed := c.processed.toUInt64
  grants := c.grants.toUInt64
  deferrals := c.deferrals.toUInt64
  refusals := c.refusals.toUInt64
  frees := c.frees.toUInt64
  queuedCommands := queued.toUInt64
  terminated := terminated

end Allotment
