import Allotment.Advisor.Answer
import Allotment.Command

/-!
# Gates that open later

Preparing an allocation starts a task that waits for a gate. The preparation is complete once the
task has found the gate open; until then, and for ever if the gate fails, the grant stays tentative.
A task that finishes when its preparation has been released changes nothing.
-/

namespace Allotment

structure GateKey where
  client : ClientId
  resources : ResourceSet
deriving DecidableEq

inductive GateState
  | opening
  | opened
  | failed
deriving DecidableEq

inductive GateOutcome
  | opens
  | refuses (e : AdvisorError)
deriving DecidableEq

def GateOutcome.state : GateOutcome → GateState
  | opens => .opened
  | refuses _ => .failed

structure GateTask where
  key : GateKey
  started : Bool := false
  finished : Bool := false
deriving DecidableEq

structure Gates where
  name : String
  states : List (GateKey × GateState) := []
  /-- Every task ever started, oldest first. -/
  tasks : List GateTask := []
deriving DecidableEq

namespace Gates

def state? (g : Gates) (k : GateKey) : Option GateState :=
  (g.states.find? (·.1 == k)).map (·.2)

def opening (g : Gates) : Nat := g.states.countP (·.2 == .opening)

/-- Starts a task for a preparation that is not under way; `true` if one was started. -/
def prepare (g : Gates) (k : GateKey) : Bool × Gates :=
  match g.state? k with
  | some _ => (false, g)
  | none =>
    (true, { g with states := g.states ++ [(k, .opening)], tasks := g.tasks ++ [{ key := k }] })

def complete (g : Gates) (k : GateKey) : Answer :=
  match g.state? k with
  | some .opened => .yes
  | some .opening | none => .no
  | some .failed => .error (.failed (g.name ++ ": gate failed for " ++ k.client.name))

/-- Forgets every preparation of `c` that has a resource of the set. -/
def released (g : Gates) (c : ClientId) (rs : ResourceSet) : Gates :=
  { g with states := g.states.filter fun x => !(x.1.client == c && x.1.resources.meets rs) }

/-- The answer, whether a task was started, and the gates afterwards. -/
def ask (g : Gates) (h : Hook) (c : ClientId) (rs : ResourceSet) : Answer × Bool × Gates :=
  match h with
  | .may => (.yes, false, g)
  | .prepare => (.done, g.prepare ⟨c, rs⟩)
  | .complete => (g.complete ⟨c, rs⟩, false, g)
  | .released => (.done, false, g.released c rs)

/-! ### Tasks -/

def waiting? (g : Gates) (i : Nat) : Option GateTask :=
  (g.tasks[i]?).filter fun t => !t.finished

def unfinished? (g : Gates) (k : Nat) : Option Nat :=
  ((List.range g.tasks.length).filter fun i => (g.waiting? i).isSome)[k]?

def setTask (g : Gates) (i : Nat) (t : GateTask) : Gates := { g with tasks := g.tasks.set i t }

/-- Writes the outcome down, if the preparation is still wanted. -/
def settle (g : Gates) (k : GateKey) (o : GateOutcome) : Gates :=
  { g with states := g.states.map fun x => if x.1 = k then (k, o.state) else x }

/-- What an opened gate has the allocator look at. -/
def report (g : Gates) (k : GateKey) (o : GateOutcome) : Option Command :=
  match g.state? k, o with
  | some _, .opens => some (.checkPrepared k.client k.resources)
  | _, _ => none

inductive Poll
  | done
  | pending
  | noTask
deriving DecidableEq

/-- Lets a task ask its gate, which answers `o` or not yet. The result says what came of it, which
task it was, what is to be submitted, and how the gates are afterwards. -/
def poll (g : Gates) (i : Nat) (o : Option GateOutcome) :
    Poll × Option GateTask × Option Command × Gates :=
  match g.waiting? i with
  | none => (.noTask, none, none, g)
  | some t =>
    match o with
    | none => (.pending, some t, none, g.setTask i { t with started := true })
    | some o =>
      (.done, some t, g.report t.key o,
        (g.settle t.key o).setTask i { t with started := true, finished := true })

end Gates

end Allotment
