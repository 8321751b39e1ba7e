import Allotment.ResourceSet

/-!
# The audit trail

Every decision of an allocator can be recorded. A log keeps the latest events up to its capacity.
-/

namespace Allotment

inductive Decision
  | grant
  | defer
  | refuse
  | free
  | withdraw
deriving DecidableEq

def Decision.name : Decision → String
  | grant => "grant"
  | defer => "defer"
  | refuse => "refuse"
  | free => "free"
  | withdraw => "withdraw"

/-- What makes one event differ from any other: a name of its own and the time in milliseconds. -/
structure Stamp where
  id : String
  time : BitVec 128
deriving DecidableEq

def Stamp.digits (n : Nat) : String :=
  let ds := Nat.toDigits 16 n
  String.ofList (List.replicate (12 - ds.length) '0' ++ ds)

/-- The stamp of a number: no two numbers have the same one. -/
def Stamp.numbered (n : Nat) (time : BitVec 128) : Stamp where
  id := "00000000-0000-4000-8000-" ++ digits n
  time := time

structure AuditEvent where
  eventId : String
  client : ClientId
  action : String
  resources : ResourceSet
  createdAt : BitVec 128
  detail : Option String
deriving DecidableEq

def AuditEvent.build (s : Stamp) (client : ClientId) (action : String) (resources : ResourceSet)
    (detail : Option String) : AuditEvent :=
  { eventId := s.id, client, action, resources, createdAt := s.time, detail }

/-- The latest events, oldest first. -/
structure AuditLog where
  capacity : Nat
  events : List AuditEvent
  within : events.length ≤ capacity
deriving DecidableEq

namespace AuditLog

def empty (n : Nat) : AuditLog := ⟨n, [], n.zero_le⟩

/-- Adds an event at the end; a full log lets go of its oldest one. -/
def record (l : AuditLog) (e : AuditEvent) : AuditLog :=
  if nothing : l.capacity = 0 then l
  else
    { l with
      events := (if l.capacity ≤ l.events.length then l.events.tail else l.events) ++ [e]
      within := by
        have within := l.within
        split <;> simp <;> omega }

def actionsFor (l : AuditLog) (c : ClientId) : List String :=
  (l.events.filter (·.client == c)).map (·.action)

end AuditLog

/-- Sinks that work in memory, by their numbers. Each writes to the log at its place and shows what
is there, so sinks at one place share their log. -/
structure SharedLog where
  logs : List AuditLog
  places : List Nat
  /-- The number of the sink that an allocator works with. -/
  own : Nat
  placed : ∀ p ∈ places, p < logs.length
  present : own < places.length
deriving DecidableEq

namespace SharedLog

/-- One sink, with an empty log. -/
def new (n : Nat) : SharedLog where
  logs := [.empty n]
  places := [0]
  own := 0
  placed := by simp
  present := Nat.zero_lt_one

/-- How many sinks there are. -/
def size (l : SharedLog) : Nat := l.places.length

def log? (l : SharedLog) (i : Nat) : Option AuditLog := l.places[i]?.bind (l.logs[·]?)

def events? (l : SharedLog) (i : Nat) : Option (List AuditEvent) := (l.log? i).map (·.events)

def actionsFor? (l : SharedLog) (i : Nat) (c : ClientId) : Option (List String) :=
  (l.log? i).map (·.actionsFor c)

/-- Makes another sink on the log of the sink `i`; the answer is the number of the new one. -/
def clone (l : SharedLog) (i : Nat) : Option Nat × SharedLog :=
  match place : l.places[i]? with
  | some p =>
    (some l.size,
      { l with
        places := l.places ++ [p]
        placed := by
          intro q member
          rcases List.mem_append.1 member with old | new
          · exact l.placed q old
          · cases List.mem_singleton.1 new
            exact l.placed p (List.mem_of_getElem? place)
        present := by
          have present := l.present
          simp
          omega })
  | none => (none, l)

/-- The sink `i` records an event. -/
def recordAt (l : SharedLog) (i : Nat) (e : AuditEvent) : SharedLog :=
  match l.places[i]? with
  | some p =>
    { l with
      logs := l.logs.modify p (·.record e)
      placed := by simpa using l.placed }
  | none => l

def record (l : SharedLog) (e : AuditEvent) : SharedLog := l.recordAt l.own e

/-- The same sinks, another of which an allocator works with. -/
def attach (l : SharedLog) (i : Fin l.size) : SharedLog := { l with own := i, present := i.isLt }

end SharedLog

inductive AuditSink
  | nowhere
  | log (l : SharedLog)
  /-- Something outside, which may break. -/
  | outside
deriving DecidableEq

/-- Somebody clones one of the sinks on the log, if there is a log. -/
def AuditSink.clone (i : Nat) : AuditSink → Option Nat × AuditSink
  | .log l =>
    let (j, l) := l.clone i
    (j, .log l)
  | a => (none, a)

end Allotment
