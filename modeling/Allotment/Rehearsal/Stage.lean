import Allotment.Allocator.Step
import Allotment.Rehearsal.Script

/-!
# A world of scripts

`Stage.world` is a world in which everybody keeps to a script. Nobody goes on for ever there, so an
allocator comes to rest within its `budget` of steps.
-/

namespace Allotment.Rehearsal

structure Stage where
  expander : Expander := .identity
  scripts : List Script := []
  /-- For the gates of each number, how they answer at once, if they do. -/
  prompts : List (Option GateOutcome) := []
  /-- The parts of the clients, by endpoint; the first of two counts. -/
  parts : List (String × Part) := []
  /-- The event under which the outside sink breaks. -/
  lastEvent : Option Nat := none
  recorded : Nat := 0
  stamped : Nat := 0

namespace Stage

def part (s : Stage) (endpoint : String) : Part :=
  ((s.parts.find? (·.1 == endpoint)).map (·.2)).getD {}

def setPart (s : Stage) (endpoint : String) (p : Part) : Stage :=
  { s with parts := (endpoint, p) :: s.parts.filter fun x => x.1 != endpoint }

def setScript (s : Stage) (number : Nat) (x : Script) : Stage :=
  { s with scripts := s.scripts.set number x }

/-- Revises the script of a name, the last one if there are several. -/
def revise (s : Stage) (name : String) (r : Script.Revision) : Stage :=
  { s with scripts := Script.reviseLast name r s.scripts }

def revisePart (s : Stage) (endpoint : String) (replies : List Reply)
    (batches : List (List Submission)) : Stage :=
  s.setPart endpoint { s.part endpoint with replies, batches }

def setPrompt (s : Stage) (number : Nat) (o : Option GateOutcome) : Stage :=
  { s with prompts := s.prompts.set number o }

def receive (s : Stage) (endpoint : String) : Option (List Notice) × Stage :=
  match (s.part endpoint).channel with
  | none => (none, s)
  | some ch =>
    let (notices, ch) := ch.receive
    (notices, s.setPart endpoint { s.part endpoint with channel := some ch })

def abandon (s : Stage) (endpoint : String) : Stage :=
  s.setPart endpoint { s.part endpoint with channel := (s.part endpoint).channel.map (·.abandon) }

/-! ### The world -/

def advise (number : Nat) (h : Hook) (rs : ResourceSet) (s : Stage) :
    Answer × List Submission × Stage :=
  match s.scripts[number]? with
  | none => (Script.fallback h, [], s)
  | some x =>
    let (answer, x) := x.answer h rs
    let (submissions, x) := x.submissions h
    (answer, submissions, s.setScript number x)

def call (endpoint : String) (rs : ResourceSet) (s : Stage) : Reply × List Submission × Stage :=
  let (reply, p) := (s.part endpoint).reply rs
  let (submissions, p) := p.submissions
  (reply, submissions, s.setPart endpoint p)

/-- The task that a call has started asks its gate at once, if the gate answers at once. -/
def tasks (number : Nat) (task : Option Nat) (s : Stage) : List (Nat × Option GateOutcome) :=
  match task, s.prompts[number]? with
  | some i, some (some o) => [(i, some o)]
  | _, _ => []

def world : World Stage where
  expand rs s := (s.expander.expand rs, s)
  advise number h _ rs s := advise number h rs s
  tasks number task s := (tasks number task s, s)
  call c rs s := call c.endpoint rs s
  audit _ s := (s.lastEvent != some (s.recorded + 1), { s with recorded := s.recorded + 1 })
  stamp s := (.numbered s.stamped 0, { s with stamped := s.stamped + 1 })

/-! ### Coming to rest -/

/-- How many commands the scripts are still going to submit. -/
def remaining (s : Stage) : Nat :=
  s.scripts.foldl (fun n x => n + x.remaining) 0 + (s.parts.flatMap fun x => x.2.batches.flatten).length

end Stage

/-- More steps than an allocator can take among scripts. Each request is refused at most once, so
refusals and frees together cause at most as many retries as there are commands; a retry brings back
at most every request; and at each attempt every gate asks at most once to be looked at. -/
def budget (a : Allocator Stage) : Nat :=
  let n := a.queued + a.deferred.length + a.pending.length + a.setting.world.remaining + 2
  n * n * n * (a.setting.world.prompts.length + 1)

end Allotment.Rehearsal
