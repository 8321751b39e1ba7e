import Allotment.Allocator.Step
import Allotment.Config.Basic

/-!
# Schedulers

A scheduler is an allocator at work: it is put together from its parts, started once, and owned by
somebody who can stop it. While it is parked its allocator waits with a report in its hands, and
commands queue up.

The functions that let the allocator work take a bound on the number of its steps.
-/

namespace Allotment

inductive Lifecycle
  | assembled
  | started
  | failed
deriving DecidableEq

structure Scheduler (σ : Type) where
  config : Config
  allocator : Allocator σ
  /-- Advisors whose place was taken by others before the start. -/
  replaced : List Advisor := []
  stage : Lifecycle := .assembled
  /-- The report that a parked allocator holds. -/
  parked : Option Snapshot := none
  /-- Its owner has waited for its end. -/
  awaited : Bool := false
  /-- Its owner has let go of it. -/
  dropped : Bool := false

namespace Scheduler

variable {σ : Type}

/-! ### Assembly -/

/-- The priority of what a scheduler submits itself. -/
def defaultPriority : Priority := default

def log? (c : Config) : Option SharedLog :=
  if c.hasLog then some (.new c.auditCapacity.toNat) else none

/-- Where decisions go: to an outside sink if there is one, else to the log. -/
def sinkOf (c : Config) (outside : Bool) : AuditSink :=
  if outside then .outside
  else match log? c with
    | some l => .log l
    | none => .nowhere

/-- Puts a scheduler together. Advisors that replace others take the whole chain over. -/
def assemble (c : Config) (advisors : List Advisor) (replacement : Option (List Advisor))
    (outside : Bool) (w : σ) : Scheduler σ where
  config := c
  allocator := .initial (replacement.getD advisors) (sinkOf c outside) w
  replaced := if replacement.isSome then advisors else []

/-! ### Views -/

/-- Every advisor it was given, in order, with its present state. -/
def advisors (s : Scheduler σ) : List Advisor := s.replaced ++ s.allocator.advisors

def stats (s : Scheduler σ) : Stats :=
  s.allocator.counters.stats s.allocator.queued (s.allocator.phase == .terminated)

def isClosed (s : Scheduler σ) : Bool := s.allocator.setting.queue.closed

/-- Makes another sink on the log, to look into it; the answer is its number. -/
def auditLog (s : Scheduler σ) : Option Nat × Scheduler σ :=
  let (i, sink) := s.allocator.sink.clone 0
  (i, { s with allocator := { s.allocator with sink } })

def events? (s : Scheduler σ) (i : Nat) : Option (List AuditEvent) :=
  match s.allocator.sink with
  | .log l => l.events? i
  | _ => none

def isWorking (s : Scheduler σ) : Bool := s.stage == .started && s.parked.isNone

def isOwned (s : Scheduler σ) : Bool := s.stage == .started && !s.dropped

/-! ### Submitting -/

def submit (x : Submission) (s : Scheduler σ) : Except SchedulerError Unit × Scheduler σ :=
  (if s.isClosed then .error .terminated else .ok (),
    { s with allocator := s.allocator.submit x })

def work (W : World σ) (steps : Nat) (s : Scheduler σ) : Scheduler σ :=
  if s.isWorking then { s with allocator := s.allocator.settle W steps } else s

/-! ### Starting and stopping -/

/-- Starts the allocator; nothing if that was tried before. -/
def start (s : Scheduler σ) : Option (Except SchedulerError Unit) × Scheduler σ :=
  match s.stage with
  | .assembled =>
    match s.config.fault? with
    | some f => (some (.error f.error), { s with stage := .failed })
    | none => (some (.ok ()), { s with stage := .started })
  | _ => (none, s)

/-- Asks the allocator to stop and waits for it, the first time; a parked one does not stop in time.
Nothing if nobody owns it. -/
def shutdown (W : World σ) (steps : Nat) (s : Scheduler σ) :
    Option (Except SchedulerError Unit) × Scheduler σ :=
  if s.isOwned then
    let s := (s.submit ⟨.shutdown, .normal⟩).2
    if s.awaited then (some (.ok ()), s.work W steps)
    else if s.parked.isSome then (some (.error .timeout), { s with awaited := true })
    else (some (.ok ()), { s.work W steps with awaited := true })
  else (none, s)

/-- Lets go of a scheduler, which asks it to stop. -/
def drop (s : Scheduler σ) : Scheduler σ :=
  if s.isOwned then { (s.submit ⟨.shutdown, .normal⟩).2 with dropped := true } else s

/-! ### Reports -/

/-- Asks for a report at a priority; the answer is the number of the command. -/
def requestReport (p : Priority) (s : Scheduler σ) : Nat × Scheduler σ :=
  (s.allocator.setting.queue.nextSeq, (s.submit ⟨.snapshot, p⟩).2)

def report? (seq : Nat) (s : Scheduler σ) : Option Snapshot :=
  s.allocator.setting.journal.report? seq

def snapshot (W : World σ) (steps : Nat) (s : Scheduler σ) :
    Except SchedulerError Snapshot × Scheduler σ :=
  if s.isClosed then (.error .terminated, s)
  else
    let (seq, s) := s.requestReport .normal
    let s := s.work W steps
    match s.report? seq with
    | some r => (.ok r, s)
    | none => (.error (if s.isClosed then .terminated else .timeout), s)

/-- What is known of a scheduler when it has come to rest. -/
inductive View
  | unknown
  | terminated
  | dead
  | at (s : Snapshot)

/-- Lets everything submitted so far be done: a report of low priority comes after it. -/
def settle (W : World σ) (steps : Nat) (s : Scheduler σ) : View × Scheduler σ :=
  if s.isWorking then
    let (seq, s) := s.requestReport .low
    let s := s.work W steps
    match s.allocator.phase, s.report? seq with
    | .terminated, _ => (.terminated, s)
    | .crashed, _ => (.dead, s)
    | .running, some r => (.at r, s)
    | .running, none => (.unknown, s)
  else (.unknown, s)

/-! ### Parking -/

/-- Whether it can be parked: it works and has nothing to do. -/
def canPark (s : Scheduler σ) : Bool :=
  s.isWorking && s.allocator.isRunning && s.allocator.isIdle

/-- Has the allocator make a report, ahead of everything else, and wait with it; `true` if so. -/
def park (W : World σ) (s : Scheduler σ) : Bool × Scheduler σ :=
  if s.canPark then
    let (seq, s) := s.requestReport .critical
    let s := { s with allocator := s.allocator.step W }
    (true, { s with parked := s.report? seq })
  else (false, s)

/-- Takes the report that a parked allocator holds, and lets it go on. -/
def unpark (s : Scheduler σ) : Option Snapshot × Scheduler σ :=
  (s.parked, { s with parked := none })

end Scheduler

end Allotment
