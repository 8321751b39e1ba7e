import Allotment.Allocator.Delivery

/-!
# What an allocator does with a command

`step` serves the next command of the queue. `run` is a whole history: submissions, steps, gates
that answer and changes of the world, in any order.
-/

namespace Allotment.Allocator

variable {σ : Type}

/-! ### Allocating -/

def unclaimed (s : Allocator σ) (c : ClientId) (rs : ResourceSet) : ResourceSet :=
  rs.filter fun r => !(s.table.holder r == some c)

def lock (W : World σ) (c : ClientId) (claimed : ResourceSet) (s : Allocator σ) :
    Bool × Allocator σ :=
  match s.table.allocateAll c claimed.toList with
  | .ok table => (true, { s with table })
  | .error _ => (false, { s with table := (s.table.free c claimed).2 }.announce W c claimed)

/-- Asks the advisors for leave, has them prepare, and locks. A preparation that fails is called
off at once. -/
def claim (W : World σ) (c : ClientId) (claimed : ResourceSet) (s : Allocator σ) :
    Bool × Allocator σ :=
  match s.question W .may c claimed with
  | (false, s) => (false, s)
  | (true, s) =>
    match s.question W .prepare c claimed with
    | (false, s) => (false, s.announce W c claimed)
    | (true, s) => s.lock W c claimed

/-- Expands a request and locks all of it or nothing. The answer is the expanded set and that part
of it that was locked. -/
def tryAllocate (W : World σ) (c : ClientId) (rs : ResourceSet) (s : Allocator σ) :
    Option (ResourceSet × ResourceSet) × Allocator σ :=
  match s.expand W rs with
  | (none, s) => (none, s)
  | (some expanded, s) =>
    if s.table.isAvailableFor expanded c then
      let claimed := s.unclaimed c expanded
      if claimed.isEmpty then (some (expanded, claimed), s)
      else
        match s.claim W c claimed with
        | (true, s) => (some (expanded, claimed), s)
        | (false, s) => (none, s)
    else (none, s)

def defer (W : World σ) (r : Request) (s : Allocator σ) : Allocator σ :=
  ({ s.count .addDeferral with deferred := s.deferred ++ [r] }.note (.deferred r)).record W
    .defer r.client.id r.resources none

def grant (W : World σ) (g : Grant) (s : Allocator σ) : Allocator σ :=
  ({ s with pending := s.pending ++ [g] }.note (.locked g)).completeIfPrepared W s.pending.length

def allocate (W : World σ) (r : Request) (s : Allocator σ) : Allocator σ :=
  match s.tryAllocate W r.client.id r.resources with
  | (none, s) => s.defer W r
  | (some (expanded, claimed), s) => s.grant W ⟨r, expanded, claimed⟩

/-! ### Checking, retrying, freeing -/

/-- Looks again at the oldest tentative grant that a set names. -/
def checkPrepared (W : World σ) (c : ClientId) (rs : ResourceSet) (s : Allocator σ) :
    Allocator σ :=
  match s.pending.findIdx? (·.isNamedBy c rs) with
  | none => s
  | some i => s.completeIfPrepared W i

/-- Puts every deferred request back into the queue, at its old place. -/
def retryDeferred (s : Allocator σ) : Allocator σ :=
  if s.deferred.isEmpty then s
  else
    let x := s.setting.note (.retried s.deferred)
    { s with
      deferred := []
      setting := { x with queue := (x.queue.requeue (s.deferred.map Request.queued)).2 } }

/-- What follows once resources were taken from `c`: grants that lost any are dropped, grants that
waited for these are delivered, and advisors and waiting requests will hear of it. -/
def afterFree (W : World σ) (c : ClientId) (freed : ResourceSet) (s : Allocator σ) :
    Allocator σ :=
  let s := (s.cancelOrphaned c).releaseBlocked W c
  if freed.isEmpty || !s.isRunning then s
  else
    ((s.count .addFree).record W .free c freed none).followUp [.released c freed, .retryDeferred]

def free (W : World σ) (c : ClientId) (rs : ResourceSet) (s : Allocator σ) : Allocator σ :=
  let (freed, s) := s.take c rs .asked
  s.afterFree W c freed

def freeAll (W : World σ) (c : ClientId) (s : Allocator σ) : Allocator σ :=
  s.free W c (s.table.allocationsOf c)

/-! ### Withdrawing and stopping -/

def union (rs : List Request) : ResourceSet := rs.foldl (fun a r => a ∪ r.resources) ∅

def withdraw (W : World σ) (c : ClientId) (s : Allocator σ) : Allocator σ :=
  let gone := s.deferred.filter (·.client.id == c)
  let s := { s with deferred := s.deferred.filter fun r => !(r.client.id == c) }.noteAll
    (gone.map .withdrawn)
  if (union gone).isEmpty then s else s.record W .withdraw c (union gone) none

def terminate (s : Allocator σ) : Allocator σ :=
  let x := s.setting.note (.stopped s.setting.queue.waiting s.deferred s.pending)
  { s with
    deferred := []
    pending := []
    phase := .terminated
    setting := { x with queue := x.queue.close.2 } }

@[simp] theorem pending_defer (W : World σ) (r : Request) (s : Allocator σ) :
    (s.defer W r).pending = s.pending := by simp [defer]

@[simp] theorem pending_retryDeferred (s : Allocator σ) : s.retryDeferred.pending = s.pending := by
  unfold retryDeferred; split <;> rfl

@[simp] theorem table_retryDeferred (s : Allocator σ) : s.retryDeferred.table = s.table := by
  unfold retryDeferred; split <;> rfl

@[simp] theorem pending_withdraw (W : World σ) (c : ClientId) (s : Allocator σ) :
    (s.withdraw W c).pending = s.pending := by
  unfold withdraw; dsimp only; split <;> simp

@[simp] theorem queue_withdraw (W : World σ) (c : ClientId) (s : Allocator σ) :
    (s.withdraw W c).setting.queue = s.setting.queue := by
  unfold withdraw; dsimp only; split <;> simp

/-! ### Steps -/

def process (W : World σ) (q : Queued) (s : Allocator σ) : Allocator σ :=
  match q.command with
  | .allocate c rs => s.allocate W ⟨c, rs, q.priority, q.seq⟩
  | .released c rs => s.announce W c rs
  | .checkPrepared c rs => s.checkPrepared W c rs
  | .retryDeferred => s.retryDeferred
  | .free c rs => s.free W c rs
  | .freeAll c => s.freeAll W c
  | .withdraw c => s.withdraw W c
  | .snapshot => s.note (.reported q.seq s.snapshot)
  | .shutdown => s.terminate

def accept (q : Queued) (rest : Queue) (s : Allocator σ) : Allocator σ :=
  { s.count .addProcessed with setting := { s.setting with queue := rest }.note (.took q) }

/-- Serves the next command. Nothing happens while none is there, or once the allocator has
stopped. -/
def step (W : World σ) (s : Allocator σ) : Allocator σ :=
  if s.isRunning then
    match s.setting.queue.take? with
    | none => s
    | some (q, rest) => (s.accept q rest).process W q
  else s

def isIdle (s : Allocator σ) : Bool := !s.isRunning || s.setting.queue.isEmpty

/-- Serves commands until none is left, at most the given number. -/
def settle (W : World σ) : Nat → Allocator σ → Allocator σ
  | 0, s => s
  | n + 1, s => if s.isIdle then s else settle W n (s.step W)

/-! ### Histories -/

def submit (x : Submission) (s : Allocator σ) : Allocator σ :=
  { s with setting := s.setting.submit x }

def pollGates (number i : Nat) (o : Option GateOutcome) :
    List Advisor → Setting σ → Gates.Poll × List Advisor × Setting σ
  | [], x => (.noTask, [], x)
  | .gates n g :: as, x =>
    if n = number then
      let (result, g, x) := Advisor.poll n g i o x
      (result, .gates n g :: as, x)
    else
      let (result, as, x) := pollGates number i o as x
      (result, .gates n g :: as, x)
  | a :: as, x =>
    let (result, as, x) := pollGates number i o as x
    (result, a :: as, x)

def poll (number i : Nat) (o : Option GateOutcome) (s : Allocator σ) :
    Gates.Poll × Allocator σ :=
  let (result, advisors, setting) := pollGates number i o s.advisors s.setting
  (result, { s with advisors, setting })

inductive Happening (σ : Type)
  | submit (x : Submission)
  | step
  | poll (number task : Nat) (o : Option GateOutcome)
  /-- The world moves on by itself. -/
  | shift (w : σ)

def apply (W : World σ) (s : Allocator σ) : Happening σ → Allocator σ
  | .submit x => s.submit x
  | .step => s.step W
  | .poll number task o => (s.poll number task o).2
  | .shift w => { s with setting := { s.setting with world := w } }

def run (W : World σ) (s : Allocator σ) (hs : List (Happening σ)) : Allocator σ :=
  hs.foldl (apply W) s

theorem run_append (W : World σ) (s : Allocator σ) (hs ks : List (Happening σ)) :
    s.run W (hs ++ ks) = (s.run W hs).run W ks := List.foldl_append

def initial (advisors : List Advisor) (sink : AuditSink) (w : σ) : Allocator σ where
  advisors := advisors
  sink := sink
  setting := { world := w }

end Allotment.Allocator
