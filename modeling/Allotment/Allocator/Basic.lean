import Allotment.Advisor.Chain

/-!
# The allocator's state

The books of an allocator (who holds what, who waits, who is about to be called back) and the
setting it works in. Calls to the outside never touch the books.
-/

namespace Allotment

inductive Phase
  | running
  | terminated
  /-- The outside sink broke, and the allocator with it. -/
  | crashed
deriving DecidableEq

structure Allocator (σ : Type) where
  table : Table := ∅
  /-- Requests that wait, longest waiting first. -/
  deferred : List Request := []
  /-- Tentative grants, in the order in which they were made. -/
  pending : List Grant := []
  advisors : List Advisor := []
  counters : Counters := {}
  phase : Phase := .running
  sink : AuditSink := .nowhere
  setting : Setting σ

namespace Allocator

variable {σ : Type}

def isRunning (s : Allocator σ) : Bool := s.phase == .running

def queued (s : Allocator σ) : Nat := s.setting.queue.length

def note (e : Event) (s : Allocator σ) : Allocator σ := { s with setting := s.setting.note e }

def noteAll (es : List Event) (s : Allocator σ) : Allocator σ := es.foldl (fun s e => s.note e) s

def count (f : Counters → Counters) (s : Allocator σ) : Allocator σ :=
  { s with counters := f s.counters }

def snapshot (s : Allocator σ) : Snapshot where
  holders := s.table
  deferred := s.deferred.map fun r => ⟨r.client.id, r.resources⟩
  pendingPreparations := s.pending.map fun g => ⟨g.client, g.expanded⟩

/-! ### Calls to the outside -/

def expand (W : World σ) (rs : ResourceSet) (s : Allocator σ) : Option ResourceSet × Allocator σ :=
  let x := s.setting.note (.expanding rs)
  let (expanded, w) := W.expand rs x.world
  (expanded, { s with setting := { x with world := w } })

def question (W : World σ) (h : Hook) (c : ClientId) (rs : ResourceSet) (s : Allocator σ) :
    Bool × Allocator σ :=
  let (approved, advisors, setting) := Chain.question W h c rs s.advisors s.setting
  (approved, { s with advisors, setting })

def announce (W : World σ) (c : ClientId) (rs : ResourceSet) (s : Allocator σ) : Allocator σ :=
  let (advisors, setting) := Chain.announce W c rs s.advisors s.setting
  { s with advisors, setting }

def call (W : World σ) (g : Grant) (s : Allocator σ) : Reply × Allocator σ :=
  let (reply, submissions, w) := W.call g.request.client g.requested s.setting.world
  let x := { s.setting with world := w }.note (.called g reply)
  (reply, { s with setting := x.submitAll submissions })

/-- Hands an event to the sink; an outside sink may break under it. -/
def recordEvent (W : World σ) (e : AuditEvent) (s : Allocator σ) : Allocator σ :=
  match s.sink with
  | .nowhere => s
  | .log l => { s with sink := .log (l.record e) }
  | .outside =>
    let x := s.setting.note (.audited e)
    let (survives, w) := W.audit e x.world
    { s with
      setting := { x with world := w }
      phase := if survives then s.phase else .crashed }

def record (W : World σ) (d : Decision) (c : ClientId) (rs : ResourceSet) (detail : Option String)
    (s : Allocator σ) : Allocator σ :=
  let x := s.setting.note (.decided d c rs detail)
  let (stamp, w) := W.stamp x.world
  { s with setting := { x with world := w } }.recordEvent W
    (.build stamp c d.name rs detail)

/-- Submits what follows from the allocator's own work; one that has stopped submits nothing. -/
def followUp (cs : List Command) (s : Allocator σ) : Allocator σ :=
  if s.isRunning then
    { s with setting := s.setting.submitAll (cs.map fun c => ⟨c, .normal⟩) }
  else s

/-! ### The books -/

/-- Takes from `c` those of the resources that it holds. -/
def take (c : ClientId) (rs : ResourceSet) (cause : FreeCause) (s : Allocator σ) :
    ResourceSet × Allocator σ :=
  let (freed, table) := s.table.free c rs
  (freed, { s with table }.note (.freed c freed cause))

/-- Whether the client of a grant still holds all that is locked for it. -/
def isCovered (s : Allocator σ) (g : Grant) : Bool :=
  g.expanded.all fun r => s.table.holder r == some g.client

def cancelOrphaned (c : ClientId) (s : Allocator σ) : Allocator σ :=
  let orphaned := fun g : Grant => g.client == c && !s.isCovered g
  { s with pending := s.pending.filter fun g => !orphaned g }.noteAll
    ((s.pending.filter orphaned).map .cancelled)

/-! ### What the parts above leave alone -/

@[simp] theorem pending_note (e : Event) (s : Allocator σ) : (s.note e).pending = s.pending := rfl
@[simp] theorem table_note (e : Event) (s : Allocator σ) : (s.note e).table = s.table := rfl
@[simp] theorem deferred_note (e : Event) (s : Allocator σ) :
    (s.note e).deferred = s.deferred := rfl
@[simp] theorem phase_note (e : Event) (s : Allocator σ) : (s.note e).phase = s.phase := rfl

@[simp] theorem pending_count (f : Counters → Counters) (s : Allocator σ) :
    (s.count f).pending = s.pending := rfl

@[simp] theorem pending_noteAll (es : List Event) (s : Allocator σ) :
    (s.noteAll es).pending = s.pending := by
  induction es generalizing s with
  | nil => rfl
  | cons e es ih => exact ih (s.note e)

@[simp] theorem pending_question (W : World σ) (h : Hook) (c : ClientId) (rs : ResourceSet)
    (s : Allocator σ) : (s.question W h c rs).2.pending = s.pending := rfl

@[simp] theorem pending_announce (W : World σ) (c : ClientId) (rs : ResourceSet)
    (s : Allocator σ) : (s.announce W c rs).pending = s.pending := rfl

@[simp] theorem pending_call (W : World σ) (g : Grant) (s : Allocator σ) :
    (s.call W g).2.pending = s.pending := rfl

@[simp] theorem pending_recordEvent (W : World σ) (e : AuditEvent) (s : Allocator σ) :
    (s.recordEvent W e).pending = s.pending := by
  unfold recordEvent; split <;> rfl

@[simp] theorem pending_record (W : World σ) (d : Decision) (c : ClientId) (rs : ResourceSet)
    (detail : Option String) (s : Allocator σ) :
    (s.record W d c rs detail).pending = s.pending := pending_recordEvent ..

@[simp] theorem queue_noteAll (es : List Event) (s : Allocator σ) :
    (s.noteAll es).setting.queue = s.setting.queue := by
  induction es generalizing s with
  | nil => rfl
  | cons e es ih => exact ih (s.note e)

@[simp] theorem queue_record (W : World σ) (d : Decision) (c : ClientId) (rs : ResourceSet)
    (detail : Option String) (s : Allocator σ) :
    (s.record W d c rs detail).setting.queue = s.setting.queue := by
  unfold record recordEvent; dsimp only; split <;> rfl

@[simp] theorem pending_followUp (cs : List Command) (s : Allocator σ) :
    (s.followUp cs).pending = s.pending := by
  unfold followUp; split <;> rfl

@[simp] theorem pending_take (c : ClientId) (rs : ResourceSet) (cause : FreeCause)
    (s : Allocator σ) : (s.take c rs cause).2.pending = s.pending := rfl

theorem pending_cancelOrphaned (c : ClientId) (s : Allocator σ) :
    (s.cancelOrphaned c).pending = s.pending.filter fun g => !(g.client == c && !s.isCovered g) := by
  simp [cancelOrphaned]

theorem length_pending_cancelOrphaned_le (c : ClientId) (s : Allocator σ) :
    (s.cancelOrphaned c).pending.length ≤ s.pending.length := by
  rw [pending_cancelOrphaned]
  exact List.length_filter_le ..

end Allocator

end Allotment
