import Mathlib.Data.List.Nodup
import Mathlib.Data.List.Perm.Subperm
import Allotment.Allocator.Step
import Allotment.Proofs.Books

/-!
# The docket of an allocator

Where every command stands: in the queue, in hand until it is carried out, among the deferred
requests, or behind a tentative grant. An `Act` is a change of the docket that is made as a whole;
unlike a `Turn` it also says what becomes of the queue and of the command in hand. `Sound` is what
every act and the taking of a command preserve.
-/

namespace Allotment

variable {σ : Type}

/-- Some allocator with the table and so many advisors does not get what is asked for. -/
def Objected (W : World σ) (advisors : Nat) (table : Table) (r : Request) : Prop :=
  ∃ s t : Allocator σ, s.table = table ∧ s.advisors.length = advisors ∧
    s.tryAllocate W r.client.id r.resources = (none, t)

structure Docket extends Books where
  queue : Queue := .empty
  /-- The command that was taken last, until it is carried out. -/
  hand : Option Queued := none
  /-- Releases after which a retry has still to be submitted. -/
  owed : Nat := 0
  /-- How many advisors there are to ask. -/
  advisors : Nat := 0

namespace Docket

def note (e : Event) (d : Docket) : Docket := { d with journal := e :: d.journal }

def enter (x : Submission) (d : Docket) : Docket :=
  { d.note (.entered ⟨x.command, x.priority, d.queue.nextSeq⟩) with
    queue := d.queue.enter x.command x.priority }

def take (q : Queued) (rest : Queue) (d : Docket) : Docket :=
  { d.note (.took q) with queue := rest, hand := some q }

/-- Puts every deferred request back into the queue. -/
def restore (d : Docket) : Docket :=
  { d.note (.retried d.deferred) with
    deferred := [], queue := (d.queue.requeue (d.deferred.map Request.queued)).2, hand := none }

/-- Takes from `c` what it holds of a set. A retry is owed if that is anything. -/
def strip (c : ClientId) (rs : ResourceSet) (cause : FreeCause) (d : Docket) : Docket :=
  { d with
    toBooks := d.toBooks.strip c rs cause
    owed := if (d.table.heldOf c rs).isEmpty then d.owed else d.owed + 1 }

def snapshot (d : Docket) : Snapshot where
  holders := d.table
  deferred := d.deferred.map fun r => ⟨r.client.id, r.resources⟩
  pendingPreparations := d.pending.map fun g => ⟨g.client, g.expanded⟩

/-- No request waits to be decided. -/
def Unasked (d : Docket) : Prop := ∀ r : Request, d.hand ≠ some r.queued

inductive Act (W : World σ) (d : Docket) : Docket → Prop
  | remark (e : Event) (remark : e.isRemark = true) : Act W d (d.note e)
  | enter (x : Submission) (opened : d.queue.closed = false) : Act W d (d.enter x)
  | crash (running : d.phase = .running) : Act W d { d with phase := .crashed }
  -- What becomes of a request in hand.
  | lock {g table} (hand : d.hand = some g.request.queued) (lockable : d.Lockable g table) :
      Act W d { d.note (.locked g) with table, pending := d.pending ++ [g], hand := none }
  | defer (r : Request) (hand : d.hand = some r.queued) (running : d.phase = .running)
      (objected : Objected W d.advisors d.table r) :
      Act W d { d.note (.deferred r) with deferred := d.deferred ++ [r], hand := none }
  -- What other commands do.
  | retry (q : Queued) (hand : d.hand = some q) (command : q.command = .retryDeferred)
      (running : d.phase = .running) : Act W d d.restore
  | withdraw (q : Queued) (c : ClientId) (hand : d.hand = some q)
      (command : q.command = .withdraw c) (running : d.phase = .running) :
      Act W d
        { d with
          deferred := d.deferred.filter fun r => !(r.client.id == c)
          journal := d.withdrawals c ++ d.journal }
  | report (q : Queued) (hand : d.hand = some q) (command : q.command = .snapshot) :
      Act W d (d.note (.reported q.seq d.snapshot))
  | stop (q : Queued) (hand : d.hand = some q) (command : q.command = .shutdown)
      (running : d.phase = .running) :
      Act W d
        { d.note (.stopped d.queue.waiting d.deferred d.pending) with
          deferred := [], pending := [], phase := .terminated, queue := d.queue.close.2 }
  | dismiss (q : Queued) (hand : d.hand = some q) (unasked : d.Unasked)
      (moot : q.command = .retryDeferred → d.deferred = []) : Act W d { d with hand := none }
  -- What becomes of grants and of what is held.
  | call {before g after} (reply : Reply) (unasked : d.Unasked) (ready : d.Ready before g after) :
      Act W d { d.note (.called g reply) with pending := before ++ after }
  | strip (c : ClientId) (rs : ResourceSet) (cause : FreeCause) (unasked : d.Unasked)
      (running : d.phase = .running) : Act W d (d.strip c rs cause)
  | notify (k : Nat) (owed : d.owed = k + 1) (opened : d.queue.closed = false) :
      Act W d { d.enter ⟨.retryDeferred, .normal⟩ with owed := k }
  | forgo (k : Nat) (owed : d.owed = k + 1)
      (silent : d.phase = .running → d.queue.closed = true) : Act W d { d with owed := k }

abbrev Acts (W : World σ) : Docket → Docket → Prop := Relation.ReflTransGen (Act W)

/-! ### Commands on their way -/

/-- The requests and the command that have left the queue and may not have been decided. -/
def line (d : Docket) : List Queued := d.deferred.map Request.queued ++ d.hand.toList

def circulating (d : Docket) : List Queued := d.queue.waiting ++ d.line

/-- No command comes into the queue, or leaves it otherwise than by being discarded. -/
structure Calm (d e : Docket) : Prop where
  queue : e.queue = d.queue ∨ e.queue = d.queue.close.2 ∧ e.phase ≠ .running
  line : e.line.Sublist d.line
  hand : e.hand = none ∨ e.hand = d.hand
  phase : e.phase = .running → d.phase = .running
  entries : ∃ es : List Event, (∀ x ∈ es, x.isTraffic = false) ∧ e.journal = es ++ d.journal

/-- The only acts that are not calm are those by which commands come in, and retries. -/
theorem Act.traffic {W : World σ} {d e : Docket} (act : Act W d e) :
    Calm d e ∨ (∃ x n, d.queue.closed = false ∧ e = { d.enter x with owed := n }) ∨
      d.phase = .running ∧ e = d.restore := by
  have same : d.line.Sublist d.line := .refl _
  cases act with
  | remark x remark =>
    exact .inl ⟨.inl rfl, same, .inr rfl, id, [x], by simpa using Event.traffic_of_remark remark,
      rfl⟩
  | enter x opened => exact .inr (.inl ⟨x, d.owed, opened, rfl⟩)
  | crash running => exact .inl ⟨.inl rfl, same, .inr rfl, fun h => (by cases h), [], by simp, rfl⟩
  | @lock g table hand =>
    refine .inl ⟨.inl rfl, ?_, .inl rfl, id, [.locked g], by simp [Event.isTraffic], rfl⟩
    exact (List.nil_sublist _).append_left _
  | defer r hand =>
    refine .inl ⟨.inl rfl, ?_, .inl rfl, id, [.deferred r], by simp [Event.isTraffic], rfl⟩
    simp [Docket.line, hand]
  | retry q hand command running => exact .inr (.inr ⟨running, rfl⟩)
  | withdraw q c hand command running =>
    refine .inl ⟨.inl rfl, ?_, .inr rfl, id, d.withdrawals c, fun e he => ?_, rfl⟩
    · exact (List.filter_sublist.map _).append_right _
    · obtain ⟨r, rfl⟩ := Books.mem_withdrawals he
      rfl
  | report q hand =>
    exact .inl ⟨.inl rfl, same, .inr rfl, id, [_], by simp [Event.isTraffic], rfl⟩
  | stop q hand command running =>
    refine .inl ⟨.inr ⟨rfl, by simp⟩, ?_, .inr rfl, fun h => (by cases h), [_],
      by simp [Event.isTraffic], rfl⟩
    exact (List.nil_sublist _).append_right _
  | dismiss q hand unasked moot =>
    exact .inl ⟨.inl rfl, (List.nil_sublist _).append_left _, .inl rfl, id, [], by simp, rfl⟩
  | @call before g after reply unasked ready =>
    exact .inl ⟨.inl rfl, same, .inr rfl, id, [_], by simp [Event.isTraffic], rfl⟩
  | strip c rs cause unasked running =>
    refine .inl ⟨.inl rfl, same, .inr rfl, id, d.losses c rs cause, fun e he => ?_,
      Books.journal_strip⟩
    obtain ⟨g, -, rfl⟩ | rfl := Books.mem_losses.mp he <;> rfl
  | notify n owed opened => exact .inr (.inl ⟨_, n, opened, rfl⟩)
  | forgo n owed silent => exact .inl ⟨.inl rfl, same, .inr rfl, id, [], by simp, rfl⟩

theorem Calm.waiting {d e : Docket} (calm : Calm d e) :
    e.queue.waiting.Sublist d.queue.waiting := by
  rcases calm.queue with same | ⟨closed, -⟩
  · rw [same]
  · rw [closed, Queue.waiting_close]
    exact List.nil_sublist _

theorem Calm.nextSeq {d e : Docket} (calm : Calm d e) : e.queue.nextSeq = d.queue.nextSeq := by
  rcases calm.queue with same | ⟨closed, -⟩
  · rw [same]
  · rw [closed]
    rfl

theorem Act.hand {W : World σ} {d e : Docket} (act : Act W d e) :
    e.hand = none ∨ e.hand = d.hand := by
  rcases act.traffic with calm | ⟨x, n, -, rfl⟩ | ⟨-, rfl⟩
  · exact calm.hand
  · exact .inr rfl
  · exact .inl rfl

theorem Act.untaken {W : World σ} {d e : Docket} (act : Act W d e) :
    ∃ es : List Event, (∀ x ∈ es, ∀ q, x ≠ .took q) ∧ e.journal = es ++ d.journal := by
  rcases act.traffic with ⟨-, -, -, -, es, he, same⟩ | ⟨x, n, -, rfl⟩ | ⟨-, rfl⟩
  · refine ⟨es, fun x hx q => ?_, same⟩
    rintro rfl
    exact absurd (he _ hx) (by simp [Event.isTraffic])
  · exact ⟨[.entered ⟨x.command, x.priority, d.queue.nextSeq⟩], by simp, rfl⟩
  · exact ⟨[.retried d.deferred], by simp, rfl⟩

/-- The docket's next command can be taken. -/
structure Next (d : Docket) (q : Queued) (rest : Queue) : Prop where
  running : d.phase = .running
  idle : d.hand = none
  told : d.owed = 0
  next : d.queue.take? = some (q, rest)

theorem waiting_restore {d : Docket} (opened : d.queue.closed = false) :
    d.restore.queue.waiting.Perm (d.deferred.map Request.queued ++ d.queue.waiting) :=
  Queue.waiting_requeue opened _

@[simp] theorem circulating_restore (d : Docket) :
    d.restore.circulating = d.restore.queue.waiting := List.append_nil _

theorem nextSeq_restore {d : Docket} (opened : d.queue.closed = false) :
    d.restore.queue.nextSeq = d.queue.nextSeq := by
  simp [restore, Queue.requeue, opened]

theorem Next.circulating {d : Docket} {q : Queued} {rest : Queue} (next : d.Next q rest) :
    (d.take q rest).circulating.Perm d.circulating := by
  have perm := (Queue.waiting_of_take? next.next).1
  simp only [Docket.circulating, Docket.line, Docket.take, note, next.idle, Option.toList_none,
    Option.toList_some, List.append_nil]
  refine List.Perm.trans ?_ (perm.append_right _).symm
  rw [← List.append_assoc]
  exact List.perm_append_comm

/-! ### Numbers -/

/-- Commands are numbered as they come in, and one that circulates has come in and is there only
once. -/
structure Regular (d : Docket) : Prop where
  opened : d.phase = .running → d.queue.closed = false
  numbers : d.journal.entered.map (·.seq) = (List.range d.queue.nextSeq).reverse
  issued : d.circulating.Subperm d.journal.entered
  served : ∀ q, d.hand = some q → d.journal.served? = some q

namespace Regular

variable {d e : Docket}

theorem seq_lt (h : d.Regular) {q : Queued} (hq : q ∈ d.journal.entered) :
    q.seq < d.queue.nextSeq := by
  have number : q.seq ∈ d.journal.entered.map (·.seq) := List.mem_map_of_mem hq
  rw [h.numbers] at number
  simpa using number

theorem eq_of_seq (h : d.Regular) {p q : Queued} (hp : p ∈ d.journal.entered)
    (hq : q ∈ d.journal.entered) (same : p.seq = q.seq) : p = q := by
  refine List.inj_on_of_nodup_map ?_ hp hq same
  rw [h.numbers]
  exact List.nodup_reverse.mpr List.nodup_range

theorem nodup_entered (h : d.Regular) : d.journal.entered.Nodup := by
  refine List.Nodup.of_map (·.seq) ?_
  rw [h.numbers]
  exact List.nodup_reverse.mpr List.nodup_range

theorem nodup_circulating (h : d.Regular) : d.circulating.Nodup := by
  obtain ⟨l, perm, sublist⟩ := h.issued
  exact perm.nodup_iff.mp (h.nodup_entered.sublist sublist)

theorem calm (h : d.Regular) (calm : Calm d e) : e.Regular := by
  obtain ⟨es, he, journal⟩ := calm.entries
  refine ⟨fun running => ?_, ?_, ?_, fun q hq => ?_⟩
  · rw [calm.queue.resolve_right fun closed => closed.2 running]
    exact h.opened (calm.phase running)
  · rw [journal, Journal.entered_append he, calm.nextSeq]
    exact h.numbers
  · rw [journal, Journal.entered_append he]
    exact (calm.waiting.append calm.line).subperm.trans h.issued
  · rcases calm.hand with none | same
    · rw [none] at hq
      cases hq
    · rw [journal, Journal.served?_append fun x hx q => ?_]
      · exact h.served q (same ▸ hq)
      · rintro rfl
        exact absurd (he _ hx) (by simp [Event.isTraffic])

theorem enter (h : d.Regular) (opened : d.queue.closed = false) (x : Submission) (n : Nat) :
    Regular { d.enter x with owed := n } := by
  refine ⟨fun _ => opened, ?_, ?_, h.served⟩
  · show d.queue.nextSeq :: _ = (List.range (d.queue.nextSeq + 1)).reverse
    rw [List.range_succ, List.reverse_append, List.reverse_singleton]
    exact congrArg (d.queue.nextSeq :: ·) h.numbers
  · have waiting := (Queue.waiting_enter d.queue x.command x.priority).append_right d.line
    exact waiting.subperm.trans (List.subperm_cons _ |>.mpr h.issued)

theorem restore (h : d.Regular) (running : d.phase = .running) : d.restore.Regular := by
  have opened := h.opened running
  have still : d.restore.queue.closed = false := by simp [Docket.restore, Queue.requeue, opened]
  refine ⟨fun _ => still, nextSeq_restore opened ▸ h.numbers, ?_, fun _ hq => by cases hq⟩
  rw [circulating_restore]
  refine ((waiting_restore opened).trans List.perm_append_comm).subperm.trans ?_
  refine List.Subperm.trans ?_ h.issued
  exact ((List.sublist_append_left _ _).append_left _).subperm

theorem act {W : World σ} (act : Act W d e) (h : d.Regular) : e.Regular := by
  rcases act.traffic with calm | ⟨x, n, opened, rfl⟩ | ⟨running, rfl⟩
  · exact h.calm calm
  · exact h.enter opened x n
  · exact h.restore running

theorem take {q : Queued} {rest : Queue} (next : d.Next q rest) (h : d.Regular) :
    (d.take q rest).Regular := by
  obtain ⟨-, number, -, opened⟩ := Queue.waiting_of_take? next.next
  refine ⟨fun _ => opened, ?_, next.circulating.subperm.trans h.issued, fun p hp => ?_⟩
  · show List.map _ (Journal.entered d.journal) = _
    rw [h.numbers]
    exact congrArg (fun n => (List.range n).reverse) number.symm
  · obtain rfl : q = p := Option.some.inj hp
    rfl

end Regular

/-! ### Order -/

theorem Act.inOrder {W : World σ} {d e : Docket} (act : Act W d e) (h : d.InOrder) :
    e.InOrder := by
  have write (es : List Event) (still : ∀ x ∈ es, x.isStill = true) :
      (d.toBooks.write es).InOrder := h.write still
  -- The order is on the table, the tentative grants and the journal; the rest may change.
  have same {b : Books} (k : b.InOrder) (deferred : List Request) (phase : Phase) :
      Books.InOrder { b with deferred, phase } := ⟨k.ledger, k.covered, k.claims, k.apart⟩
  have enter (x : Submission) : (d.enter x).InOrder :=
    write [.entered ⟨x.command, x.priority, d.queue.nextSeq⟩] (by simp [Event.isStill])
  cases act with
  | remark x remark =>
    exact write [x] (by simpa using Event.still_of_remark remark)
  | enter x => exact enter x
  | crash running => exact same h d.deferred .crashed
  | lock hand lockable => exact h.lock lockable
  | defer r => exact same (write [.deferred r] (by simp [Event.isStill])) _ d.phase
  | retry => exact same (write [.retried d.deferred] (by simp [Event.isStill])) [] d.phase
  | withdraw q c =>
    refine same (write _ fun x hx => ?_) _ d.phase
    obtain ⟨r, rfl⟩ := Books.mem_withdrawals hx
    rfl
  | report q => exact write [.reported q.seq d.snapshot] (by simp [Event.isStill])
  | stop q =>
    obtain ⟨ledger, -, -, -⟩ := h
    exact ⟨ledger, by simp, by simp, .nil⟩
  | dismiss => exact h
  | @call before g after reply unasked ready =>
    have rest := Books.InOrder.sublist_of_split ready.split
    exact ⟨h.ledger, fun k hk => h.covered k (rest.subset hk),
      fun k hk => h.claims k (rest.subset hk), h.apart.sublist rest⟩
  | strip c rs cause => exact h.strip
  | notify n => exact enter _
  | forgo => exact h

/-- The numbers are regular and the books in order. -/
structure Sound (d : Docket) : Prop where
  regular : d.Regular
  inOrder : d.InOrder

theorem Sound.act {W : World σ} {d e : Docket} (act : Act W d e) (h : d.Sound) : e.Sound :=
  ⟨h.regular.act act, act.inOrder h.inOrder⟩

theorem Sound.take {d : Docket} {q : Queued} {rest : Queue} (next : Next d q rest) (h : d.Sound) :
    (d.take q rest).Sound := by
  have still : ∀ e ∈ [Event.took q], e.isStill = true := by simp [Event.isStill]
  exact ⟨h.regular.take next, h.inOrder.write still⟩

end Docket

namespace Allocator

/-- The docket of an allocator that has the command in hand and owes so many retries. -/
def docket (hand : Option Queued) (owed : Nat) (s : Allocator σ) : Docket where
  toBooks := s.books
  queue := s.setting.queue
  hand := hand
  owed := owed
  advisors := s.advisors.length

end Allocator

end Allotment
