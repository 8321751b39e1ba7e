import Mathlib.Data.Prod.Lex
import Allotment.Proofs.Exclusion
import Allotment.Proofs.Serving

/-!
# Coming to rest

While nobody submits anything, an allocator serves what waits and then rests. What is left to do
(`load`) decreases with every command: requests and releases that are still to be settled come
first, then retries, then requests in the queue, then whatever else waits. A refusal or a release
settles something for the retry that it brings about, and a retry only moves requests from one place
to the other.
-/

namespace Allotment

variable {σ : Type} {W : World σ}

/-- Advisors and clients submit nothing while they are called. Gates report all the same. -/
structure World.Silent (W : World σ) : Prop where
  advise : ∀ number h c rs w, (W.advise number h c rs w).2.1 = []
  call : ∀ d rs w, (W.call d rs w).2.1 = []

namespace Command

def isAsk : Command → Bool
  | allocate .. => true
  | _ => false

def isCheck : Command → Bool
  | checkPrepared .. => true
  | _ => false

def isRetry : Command → Bool
  | retryDeferred => true
  | _ => false

end Command

theorem World.Silent.submits (silent : W.Silent) : W.Submits fun x => x.command.isCheck = true where
  checks _ _ := rfl
  advise number h c rs w s hs := by
    rw [silent.advise] at hs
    cases hs
  call d rs w s hs := by
    rw [silent.call] at hs
    cases hs

/-! ### Tasks and what waits -/

namespace Gates

/-- How many tasks have not finished. -/
def underway (g : Gates) : Nat := g.tasks.countP fun t => !t.finished

theorem underway_setTask {g : Gates} {i : Nat} {t : GateTask} (waits : g.waiting? i = some t)
    (u : GateTask) :
    (g.setTask i u).underway + (if u.finished then 1 else 0) = g.underway := by
  obtain ⟨found, unfinished⟩ := Option.filter_eq_some_iff.mp waits
  obtain ⟨hi, rfl⟩ := List.getElem?_eq_some_iff.mp found
  have some : 0 < g.underway := List.countP_pos_iff.mpr ⟨_, List.getElem_mem hi, unfinished⟩
  have changed : (g.setTask i u).underway = _ := List.countP_set hi
  rw [changed, if_pos unfinished]
  unfold underway at some ⊢
  cases u.finished <;> simp <;> omega

/-- A task reports once, and then it has finished. -/
theorem underway_poll (g : Gates) (i : Nat) (o : Option GateOutcome) :
    (g.poll i o).2.2.2.underway + (g.poll i o).2.2.1.toList.length ≤ g.underway := by
  unfold poll
  cases waits : g.waiting? i with
  | none => simp
  | some t =>
    obtain ⟨-, unfinished⟩ := Option.filter_eq_some_iff.mp waits
    cases o with
    | none =>
      have same := underway_setTask waits { t with started := true }
      rw [if_neg (by simpa using unfinished)] at same
      exact Nat.le_of_eq same
    | some o =>
      have settled : (g.settle t.key o).waiting? i = some t := waits
      have less := underway_setTask settled { t with started := true, finished := true }
      have kept : (g.settle t.key o).underway = g.underway := rfl
      have once : (g.report t.key o).toList.length ≤ 1 := by
        cases g.report t.key o <;> simp
      rw [if_pos rfl] at less
      dsimp only
      omega

end Gates

namespace Setting

variable {x y : Setting σ} {p : Command → Bool}

/-- How many commands of a kind wait. -/
def count (p : Command → Bool) (x : Setting σ) : Nat :=
  x.queue.waiting.countP fun q => p q.command

theorem count_true (x : Setting σ) : x.count (fun _ => true) = x.queue.length := by
  rw [count, List.countP_true, Queue.length_waiting]

theorem count_submit (p : Command → Bool) (s : Submission) (x : Setting σ) :
    (x.submit s).count p ≤ x.count p + if p s.command then 1 else 0 := by
  unfold submit
  split
  · exact Nat.le_add_right ..
  · have entered := (Queue.waiting_enter x.queue s.command s.priority).countP_eq
      fun q => p q.command
    rw [List.countP_cons] at entered
    exact Nat.le_of_eq entered

theorem count_submitAll (p : Command → Bool) (ss : List Submission) (x : Setting σ) :
    (x.submitAll ss).count p ≤ x.count p + ss.countP fun s => p s.command := by
  induction ss generalizing x with
  | nil => exact Nat.le_refl _
  | cons s ss ih =>
    have first := count_submit p s x
    have rest : (x.submitAll (s :: ss)).count p ≤ _ := ih (x.submit s)
    rw [List.countP_cons]
    omega

theorem length_submitAll (ss : List Submission) (x : Setting σ) :
    (x.submitAll ss).queue.length ≤ x.queue.length + ss.length := by
  have all := count_submitAll (fun _ => true) ss x
  rwa [count_true, count_true, List.countP_true] at all

theorem count_requeue (opened : x.queue.closed = false) (ks : List Request)
    (p : Command → Bool) :
    count p { x with queue := (x.queue.requeue (ks.map Request.queued)).2 } =
      (ks.countP fun k => p k.queued.command) + x.count p := by
  have perm := Queue.waiting_requeue opened (ks.map Request.queued)
  unfold count
  rw [perm.countP_eq, List.countP_append, List.countP_map]
  rfl

/-- Checks are all that comes in while advisors are asked. -/
theorem Stirs.count (h : Stirs (fun s => s.command.isCheck = true) x y)
    (other : ∀ c, c.isCheck = true → p c = false) : y.count p ≤ x.count p := by
  induction h with
  | refl => exact Nat.le_refl _
  | @tail y z _ stir ih =>
    cases stir with
    | turn w => exact ih
    | note e => exact ih
    | submit s check =>
      have entered := count_submit p s y
      rw [other s.command check] at entered
      exact Nat.le_trans entered ih

end Setting

namespace Advisor

def underway : Advisor → Nat
  | gates _ g => g.underway
  | zones _ | outside .. => 0

theorem queue_noted_poll (number : Nat) (g : Gates) (i : Nat) (o : Option GateOutcome)
    (x : Setting σ) :
    (poll number g i o x).2.2.queue.length ≤
      x.queue.length + (g.poll i o).2.2.1.toList.length := by
  unfold poll
  rcases g.poll i o with ⟨result, task, report, g'⟩
  dsimp only
  refine Nat.le_trans (Setting.length_submitAll _ _) ?_
  rw [List.length_map]
  cases task <;> cases o <;> simp <;> split <;> rfl

theorem bulk_poll (number : Nat) (g : Gates) (i : Nat) (o : Option GateOutcome) (x : Setting σ) :
    (poll number g i o x).2.1.underway + (poll number g i o x).2.2.queue.length ≤
      g.underway + x.queue.length := by
  have tasks := g.underway_poll i o
  have queue := queue_noted_poll number g i o x
  have same : (poll number g i o x).2.1 = (g.poll i o).2.2.2 := rfl
  rw [same]
  omega

theorem bulk_pollAll (number : Nat) (polls : List (Nat × Option GateOutcome)) (g : Gates)
    (x : Setting σ) :
    (pollAll number polls g x).1.underway + (pollAll number polls g x).2.queue.length ≤
      g.underway + x.queue.length := by
  induction polls generalizing g x with
  | nil => exact Nat.le_refl _
  | cons p polls ih => exact Nat.le_trans (ih _ _) (bulk_poll number g p.1 p.2 x)

/-- Only a preparation starts a task. -/
theorem bulk_ask (silent : W.Silent) {h : Hook} (idle : h ≠ .prepare) (c : ClientId)
    (rs : ResourceSet) (a : Advisor) (x : Setting σ) :
    (ask W h c rs a x).2.1.underway + (ask W h c rs a x).2.2.queue.length ≤
      a.underway + x.queue.length := by
  cases a with
  | zones z => exact Nat.le_refl _
  | outside number name =>
    have none := silent.advise number h c rs x.world
    unfold ask
    dsimp only
    rw [none]
    exact Nat.le_refl _
  | gates number g =>
    have asked : (g.ask h c rs).2.2.underway = g.underway ∧ (g.ask h c rs).2.1 = false := by
      cases h with
      | prepare => exact absurd rfl idle
      | may | complete | released => exact ⟨rfl, rfl⟩
    unfold ask askGates
    rcases found : g.ask h c rs with ⟨answer, started, g'⟩
    rw [found] at asked
    obtain ⟨same, rfl⟩ := asked
    have same : g'.underway = g.underway := same
    have polled := bulk_pollAll number (W.tasks number none x.world).1 g'
      { x with world := (W.tasks number none x.world).2 }
    rw [same] at polled
    dsimp only
    rw [found]
    exact polled

end Advisor

namespace Chain

/-- What advisors have under way. -/
def underway : List Advisor → Nat
  | [] => 0
  | a :: as => a.underway + underway as

theorem underway_cons (a : Advisor) (as : List Advisor) :
    underway (a :: as) = a.underway + underway as := rfl

theorem bulk_consult (silent : W.Silent) {h : Hook} (idle : h ≠ .prepare) (c : ClientId)
    (rs : ResourceSet) (as : List Advisor) (x : Setting σ) :
    underway (consult (Advisor.ask W h c rs) as x).2.1 +
        (consult (Advisor.ask W h c rs) as x).2.2.queue.length ≤
      underway as + x.queue.length := by
  induction as generalizing x with
  | nil => exact Nat.le_refl _
  | cons a as ih =>
    have first := Advisor.bulk_ask silent idle c rs a x
    unfold consult
    rcases asked : Advisor.ask W h c rs a x with ⟨answer, b, y⟩
    rw [asked] at first
    have rest := ih y
    rcases later : consult (Advisor.ask W h c rs) as y with ⟨approved, bs, z⟩
    rw [later] at rest
    dsimp only at first rest ⊢
    rw [later, underway_cons]
    split
    · show underway (b :: bs) + z.queue.length ≤ _
      rw [underway_cons]
      omega
    · show underway (b :: as) + y.queue.length ≤ _
      rw [underway_cons]
      omega

theorem bulk_notify (silent : W.Silent) {h : Hook} (idle : h ≠ .prepare) (c : ClientId)
    (rs : ResourceSet) (as : List Advisor) (x : Setting σ) :
    underway (notify (Advisor.ask W h c rs) as x).1 +
        (notify (Advisor.ask W h c rs) as x).2.queue.length ≤
      underway as + x.queue.length := by
  induction as generalizing x with
  | nil => exact Nat.le_refl _
  | cons a as ih =>
    have first := Advisor.bulk_ask silent idle c rs a x
    unfold notify
    rcases asked : Advisor.ask W h c rs a x with ⟨answer, b, y⟩
    rw [asked] at first
    have rest := ih y
    dsimp only at first rest ⊢
    rw [underway_cons, underway_cons]
    omega

end Chain

/-! ### What is left to do -/

namespace Allocator

variable {s t u : Allocator σ}

def asks (s : Allocator σ) : Nat := s.setting.count Command.isAsk

def frees (s : Allocator σ) : Nat := s.setting.count Command.isFree

def retries (s : Allocator σ) : Nat := s.setting.count Command.isRetry

/-- Requests and releases that are not settled yet. -/
def outstanding (s : Allocator σ) : Nat :=
  s.asks + s.frees + s.deferred.length + s.pending.length

/-- What waits, and what tasks may still report. -/
def bulk (s : Allocator σ) : Nat := Chain.underway s.advisors + s.queued

def load (s : Allocator σ) : Nat ×ₗ Nat ×ₗ Nat ×ₗ Nat :=
  toLex (s.outstanding, toLex (s.retries, toLex (s.asks, s.bulk)))

theorem load_lt_iff : t.load < s.load ↔ t.outstanding < s.outstanding ∨
    t.outstanding = s.outstanding ∧ (t.retries < s.retries ∨
      t.retries = s.retries ∧ (t.asks < s.asks ∨ t.asks = s.asks ∧ t.bulk < s.bulk)) := by
  simp only [load, Prod.Lex.toLex_lt_toLex]

theorem load_le_iff : t.load ≤ s.load ↔ t.outstanding < s.outstanding ∨
    t.outstanding = s.outstanding ∧ (t.retries < s.retries ∨
      t.retries = s.retries ∧ (t.asks < s.asks ∨ t.asks = s.asks ∧ t.bulk ≤ s.bulk)) := by
  simp only [load, Prod.Lex.toLex_le_toLex]

theorem outstanding_le_of_load (h : t.load ≤ s.load) : t.outstanding ≤ s.outstanding := by
  have order := load_le_iff.mp h
  omega

/-- Nowhere is there more to do, but for what tasks report. -/
structure Eases (s t : Allocator σ) : Prop where
  asks : t.asks ≤ s.asks
  frees : t.frees ≤ s.frees
  retries : t.retries ≤ s.retries
  deferred : t.deferred.length ≤ s.deferred.length
  pending : t.pending.length ≤ s.pending.length

namespace Eases

theorem refl (s : Allocator σ) : Eases s s :=
  ⟨Nat.le_refl _, Nat.le_refl _, Nat.le_refl _, Nat.le_refl _, Nat.le_refl _⟩

theorem trans (h : Eases s t) (k : Eases t u) : Eases s u :=
  ⟨k.asks.trans h.asks, k.frees.trans h.frees, k.retries.trans h.retries,
    k.deferred.trans h.deferred, k.pending.trans h.pending⟩

theorem outstanding (h : Eases s t) : t.outstanding ≤ s.outstanding := by
  obtain ⟨asks, frees, -, deferred, pending⟩ := h
  unfold Allocator.outstanding
  omega

theorem load_le (h : Eases s t) (bulk : t.bulk ≤ s.bulk) : t.load ≤ s.load := by
  have outstanding := h.outstanding
  have retries := h.retries
  have asks := h.asks
  rw [load_le_iff]
  omega

theorem of_queue (queue : t.setting.queue = s.setting.queue)
    (deferred : t.deferred.length ≤ s.deferred.length)
    (pending : t.pending.length ≤ s.pending.length) : Eases s t := by
  have same (p : Command → Bool) : t.setting.count p = s.setting.count p := by
    unfold Setting.count
    rw [queue]
  exact ⟨Nat.le_of_eq (same _), Nat.le_of_eq (same _), Nat.le_of_eq (same _), deferred, pending⟩

/-- Only checks have come in. -/
theorem of_stirs {x : Setting σ} (stirs : s.setting.Stirs (fun x => x.command.isCheck = true) x) :
    Eases s { s with setting := x } := by
  refine ⟨stirs.count ?_, stirs.count ?_, stirs.count ?_, Nat.le_refl _, Nat.le_refl _⟩ <;>
    intro c check <;> cases c <;> first | rfl | cases check

end Eases

/-! ### Calls to the outside -/

theorem eases_question (silent : W.Silent) (h : Hook) (c : ClientId) (rs : ResourceSet)
    (s : Allocator σ) : Eases s (s.question W h c rs).2 :=
  (Eases.of_stirs (Setting.stirs_consult silent.submits h c rs s.advisors s.setting)).trans
    (.of_queue rfl (Nat.le_refl _) (Nat.le_refl _))

theorem bulk_question (silent : W.Silent) {h : Hook} (idle : h ≠ .prepare) (c : ClientId)
    (rs : ResourceSet) (s : Allocator σ) : (s.question W h c rs).2.bulk ≤ s.bulk :=
  Chain.bulk_consult silent idle c rs s.advisors s.setting

theorem eases_announce (silent : W.Silent) (c : ClientId) (rs : ResourceSet) (s : Allocator σ) :
    Eases s (s.announce W c rs) :=
  (Eases.of_stirs (Setting.stirs_notify silent.submits .released c rs s.advisors s.setting)).trans
    (.of_queue rfl (Nat.le_refl _) (Nat.le_refl _))

theorem bulk_announce (silent : W.Silent) (c : ClientId) (rs : ResourceSet) (s : Allocator σ) :
    (s.announce W c rs).bulk ≤ s.bulk :=
  Chain.bulk_notify silent (by simp) c rs s.advisors s.setting

theorem eases_count (f : Counters → Counters) (s : Allocator σ) : Eases s (s.count f) :=
  .of_queue rfl (Nat.le_refl _) (Nat.le_refl _)

theorem eases_record (W : World σ) (d : Decision) (c : ClientId) (rs : ResourceSet)
    (detail : Option String) (s : Allocator σ) : Eases s (s.record W d c rs detail) := by
  obtain ⟨es, phase, -, -, books⟩ := books_record W d c rs detail s
  have deferred := congrArg (·.deferred.length) books
  exact .of_queue (queue_record ..) (Nat.le_of_eq deferred) (Nat.le_of_eq (by simp))

theorem eases_call (silent : W.Silent) (g : Grant) (s : Allocator σ) :
    Eases s (s.call W g).2 := by
  have none := silent.call g.request.client g.requested s.setting.world
  unfold call
  rcases answer : W.call g.request.client g.requested s.setting.world with ⟨reply, submissions, w⟩
  rw [answer] at none
  obtain rfl : submissions = [] := none
  exact .of_queue rfl (Nat.le_refl _) (Nat.le_refl _)

theorem eases_asks (silent : W.Silent) (h : Asks W s t) : Eases s t := by
  induction h with
  | refl => exact .refl s
  | tail _ ask ih =>
    refine ih.trans ?_
    cases ask with
    | expand rs => exact .of_queue rfl (Nat.le_refl _) (Nat.le_refl _)
    | question h c rs => exact eases_question silent h c rs _
    | announce c rs => exact eases_announce silent c rs _

theorem eases_isReady (silent : W.Silent) {earlier : List Grant} {g : Grant} {ready : Bool}
    (looked : s.isReady W earlier g = (ready, t)) : Eases s t ∧ t.bulk ≤ s.bulk := by
  unfold isReady at looked
  split at looked
  · cases looked
    exact ⟨.refl s, Nat.le_refl _⟩
  · split at looked
    · cases looked
      exact ⟨.refl s, Nat.le_refl _⟩
    · have eases := eases_question silent .complete g.client g.claimed s
      have bulk := bulk_question silent (by simp) g.client g.claimed s (h := .complete)
      rw [looked] at eases bulk
      exact ⟨eases, bulk⟩

/-- What an allocator submits itself settles nothing and asks for nothing. -/
theorem outstanding_followUp {cs : List Command}
    (idle : ∀ c ∈ cs, c.isAsk = false ∧ c.isFree = false) (s : Allocator σ) :
    (s.followUp cs).outstanding ≤ s.outstanding := by
  unfold followUp
  split
  · have none (p : Command → Bool) (h : ∀ c ∈ cs, p c = false) :
        (s.setting.submitAll (cs.map fun c => ⟨c, .normal⟩)).count p ≤ s.setting.count p := by
      have all := Setting.count_submitAll p (cs.map fun c => ⟨c, .normal⟩) s.setting
      rw [List.countP_map, List.countP_eq_zero.mpr] at all
      · exact all
      · intro c hc
        simpa using h c hc
    have asks := none Command.isAsk fun c hc => (idle c hc).1
    have frees := none Command.isFree fun c hc => (idle c hc).2
    unfold outstanding Allocator.asks Allocator.frees
    dsimp only
    omega
  · exact Nat.le_refl _

/-! ### Delivering -/

theorem eases_cancelOrphaned (c : ClientId) (s : Allocator σ) : Eases s (s.cancelOrphaned c) := by
  have books := congrArg (·.deferred.length) (journal_noteAll
    ((s.pending.filter fun g => g.client == c && !s.isCovered g).map .cancelled)
    { s with pending := s.pending.filter fun g => !(g.client == c && !s.isCovered g) })
  exact .of_queue (queue_noteAll ..) (Nat.le_of_eq books) (length_pending_cancelOrphaned_le c s)

theorem outstanding_refuseGrant (silent : W.Silent) (g : Grant) (s : Allocator σ) :
    (s.refuseGrant W g).outstanding ≤ s.outstanding := by
  let taken := ((s.count .addRefusal).take g.client g.expanded .refused).2
  let freed := s.table.heldOf g.client g.expanded
  have took : Eases s taken := .of_queue rfl (Nat.le_refl _) (Nat.le_refl _)
  have stripped := took.trans (eases_cancelOrphaned g.client taken)
  have told : Eases s ((taken.cancelOrphaned g.client).announceFreed W g.client freed) := by
    unfold announceFreed
    split
    · exact stripped
    · exact stripped.trans (eases_announce silent ..)
  have recorded := told.trans (eases_record W .refuse g.client g.requested
    (some (refusalDetail freed)) _)
  unfold refuseGrant
  dsimp only
  split
  · exact recorded.outstanding
  · refine (outstanding_followUp ?_ _).trans recorded.outstanding
    simp [Command.isAsk, Command.isFree]

theorem outstanding_deliver (silent : W.Silent) (g : Grant) (s : Allocator σ) :
    (s.deliver W g).outstanding ≤ s.outstanding := by
  have called := (eases_call silent g s).outstanding
  unfold deliver
  rcases answer : s.call W g with ⟨reply, t⟩
  rw [answer] at called
  cases reply with
  | accept =>
    have recorded := (eases_count .addGrant t).trans
      (eases_record W .grant g.client g.requested none _)
    exact recorded.outstanding.trans called
  | refuse => exact (outstanding_refuseGrant silent g t).trans called
  | breakOff => exact (outstanding_refuseGrant silent g t).trans called

/-- A delivery settles its request. -/
theorem load_delivery (silent : W.Silent) (h : Delivery W s t) : t.load ≤ s.load := by
  cases h with
  | wait before g after _ running split unready =>
    obtain ⟨eases, bulk⟩ := eases_isReady silent unready
    exact eases.load_le bulk
  | deliver before g after u running split ready =>
    have looked := (eases_isReady silent ready).1
    have left := outstanding_deliver silent g { u with pending := before ++ after }
    have fewer : outstanding { u with pending := before ++ after } < s.outstanding := by
      obtain ⟨asks, frees, -, deferred, -⟩ := looked
      unfold outstanding
      rw [split]
      simp only [List.length_append, List.length_cons]
      unfold Allocator.asks Allocator.frees at *
      dsimp only
      omega
    exact load_le_iff.mpr (.inl (left.trans_lt fewer))

theorem load_deliveries (silent : W.Silent) (h : Deliveries W s t) : t.load ≤ s.load := by
  induction h with
  | refl => exact le_refl _
  | tail _ delivery ih => exact (load_delivery silent delivery).trans ih

/-! ### Serving a command -/

section

variable {q : Queued} {rest : Queue} (next : s.setting.queue.take? = some (q, rest))
include next

theorem count_accept (p : Command → Bool) :
    (s.accept q rest).setting.count p + (if p q.command then 1 else 0) = s.setting.count p := by
  have taken := (Queue.waiting_of_take? next).1.countP_eq fun q => p q.command
  rw [List.countP_cons] at taken
  exact taken.symm

theorem count_served {p : Command → Bool} (kind : p q.command = true) :
    (s.accept q rest).setting.count p + 1 = s.setting.count p := by
  have taken := count_accept next p
  rwa [if_pos kind] at taken

theorem bulk_accept : (s.accept q rest).bulk + 1 = s.bulk := by
  have one := count_served next (p := fun _ => true) rfl
  rw [Setting.count_true, Setting.count_true] at one
  have kept : (s.accept q rest).bulk =
    Chain.underway s.advisors + (s.accept q rest).setting.queue.length := rfl
  unfold bulk queued at kept ⊢
  omega

theorem eases_accept : Eases s (s.accept q rest) :=
  ⟨(Nat.le_add_right ..).trans_eq (count_accept next _),
    (Nat.le_add_right ..).trans_eq (count_accept next _),
    (Nat.le_add_right ..).trans_eq (count_accept next _), Nat.le_refl _, Nat.le_refl _⟩

/-- A command that puts nothing off is one less that waits. -/
theorem load_accept (h : t.load ≤ (s.accept q rest).load) : t.load < s.load := by
  refine h.trans_lt ?_
  obtain ⟨asks, frees, retries, deferred, pending⟩ := eases_accept next
  have bulk := bulk_accept next
  have outstanding := (eases_accept next).outstanding
  rw [load_lt_iff]
  omega

end

theorem eases_withdraw (W : World σ) (c : ClientId) (s : Allocator σ) :
    Eases s (s.withdraw W c) := by
  obtain ⟨es, phase, -, -, books⟩ := books_withdraw W c s
  have deferred : (s.withdraw W c).deferred = s.deferred.filter fun r => !(r.client.id == c) :=
    congrArg Books.deferred books
  refine .of_queue (queue_withdraw ..) ?_ (Nat.le_of_eq (by simp))
  rw [deferred]
  exact List.length_filter_le ..

theorem advisors_withdraw (W : World σ) (c : ClientId) (s : Allocator σ) :
    (s.withdraw W c).advisors = s.advisors := by
  unfold withdraw
  dsimp only
  split
  · exact advisors_noteAll ..
  · exact (advisors_record ..).trans (advisors_noteAll ..)

/-- A request that leaves the queue is less to do even if it waits elsewhere. -/
theorem load_moved (asks : t.asks < s.asks) (frees : t.frees ≤ s.frees)
    (retries : t.retries ≤ s.retries) (elsewhere : t.deferred.length + t.pending.length ≤
      s.deferred.length + s.pending.length + 1) : t.load < s.load := by
  rw [load_lt_iff]
  unfold outstanding
  omega

theorem load_allocate (silent : W.Silent) {q : Queued} {rest : Queue} (running : s.phase = .running)
    (next : s.setting.queue.take? = some (q, rest)) (ask : q.command.isAsk = true) (r : Request) :
    ((s.accept q rest).allocate W r).load < s.load := by
  have fewer : (s.accept q rest).asks + 1 = s.asks := count_served next ask
  obtain ⟨-, frees, retries, deferred, pending⟩ := eases_accept next
  unfold allocate
  rcases tried : (s.accept q rest).tryAllocate W r.client.id r.resources with
    ⟨_ | ⟨expanded, claimed⟩, t⟩
  · -- The request waits among the deferred ones instead.
    show (t.defer W r).load < s.load
    have asked := eases_asks silent (tryAllocate_none tried)
    let waiting := note (.deferred r)
      { t.count .addDeferral with deferred := t.deferred ++ [r] }
    have one : waiting.deferred.length = t.deferred.length + 1 := List.length_append
    have recorded : Eases waiting (t.defer W r) :=
      eases_record W .defer r.client.id r.resources none _
    refine load_moved ((recorded.asks.trans asked.asks).trans_lt (by omega))
      (recorded.frees.trans (asked.frees.trans frees))
      (recorded.retries.trans (asked.retries.trans retries)) ?_
    have put_off := recorded.deferred
    have kept : (t.defer W r).pending.length ≤ t.pending.length := recorded.pending
    have before := asked.deferred
    have still := asked.pending
    omega
  · -- It is a tentative grant now, until it is delivered.
    obtain ⟨u, table, asks, rfl, -⟩ := tryAllocate_some tried
    have asked := eases_asks silent asks
    let g : Grant := ⟨r, expanded, claimed⟩
    let locked := note (.locked g) { u with table, pending := u.pending ++ [g] }
    have one : locked.pending.length = u.pending.length + 1 := List.length_append
    have going : locked.phase = .running := asks.quietly.phase.trans running
    have granted := load_deliveries silent
      (completeIfPrepared_deliveries W u.pending.length going)
    refine granted.trans_lt (load_moved (asked.asks.trans_lt (by omega))
      (asked.frees.trans frees) (asked.retries.trans retries) ?_)
    have kept : locked.deferred.length ≤ (s.accept q rest).deferred.length := asked.deferred
    have before := asked.pending
    omega

theorem outstanding_free (silent : W.Silent) (c : ClientId) (rs : ResourceSet) (s : Allocator σ) :
    (s.free W c rs).outstanding ≤ s.outstanding := by
  let stripped := (s.take c rs .asked).2.cancelOrphaned c
  have took : Eases s (s.take c rs .asked).2 := .of_queue rfl (Nat.le_refl _) (Nat.le_refl _)
  have before := (took.trans (eases_cancelOrphaned c _)).outstanding
  have settled := outstanding_le_of_load
    (load_deliveries silent (releaseBlocked_deliveries W c stripped))
  have released := settled.trans before
  show (afterFree W c (s.table.heldOf c rs) (s.take c rs .asked).2).outstanding ≤ s.outstanding
  obtain ⟨-, quiet⟩ | ⟨-, -, told⟩ :=
    afterFree_cases W c (s.table.heldOf c rs) (s.take c rs .asked).2
  · rw [quiet]
    exact released
  · have recorded := (eases_count .addFree (stripped.releaseBlocked W c)).trans
      (eases_record W .free c (s.table.heldOf c rs) none _)
    rw [told]
    refine (outstanding_followUp ?_ _).trans (recorded.outstanding.trans released)
    simp [Command.isAsk, Command.isFree]

theorem load_lt_of_freed {q : Queued} {rest : Queue}
    (next : s.setting.queue.take? = some (q, rest)) (free : q.command.isFree = true)
    (h : t.outstanding ≤ (s.accept q rest).outstanding) : t.load < s.load := by
  have fewer : (s.accept q rest).frees + 1 = s.frees := count_served next free
  obtain ⟨asks, -, -, deferred, pending⟩ := eases_accept next
  unfold outstanding at h
  rw [load_lt_iff]
  unfold outstanding
  omega

theorem load_terminate (s : Allocator σ) : s.terminate.load ≤ s.load := by
  have none (p : Command → Bool) : s.terminate.setting.count p ≤ s.setting.count p := Nat.zero_le _
  have eases : Eases s s.terminate := ⟨none _, none _, none _, Nat.zero_le _, Nat.zero_le _⟩
  exact eases.load_le (Nat.add_le_add_left (Nat.zero_le _) _)

theorem load_retryDeferred {q : Queued} {rest : Queue}
    (next : s.setting.queue.take? = some (q, rest)) (retry : q.command.isRetry = true) :
    (s.accept q rest).retryDeferred.load < s.load := by
  let u := s.accept q rest
  have fewer : u.retries + 1 = s.retries := count_served next retry
  have accepted : u.outstanding ≤ s.outstanding := (eases_accept next).outstanding
  obtain ⟨-, -, -, opened⟩ := Queue.waiting_of_take? next
  unfold retryDeferred
  split
  · exact load_accept next (le_refl _)
  · -- The retry is served, and its requests wait in the queue again.
    let x := u.setting.note (.retried u.deferred)
    let t : Allocator σ := { u with
      deferred := []
      setting := { x with queue := (x.queue.requeue (u.deferred.map Request.queued)).2 } }
    show t.load < s.load
    have back (p : Command → Bool) := x.count_requeue opened u.deferred p
    have asks : t.asks = u.deferred.length + u.asks :=
      (back Command.isAsk).trans (congrArg (· + u.asks) (congrFun List.countP_true _))
    have frees : t.frees = 0 + u.frees :=
      (back Command.isFree).trans (congrArg (· + u.frees) (congrFun List.countP_false _))
    have retries : t.retries = 0 + u.retries :=
      (back Command.isRetry).trans (congrArg (· + u.retries) (congrFun List.countP_false _))
    have same : t.outstanding = u.outstanding := by
      have deferred : t.deferred.length = 0 := rfl
      have pending : t.pending.length = u.pending.length := rfl
      unfold outstanding
      omega
    rw [load_lt_iff]
    omega

/-- Whatever is served, there is less to do afterwards. -/
theorem load_process (silent : W.Silent) {q : Queued} {rest : Queue} (running : s.phase = .running)
    (next : s.setting.queue.take? = some (q, rest)) :
    ((s.accept q rest).process W q).load < s.load := by
  unfold process
  cases hq : q.command with
  | allocate c rs =>
    exact load_allocate silent running next (by rw [hq]; rfl) _
  | released c rs =>
    have told := eases_announce silent c rs (s.accept q rest)
    exact load_accept next (told.load_le (bulk_announce silent c rs _))
  | checkPrepared c rs =>
    have checked := checkPrepared_deliveries W c rs (s := s.accept q rest) running
    exact load_accept next (load_deliveries silent checked)
  | retryDeferred => exact load_retryDeferred next (by rw [hq]; rfl)
  | free c rs => exact load_lt_of_freed next (by rw [hq]; rfl) (outstanding_free silent c rs _)
  | freeAll c => exact load_lt_of_freed next (by rw [hq]; rfl) (outstanding_free silent c _ _)
  | withdraw c =>
    have dropped := eases_withdraw W c (s.accept q rest)
    refine load_accept next (dropped.load_le ?_)
    unfold bulk queued
    rw [queue_withdraw, advisors_withdraw]
  | snapshot => exact load_accept next (le_refl _)
  | shutdown => exact load_accept next (load_terminate _)

/-! ### Coming to rest -/

theorem load_step (silent : W.Silent) (running : s.phase = .running)
    (opened : s.setting.queue.closed = false) (waits : s.setting.queue.waiting ≠ []) :
    (s.step W).load < s.load := by
  cases next : s.setting.queue.take? with
  | none =>
    obtain closed | nothing := Queue.take?_eq_none_iff.mp next
    · rw [opened] at closed
      cases closed
    · exact absurd nothing waits
  | some found =>
    unfold step
    rw [if_pos (isRunning_iff.mpr running), next]
    exact load_process silent running next

theorem isIdle_iff : s.isIdle = true ↔ (s.phase = .running → s.setting.queue.waiting = []) := by
  rw [isIdle, Bool.or_eq_true, Queue.isEmpty_iff, ← isRunning_iff]
  cases s.isRunning <;> simp

theorem settle_rests (silent : W.Silent) (s : Allocator σ) (sound : (s.docket none 0).Sound) :
    ∃ n, (s.settle W n).isIdle = true := by
  induction left : s.load using WellFoundedLT.induction generalizing s with
  | ind load ih =>
    by_cases idle : s.isIdle = true
    · exact ⟨0, idle⟩
    · -- Something waits, so one step is taken and leaves less to do.
      have busy := mt isIdle_iff.mpr idle
      obtain ⟨running, waits⟩ := Classical.not_imp.mp busy
      have less := load_step silent running (sound.regular.opened running) waits
      have after : ((s.step W).docket none 0).Sound :=
        run_invariant (W := W) (fun act h => h.act act) (fun next h => h.take next) s [.step] sound
      obtain ⟨n, rests⟩ := ih (s.step W).load (left ▸ less) (s.step W) after rfl
      refine ⟨n + 1, ?_⟩
      unfold settle
      rwa [if_neg idle]

/-! ### What breaks an allocator -/

section

variable (survives : ∀ e w, (W.audit e w).1 = true)
include survives

theorem phase_record (d : Decision) (c : ClientId) (rs : ResourceSet) (detail : Option String)
    (s : Allocator σ) : (s.record W d c rs detail).phase = s.phase := by
  unfold record recordEvent
  dsimp only
  split
  · rfl
  · rfl
  · exact if_pos (survives _ _)

theorem phase_refuseGrant (g : Grant) (s : Allocator σ) : (s.refuseGrant W g).phase = s.phase := by
  let taken := ((s.count .addRefusal).take g.client g.expanded .refused).2.cancelOrphaned g.client
  have stripped : taken.phase = s.phase :=
    congrArg Books.phase (books_strip g.client g.expanded .refused (s.count .addRefusal))
  have told := (writes_announceFreed W g.client (s.table.heldOf g.client g.expanded) taken).phase
  have recorded := (phase_record survives .refuse g.client g.requested
    (some (refusalDetail (s.table.heldOf g.client g.expanded))) _).trans (told.trans stripped)
  unfold refuseGrant
  dsimp only
  split
  · exact recorded
  · exact (writes_followUp _ _).phase.trans recorded

theorem phase_deliver (g : Grant) (s : Allocator σ) : (s.deliver W g).phase = s.phase := by
  have called : (s.call W g).2.phase = s.phase := rfl
  unfold deliver
  rcases answer : s.call W g with ⟨reply, t⟩
  rw [answer] at called
  cases reply with
  | accept => exact (phase_record survives ..).trans called
  | refuse => exact (phase_refuseGrant survives g t).trans called
  | breakOff => exact (phase_refuseGrant survives g t).trans called

theorem phase_withdraw (c : ClientId) (s : Allocator σ) : (s.withdraw W c).phase = s.phase := by
  have dropped := congrArg Books.phase (books_drop c s)
  unfold withdraw
  dsimp only
  split
  · exact dropped
  · exact (phase_record survives ..).trans dropped

/-- Nothing but the sink breaks an allocator. -/
theorem Move.unbroken (move : Move W s t) (h : s.phase ≠ .crashed) : t.phase ≠ .crashed := by
  have kept (same : t.phase = s.phase) : t.phase ≠ .crashed := same ▸ h
  cases move with
  | submit x => exact h
  | poll number task o => exact h
  | shift w => exact h
  | serve q rest => exact h
  | release q rest c rs => exact h
  | free q rest c rs =>
    exact kept (congrArg Books.phase (books_strip c rs .asked (s.accept q rest)))
  | tell c freed =>
    exact kept ((writes_followUp _ _).phase.trans (phase_record survives ..))
  | lock g u _ obtained =>
    obtain ⟨v, table, asks, rfl, -⟩ := tryAllocate_some obtained
    exact kept asks.quietly.phase
  | defer r u _ failed =>
    exact kept ((phase_record survives ..).trans (tryAllocate_none failed).quietly.phase)
  | wait before g after _ _ _ unready => exact kept (kept_of_isReady unready).1
  | deliver before g after u _ _ ready =>
    exact kept ((phase_deliver survives g _).trans (kept_of_isReady ready).1)
  | retry =>
    unfold retryDeferred
    split <;> exact h
  | withdraw c => exact kept (phase_withdraw survives c s)
  | report seq => exact h
  | stop => simp [terminate]

theorem settle_unbroken (n : Nat) (h : s.phase ≠ .crashed) : (s.settle W n).phase ≠ .crashed := by
  induction n generalizing s with
  | zero => exact h
  | succ n ih =>
    unfold settle
    split
    · exact h
    · exact ih (moves_invariant (P := fun s => s.phase ≠ .crashed)
        (fun move => move.unbroken survives) (step_moves W s) h)

end

/-- However it has got where it is, an allocator comes to rest after finitely many steps once nobody
submits anything: its queue is empty, or it was told to stop, unless its sink broke. -/
theorem comes_to_rest {W : World σ} (silent : W.Silent) (before : World σ)
    (advisors : List Advisor) (sink : AuditSink) (w : σ) (hs : List (Happening σ)) :
    let s := (initial advisors sink w).run before hs
    ∃ n, let t := s.settle W n
      t.phase = .running ∧ t.setting.queue.waiting = [] ∨ t.phase = .terminated ∨
        t.phase = .crashed ∧ (s.phase = .crashed ∨ ∃ e w, (W.audit e w).1 = false) := by
  intro s
  have sound : (s.docket none 0).Sound :=
    (run_holds (W := before) (P := fun _ => True) (fun _ _ _ => trivial) (fun _ _ _ => trivial)
      advisors sink w hs trivial).1
  obtain ⟨n, rests⟩ := settle_rests silent s sound
  refine ⟨n, ?_⟩
  intro t
  cases phase : t.phase with
  | running => exact .inl ⟨rfl, isIdle_iff.mp rests phase⟩
  | terminated => exact .inr (.inl rfl)
  | crashed =>
    refine .inr (.inr ⟨rfl, ?_⟩)
    by_cases survives : ∀ e w, (W.audit e w).1 = true
    · left
      refine Classical.byContradiction fun whole => ?_
      exact settle_unbroken survives n whole phase
    · right
      obtain ⟨e, broken⟩ := Classical.not_forall.mp survives
      obtain ⟨w, broken⟩ := Classical.not_forall.mp broken
      exact ⟨e, w, Bool.eq_false_iff.mpr broken⟩

/-- Two clients wait for what a third gives up, and refuse it one after the other. -/
theorem refusals_come_to_rest :
    let W : World Nat := { World.steady .yes with call := fun _ _ n => (.refuse, [], n) }
    let s := (initial [] .nowhere 0).run (.steady .yes) [asking "x" ["a"], .step,
      asking "y" ["a"], .step, asking "z" ["a"], .step, freeing "x" ["a"]]
    W.Silent ∧ s.deferred.length = 2 ∧ s.queued = 1 ∧ ∃ n, let t := s.settle W n
      t.phase = .running ∧ t.setting.queue.waiting = [] ∨ t.phase = .terminated ∨
        t.phase = .crashed ∧ (s.phase = .crashed ∨ ∃ e w, (W.audit e w).1 = false) := by
  intro W s
  have silent : W.Silent := ⟨fun _ _ _ _ _ => rfl, fun _ _ _ => rfl⟩
  have waits : s.deferred.length = 2 ∧ s.queued = 1 := by decide +kernel
  exact ⟨silent, waits.1, waits.2, comes_to_rest silent (.steady .yes) [] .nowhere 0 _⟩

end Allocator

end Allotment
