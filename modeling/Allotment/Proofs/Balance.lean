import Allotment.Proofs.Serving

/-!
# Advisors are told of what is given up

The advisors are asked to prepare what is claimed, and are told of what is released. The balance of
the two, less the releases that still wait in the queue, is what the table shows: `Shifts` follows
it through every operation, and a step leaves it level.
-/

namespace Allotment

variable {σ : Type}

namespace Command

def isRelease : Command → Bool
  | released .. => true
  | _ => false

def releases (c : ClientId) (r : ResourceId) : Command → Bool
  | released d rs => decide (d = c ∧ r ∈ rs)
  | _ => false

theorem releases_of_other {q : Command} (h : q.isRelease = false) (c : ClientId) (r : ResourceId) :
    q.releases c r = false := by
  cases q with
  | released d rs => cases h
  | _ => rfl

end Command

/-- What a set of `d` counts for a resource of `c`. -/
def share (c : ClientId) (r : ResourceId) (d : ClientId) (rs : ResourceSet) : Int :=
  if d = c ∧ r ∈ rs then 1 else 0

theorem share_empty {c d : ClientId} {r : ResourceId} {rs : ResourceSet} (h : rs.isEmpty = true) :
    share c r d rs = 0 := by
  rw [ResourceSet.isEmpty_iff.mp h]
  simp [share]

namespace Event

/-- The advisors together are asked to prepare a set of `c` with `r`. -/
def prepares (c : ClientId) (r : ResourceId) : Event → Bool
  | consulted .prepare d rs _ => decide (d = c ∧ r ∈ rs)
  | _ => false

/-- The advisors are told that a set of `c` with `r` is released. -/
def announces (c : ClientId) (r : ResourceId) : Event → Bool
  | consulted .released d rs _ => decide (d = c ∧ r ∈ rs)
  | _ => false

def weight (c : ClientId) (r : ResourceId) : Event → Int
  | consulted .prepare d rs _ => share c r d rs
  | consulted .released d rs _ => -share c r d rs
  | _ => 0

theorem weight_of_background {e : Event} (h : e.isBackground = true) (c : ClientId)
    (r : ResourceId) : e.weight c r = 0 := by
  cases e with
  | consulted => cases h
  | _ => rfl

end Event

namespace Journal

def balance (c : ClientId) (r : ResourceId) (j : Journal) : Int :=
  j.countP (Event.prepares c r) - j.countP (Event.announces c r)

theorem balance_cons (c : ClientId) (r : ResourceId) (e : Event) (j : Journal) :
    balance c r (e :: j) = e.weight c r + balance c r j := by
  unfold balance
  rw [List.countP_cons, List.countP_cons]
  cases e with
  | consulted h d rs approved =>
    by_cases mine : d = c ∧ r ∈ rs <;> cases h <;>
      simp only [Event.prepares, Event.announces, Event.weight, share, mine] <;> grind
  | _ => simp [Event.prepares, Event.announces, Event.weight]

end Journal

namespace Setting

variable {x y : Setting σ} {c : ClientId} {r : ResourceId}

/-- The balance of what the advisors know, once the releases in the queue have been served. -/
def standing (c : ClientId) (r : ResourceId) (x : Setting σ) : Int :=
  x.journal.balance c r - x.queue.waiting.countP (·.command.releases c r)

theorem standing_note (e : Event) (x : Setting σ) :
    (x.note e).standing c r = x.standing c r + e.weight c r := by
  unfold standing
  rw [journal_note, queue_note, Journal.balance_cons]
  omega

theorem standing_submit (s : Submission) (opened : x.queue.closed = false) :
    (x.submit s).standing c r = x.standing c r - if s.command.releases c r then 1 else 0 := by
  have waiting := (Queue.waiting_enter x.queue s.command s.priority).countP_eq
    (·.command.releases c r)
  rw [List.countP_cons] at waiting
  have entered : (x.submit s).standing c r =
      Journal.balance c r (.entered ⟨s.command, s.priority, x.queue.nextSeq⟩ :: x.journal) -
        (x.queue.enter s.command s.priority).waiting.countP (·.command.releases c r) := by
    unfold submit
    rw [if_neg (by simp [opened])]
    rfl
  rw [entered, waiting, Journal.balance_cons, Event.weight_of_background rfl, standing]
  dsimp only
  split <;> omega

/-- Nothing is known of a submission but that it is no release. -/
theorem Stirs.standing (h : Stirs (fun s => s.command.isRelease = false) x y) (c : ClientId)
    (r : ResourceId) :
    y.queue.closed = x.queue.closed ∧ y.standing c r = x.standing c r := by
  induction h with
  | refl => exact ⟨rfl, rfl⟩
  | @tail y z _ stir ih =>
    obtain ⟨closed, level⟩ := ih
    cases stir with
    | turn w => exact ⟨closed, level⟩
    | note e background =>
      rw [standing_note, Event.weight_of_background background, level]
      exact ⟨closed, Int.add_zero _⟩
    | submit s other =>
      refine ⟨(closed_submit y s).trans closed, ?_⟩
      cases h : y.queue.closed with
      | true => rw [show y.submit s = y from if_pos h, level]
      | false =>
        rw [standing_submit s h, Command.releases_of_other other, level]
        exact Int.sub_zero _

/-- What goes back to the queue are requests. -/
theorem standing_requeue (x : Setting σ) (c : ClientId) (r : ResourceId) (ks : List Request) :
    let q := (x.queue.requeue (ks.map Request.queued)).2
    q.closed = x.queue.closed ∧ standing c r { x with queue := q } = x.standing c r := by
  have none : (ks.map Request.queued).countP (·.command.releases c r) = 0 := by
    rw [List.countP_eq_zero]
    intro q hq
    obtain ⟨k, -, rfl⟩ := List.mem_map.mp hq
    simp [Request.queued, Command.releases]
  cases h : x.queue.closed with
  | true =>
    have still : x.queue.requeue (ks.map Request.queued) = (0, x.queue) := if_pos h
    rw [still]
    exact ⟨h, rfl⟩
  | false =>
    have waiting := (Queue.waiting_requeue h (ks.map Request.queued)).countP_eq
      (·.command.releases c r)
    rw [List.countP_append, none, Nat.zero_add] at waiting
    refine ⟨by simp [Queue.requeue, h], ?_⟩
    rw [standing, standing, waiting]

end Setting

namespace Allocator

variable {W : World σ} {s t u : Allocator σ} {c d : ClientId} {r : ResourceId} {m n : Int}

def excess (c : ClientId) (r : ResourceId) (s : Allocator σ) : Int :=
  s.setting.standing c r - if s.table.holder r = some c then 1 else 0

/-- The queue is as open as before, and the balance has moved against the table by so much. -/
structure Shifts (c : ClientId) (r : ResourceId) (n : Int) (s t : Allocator σ) : Prop where
  closed : t.setting.queue.closed = s.setting.queue.closed
  excess : t.excess c r = s.excess c r + n

theorem Shifts.refl (s : Allocator σ) : Shifts c r 0 s s := ⟨rfl, (Int.add_zero _).symm⟩

theorem Shifts.trans (h : Shifts c r m s t) (k : Shifts c r n t u) : Shifts c r (m + n) s u := by
  refine ⟨k.closed.trans h.closed, ?_⟩
  rw [k.excess, h.excess, Int.add_assoc]

theorem Shifts.level (h : Shifts c r n s t) (k : Shifts c r 0 t u) : Shifts c r n s u := by
  have both := h.trans k
  rwa [Int.add_zero] at both

/-- Nothing counts but the setting and the table. -/
theorem Shifts.of_same (k : Shifts c r n t u) (setting : t.setting = s.setting)
    (table : t.table = s.table) : Shifts c r n s u := by
  obtain ⟨closed, excess⟩ := k
  refine ⟨closed.trans (congrArg (·.queue.closed) setting), excess.trans ?_⟩
  rw [Allocator.excess, Allocator.excess, setting, table]

theorem shifts_setting (table : t.table = s.table)
    (closed : t.setting.queue.closed = s.setting.queue.closed)
    (standing : t.setting.standing c r = s.setting.standing c r + n) : Shifts c r n s t := by
  refine ⟨closed, ?_⟩
  rw [Allocator.excess, Allocator.excess, table, standing]
  omega

theorem shifts_note (e : Event) (s : Allocator σ) : Shifts c r (e.weight c r) s (s.note e) :=
  shifts_setting rfl rfl (Setting.standing_note e s.setting)

theorem shifts_noteAll {es : List Event} (weightless : ∀ e ∈ es, e.weight c r = 0)
    (s : Allocator σ) : Shifts c r 0 s (s.noteAll es) := by
  induction es generalizing s with
  | nil => exact .refl s
  | cons e es ih =>
    obtain ⟨first, rest⟩ := List.forall_mem_cons.mp weightless
    have noted := shifts_note (c := c) (r := r) e s
    rw [first] at noted
    exact noted.level (ih rest (s.note e))

/-! ### Calls to the outside -/

section

variable (outside : W.Submits fun x => x.command.isRelease = false)
include outside

theorem shifts_question (h : Hook) (d : ClientId) (rs : ResourceSet) (s : Allocator σ) :
    Shifts c r (Event.weight c r (.consulted h d rs (s.question W h d rs).1)) s
      (s.question W h d rs).2 := by
  obtain ⟨closed, level⟩ :=
    (Setting.stirs_consult outside h d rs s.advisors s.setting).standing c r
  refine shifts_setting rfl closed ?_
  rw [← level]
  exact Setting.standing_note ..

theorem shifts_announce (d : ClientId) (rs : ResourceSet) (s : Allocator σ) :
    Shifts c r (-share c r d rs) s (s.announce W d rs) := by
  obtain ⟨closed, level⟩ :=
    (Setting.stirs_notify outside .released d rs s.advisors s.setting).standing c r
  refine shifts_setting rfl closed ?_
  rw [← level]
  exact Setting.standing_note (.consulted .released d rs true) _

theorem shifts_call (g : Grant) (s : Allocator σ) : Shifts c r 0 s (s.call W g).2 := by
  have submits := outside.call g.request.client g.requested s.setting.world
  unfold call
  rcases called : W.call g.request.client g.requested s.setting.world with ⟨reply, submissions, w⟩
  rw [called] at submits
  obtain ⟨closed, level⟩ := (Setting.stirs_submitAll submits
    (({ s.setting with world := w } : Setting σ).note (.called g reply))).standing c r
  exact shifts_setting rfl closed (level.trans (Setting.standing_note ..))

end

theorem shifts_expand (W : World σ) (rs : ResourceSet) (s : Allocator σ) :
    Shifts c r 0 s (s.expand W rs).2 :=
  shifts_setting rfl rfl (Setting.standing_note (.expanding rs) s.setting)

theorem shifts_record (W : World σ) (k : Decision) (d : ClientId) (rs : ResourceSet)
    (detail : Option String) (s : Allocator σ) : Shifts c r 0 s (s.record W k d rs detail) := by
  have decided := Setting.standing_note (c := c) (r := r) (.decided k d rs detail) s.setting
  unfold record recordEvent
  dsimp only
  split
  · exact shifts_setting rfl rfl decided
  · exact shifts_setting rfl rfl decided
  · refine shifts_setting rfl rfl (Eq.trans ?_ decided)
    exact (Setting.standing_note (.audited _) _).trans (Int.add_zero _)

theorem shifts_followUp {cs : List Command} (other : ∀ q ∈ cs, q.isRelease = false)
    (s : Allocator σ) : Shifts c r 0 s (s.followUp cs) := by
  have discreet : ∀ x ∈ cs.map fun q => (⟨q, .normal⟩ : Submission),
      x.command.isRelease = false := by
    intro x hx
    obtain ⟨q, hq, rfl⟩ := List.mem_map.mp hx
    exact other q hq
  unfold followUp
  split
  · obtain ⟨closed, level⟩ := (Setting.stirs_submitAll discreet s.setting).standing c r
    exact shifts_setting rfl closed (level.trans (Int.add_zero _).symm)
  · exact .refl s

theorem shifts_release (d : ClientId) (rs : ResourceSet)
    (running : (s.followUp [.released d rs, .retryDeferred]).phase = .running)
    (opened : s.setting.queue.closed = false) :
    Shifts c r (-share c r d rs) s (s.followUp [.released d rs, .retryDeferred]) := by
  have going : s.isRunning = true := by
    unfold followUp at running
    split at running
    · assumption
    · exact isRunning_iff.mpr running
  have first := Setting.standing_submit (c := c) (r := r) ⟨.released d rs, .normal⟩ opened
  let x := s.setting.submit ⟨.released d rs, .normal⟩
  have still : x.queue.closed = false := (Setting.closed_submit ..).trans opened
  have second := Setting.standing_submit (c := c) (r := r) ⟨.retryDeferred, .normal⟩ still
  unfold followUp
  rw [if_pos going]
  refine shifts_setting rfl ((Setting.closed_submit ..).trans (Setting.closed_submit ..)) ?_
  refine second.trans ?_
  rw [first]
  simp [Command.releases, share]
  omega

theorem shifts_defer (W : World σ) (k : Request) (s : Allocator σ) :
    Shifts c r 0 s (s.defer W k) := by
  have deferred : Shifts c r 0 s
      (note (.deferred k) { s.count .addDeferral with deferred := s.deferred ++ [k] }) :=
    (shifts_note (.deferred k)
      { s.count .addDeferral with deferred := s.deferred ++ [k] }).of_same rfl rfl
  exact deferred.level (shifts_record W .defer k.client.id k.resources none _)

theorem shifts_withdraw (W : World σ) (d : ClientId) (s : Allocator σ) :
    Shifts c r 0 s (s.withdraw W d) := by
  let gone := s.deferred.filter (·.client.id == d)
  have weightless : ∀ e ∈ gone.map Event.withdrawn, e.weight c r = 0 := by
    intro e he
    obtain ⟨k, -, rfl⟩ := List.mem_map.mp he
    rfl
  have dropped := (shifts_noteAll weightless
    { s with deferred := s.deferred.filter fun k => !(k.client.id == d) }).of_same (s := s) rfl rfl
  unfold withdraw
  dsimp only
  split
  · exact dropped
  · exact dropped.level (shifts_record W .withdraw d _ none _)

theorem shifts_retryDeferred (s : Allocator σ) : Shifts c r 0 s s.retryDeferred := by
  unfold retryDeferred
  split
  · exact .refl s
  · obtain ⟨closed, standing⟩ := (s.setting.note (.retried s.deferred)).standing_requeue c r s.deferred
    exact shifts_setting rfl closed (standing.trans (Setting.standing_note ..))

/-! ### Taking and giving -/

theorem shifts_take (d : ClientId) (rs : ResourceSet) (cause : FreeCause) (s : Allocator σ) :
    Shifts c r (share c r d (s.table.heldOf d rs)) s (s.take d rs cause).2 := by
  refine ⟨rfl, ?_⟩
  have standing : (s.take d rs cause).2.setting.standing c r = s.setting.standing c r :=
    (Setting.standing_note (.freed d _ cause) s.setting).trans (Int.add_zero _)
  have table : (s.take d rs cause).2.table = (s.table.free d rs).2 := rfl
  rw [excess, excess, standing, table, Table.holder_free]
  simp only [share, Table.mem_heldOf]
  by_cases taken : r ∈ rs ∧ s.table.holder r = some d
  · rw [if_pos taken, taken.2]
    simp only [taken, Option.some.injEq, and_true, reduceCtorEq, if_false]
    omega
  · have other : ¬ (d = c ∧ r ∈ rs ∧ s.table.holder r = some d) := fun h => taken h.2
    rw [if_neg taken, if_neg other]
    omega

theorem shifts_cancelOrphaned (d : ClientId) (s : Allocator σ) :
    Shifts c r 0 s (s.cancelOrphaned d) := by
  let orphaned := fun g : Grant => g.client == d && !s.isCovered g
  have weightless : ∀ e ∈ (s.pending.filter orphaned).map Event.cancelled, e.weight c r = 0 := by
    intro e he
    obtain ⟨g, -, rfl⟩ := List.mem_map.mp he
    rfl
  exact (shifts_noteAll weightless
    { s with pending := s.pending.filter fun g => !orphaned g }).of_same rfl rfl

/-- What is locked was free before. -/
theorem shifts_locked {table : Table} {claimed : ResourceSet}
    (free : ∀ a ∈ claimed, s.table.holder a = none)
    (holders : ∀ a, table.holder a = if a ∈ claimed then some d else s.table.holder a) :
    Shifts c r (-share c r d claimed) s { s with table } := by
  refine ⟨rfl, ?_⟩
  show s.setting.standing c r - (if table.holder r = some c then 1 else 0) = _
  rw [excess, holders, share]
  by_cases h : r ∈ claimed
  · rw [if_pos h, free r h]
    simp only [h, Option.some.injEq, and_true, reduceCtorEq, if_false]
    omega
  · have other : ¬ (d = c ∧ r ∈ claimed) := fun both => h both.2
    rw [if_neg h, if_neg other]
    omega

section

variable (outside : W.Submits fun x => x.command.isRelease = false)
include outside

/-- What is prepared is locked, or called off at once. -/
theorem shifts_claim {claimed : ResourceSet} {locked : Bool}
    (free : ∀ a ∈ claimed, s.table.holder a = none) (h : s.claim W d claimed = (locked, t)) :
    Shifts c r 0 s t := by
  obtain ⟨-, may⟩ | ⟨u, may, prepared⟩ := claim_cases (fun a ha => .inl (free a ha)) h
  · have asked := shifts_question (c := c) (r := r) outside .may d claimed s
    rwa [may] at asked
  · have asked := shifts_question (c := c) (r := r) outside .may d claimed s
    rw [may] at asked
    have prepare := shifts_question (c := c) (r := r) outside .prepare d claimed u
    have quiet := (writes_question may (by simp)).table
    refine (Int.add_zero 0 ▸ asked.trans ?_ : Shifts c r 0 s t)
    obtain ⟨-, v, failed, rfl⟩ | ⟨-, v, table, done, rfl, holders⟩ := prepared
    · rw [failed] at prepare
      have both := prepare.trans (shifts_announce outside d claimed v)
      rwa [Event.weight, Int.add_right_neg] at both
    · rw [done] at prepare
      have same : v.table = s.table := (writes_question done (by simp)).table.trans quiet
      have both := prepare.trans (shifts_locked (fun a ha => same ▸ free a ha) holders)
      rwa [Event.weight, Int.add_right_neg] at both

theorem shifts_tryAllocate {rs : ResourceSet} {answer : Option (ResourceSet × ResourceSet)}
    (h : s.tryAllocate W d rs = (answer, t)) : Shifts c r 0 s t := by
  have expanded := shifts_expand (c := c) (r := r) W rs s
  obtain ⟨-, rfl⟩ | ⟨_, claimed, -, available, claims, ⟨-, -, rfl⟩ | ⟨locked, claim, -⟩⟩ :=
    tryAllocate_expanded h
  · exact expanded
  · exact expanded
  · refine expanded.level (shifts_claim outside (fun a ha => ?_) claim)
    obtain ⟨within, other⟩ := (claims a).mp ha
    exact (available a within).resolve_right other

/-! ### Delivering -/

theorem shifts_isReady (earlier : List Grant) (g : Grant) (s : Allocator σ) :
    Shifts c r 0 s (s.isReady W earlier g).2 := by
  unfold isReady
  split
  · exact .refl s
  · split
    · exact .refl s
    · exact shifts_question outside .complete g.client g.claimed s

/-- What a refusal frees is announced at once. -/
theorem shifts_refuseGrant (g : Grant) (s : Allocator σ) :
    Shifts c r 0 s (s.refuseGrant W g) := by
  let freed := s.table.heldOf g.client g.expanded
  let stripped :=
    ((s.count .addRefusal).take g.client g.expanded .refused).2.cancelOrphaned g.client
  have taken : Shifts c r (share c r g.client freed) (s.count .addRefusal) stripped :=
    (shifts_take g.client g.expanded .refused (s.count .addRefusal)).level
      (shifts_cancelOrphaned g.client _)
  have announced : Shifts c r (-share c r g.client freed) stripped
      (stripped.announceFreed W g.client freed) := by
    unfold announceFreed
    split
    · rename_i nothing
      rw [share_empty nothing]
      exact .refl stripped
    · exact shifts_announce outside g.client freed stripped
  have told := taken.trans announced
  rw [Int.add_right_neg] at told
  have recorded := (told.level (shifts_record W .refuse g.client g.requested
    (some (refusalDetail freed)) _)).of_same (s := s) rfl rfl
  unfold refuseGrant
  dsimp only
  split
  · exact recorded
  · exact recorded.level (shifts_followUp (by simp [Command.isRelease]) _)

theorem shifts_deliver (g : Grant) (s : Allocator σ) : Shifts c r 0 s (s.deliver W g) := by
  have called := shifts_call (c := c) (r := r) outside g s
  unfold deliver
  rcases answer : s.call W g with ⟨reply, t⟩
  rw [answer] at called
  refine called.level ?_
  cases reply with
  | accept =>
    exact (shifts_record W .grant g.client g.requested none (t.count .addGrant)).of_same rfl rfl
  | refuse => exact shifts_refuseGrant outside g t
  | breakOff => exact shifts_refuseGrant outside g t

theorem shifts_deliveries (h : Deliveries W s t) : Shifts c r 0 s t := by
  induction h with
  | refl => exact .refl s
  | @tail u v _ delivery ih =>
    refine ih.level ?_
    cases delivery with
    | wait before g after _ _ _ unready =>
      have asked := shifts_isReady (c := c) (r := r) outside before g u
      rwa [unready] at asked
    | deliver before g after w _ _ ready =>
      have asked := shifts_isReady (c := c) (r := r) outside before g u
      rw [ready] at asked
      exact asked.level
        ((shifts_deliver outside g { w with pending := before ++ after }).of_same rfl rfl)

/-! ### Serving a command -/

/-- What is freed is announced by a command of its own, unless the allocator stops over it. -/
theorem shifts_free (rs : ResourceSet) (opened : s.setting.queue.closed = false)
    (running : (s.free W d rs).phase = .running) : Shifts c r 0 s (s.free W d rs) := by
  let freed := s.table.heldOf d rs
  let stripped := (s.take d rs .asked).2.cancelOrphaned d
  let released := stripped.releaseBlocked W d
  have delivered : Shifts c r (share c r d freed) s released :=
    ((shifts_take d rs .asked s).level (shifts_cancelOrphaned d _)).level
      (shifts_deliveries outside (releaseBlocked_deliveries W d stripped))
  obtain ⟨moot, quiet⟩ | ⟨-, -, told⟩ := afterFree_cases W d freed (s.take d rs .asked).2
  · have same : s.free W d rs = released := quiet
    rw [same] at running ⊢
    have nothing := moot.resolve_right fun stopped => stopped running
    rwa [share_empty nothing] at delivered
  · let recorded := (released.count .addFree).record W .free d freed none
    have same : s.free W d rs = recorded.followUp [.released d freed, .retryDeferred] := told
    rw [same] at running ⊢
    have level : Shifts c r 0 released recorded :=
      (shifts_record W .free d freed none (released.count .addFree)).of_same rfl rfl
    have all := delivered.level level
    have announced := all.trans (shifts_release d freed running (all.closed.trans opened))
    rwa [Int.add_right_neg] at announced

theorem shifts_allocate (k : Request) (running : s.phase = .running) :
    Shifts c r 0 s (s.allocate W k) := by
  have phase := phase_tryAllocate W k.client.id k.resources s
  unfold allocate
  rcases h : s.tryAllocate W k.client.id k.resources with ⟨_ | ⟨expanded, claimed⟩, t⟩
  · exact (shifts_tryAllocate outside h).level (shifts_defer W k t)
  · rw [h] at phase
    let g : Grant := ⟨k, expanded, claimed⟩
    let u := note (.locked g) { t with pending := t.pending ++ [g] }
    have locked : Shifts c r 0 t u :=
      (shifts_note (.locked g) { t with pending := t.pending ++ [g] }).of_same rfl rfl
    have going : u.phase = .running := phase.trans running
    have completed := completeIfPrepared_deliveries W t.pending.length going
    exact ((shifts_tryAllocate outside h).level locked).level (shifts_deliveries outside completed)

end

/-- A command that is taken counts no longer among those that wait. -/
theorem shifts_accept {q : Queued} {rest : Queue} (next : s.setting.queue.take? = some (q, rest)) :
    Shifts c r (if q.command.releases c r then 1 else 0) s (s.accept q rest) := by
  obtain ⟨perm, -, opened, still⟩ := Queue.waiting_of_take? next
  have waiting := perm.countP_eq (·.command.releases c r)
  rw [List.countP_cons] at waiting
  have noted := Setting.standing_note (c := c) (r := r) (.took q)
    ({ s.setting with queue := rest } : Setting σ)
  refine shifts_setting rfl (still.trans opened.symm) (noted.trans ?_)
  rw [show Event.weight c r (.took q) = 0 from rfl, Setting.standing, Setting.standing, waiting]
  dsimp only
  split <;> omega

theorem shifts_process (outside : W.Submits fun x => x.command.isRelease = false) (q : Queued)
    (opened : s.setting.queue.closed = false) (running : s.phase = .running)
    (still : (s.process W q).phase = .running) :
    Shifts c r (-if q.command.releases c r then 1 else 0) s (s.process W q) := by
  obtain ⟨command, priority, seq⟩ := q
  unfold process at still ⊢
  cases command with
  | allocate a rs => exact shifts_allocate outside _ running
  | released a rs =>
    have announced := shifts_announce (c := c) (r := r) outside a rs s
    simpa [Command.releases, share] using announced
  | checkPrepared a rs => exact shifts_deliveries outside (checkPrepared_deliveries W a rs running)
  | retryDeferred => exact shifts_retryDeferred s
  | free a rs => exact shifts_free outside rs opened still
  | freeAll a => exact shifts_free outside _ opened still
  | withdraw a => exact shifts_withdraw W a s
  | snapshot => exact shifts_note (.reported seq s.snapshot) s
  | shutdown => cases still

/-! ### Histories -/

/-- While the allocator runs, the queue is open and the balance is level. -/
def Level (c : ClientId) (r : ResourceId) (s : Allocator σ) : Prop :=
  s.phase = .running → s.setting.queue.closed = false ∧ s.excess c r = 0

theorem Level.apply (outside : W.Submits fun x => x.command.isRelease = false) {h : Happening σ}
    (clean : ∀ x, h = .submit x → x.command.isRelease = false) (level : s.Level c r) :
    (s.apply W h).Level c r := by
  have kept {t : Allocator σ} (phase : t.phase = s.phase) (shifts : Shifts c r 0 s t) :
      t.Level c r := by
    intro running
    obtain ⟨opened, zero⟩ := level (phase ▸ running)
    exact ⟨shifts.closed.trans opened, by rw [shifts.excess, zero, Int.add_zero]⟩
  cases h with
  | submit x =>
    have entered : s.setting.Stirs (fun x => x.command.isRelease = false) (s.setting.submit x) :=
      .single (.submit x (clean x rfl))
    obtain ⟨closed, standing⟩ := entered.standing c r
    exact kept rfl (shifts_setting rfl closed (standing.trans (Int.add_zero _).symm))
  | poll number task o =>
    obtain ⟨closed, standing⟩ :=
      (Setting.stirs_pollGates outside.checks number task o s.advisors s.setting).standing c r
    exact kept rfl (shifts_setting rfl closed (standing.trans (Int.add_zero _).symm))
  | shift w => exact kept rfl ⟨rfl, (Int.add_zero _).symm⟩
  | step =>
    show (s.step W).Level c r
    obtain idle | ⟨running, q, rest, next, served⟩ := step_cases W s
    · rwa [idle]
    · rw [served]
      intro still
      obtain ⟨opened, zero⟩ := level running
      have accepted := shifts_accept (c := c) (r := r) next
      have processed := shifts_process (c := c) (r := r) outside q
        (accepted.closed.trans opened) running still
      have both := accepted.trans processed
      rw [Int.add_right_neg] at both
      exact ⟨both.closed.trans opened, by rw [both.excess, zero, Int.add_zero]⟩

theorem run_level (outside : W.Submits fun x => x.command.isRelease = false)
    {hs : List (Happening σ)} (clean : ∀ x, .submit x ∈ hs → x.command.isRelease = false)
    (level : s.Level c r) : (s.run W hs).Level c r := by
  induction hs generalizing s with
  | nil => exact level
  | cons h hs ih =>
    refine ih (fun x hx => clean x (List.mem_cons_of_mem _ hx)) (level.apply outside ?_)
    rintro x rfl
    exact clean x List.mem_cons_self

/-- If nobody else submits releases, the preparations that the advisors were asked for over `r` of
`c`, less the releases of it that they were told of and those that still wait in the queue, are one
while `c` holds `r` and none otherwise. -/
theorem prepared_less_released {W : World σ}
    (outside : W.Submits fun x => x.command.isRelease = false) (advisors : List Advisor)
    (sink : AuditSink) (w : σ) {hs : List (Happening σ)}
    (clean : ∀ x, .submit x ∈ hs → x.command.isRelease = false)
    (running : ((initial advisors sink w).run W hs).phase = .running) (c : ClientId)
    (r : ResourceId) :
    let s := (initial advisors sink w).run W hs
    let j := s.setting.journal
    (j.countP (Event.prepares c r) : Int) - j.countP (Event.announces c r) -
      s.setting.queue.waiting.countP (·.command.releases c r) =
      if s.table.holder r = some c then 1 else 0 := by
  intro s j
  have start : (initial advisors sink w : Allocator σ).Level c r := fun _ => ⟨rfl, rfl⟩
  obtain ⟨-, level⟩ := run_level outside clean start running
  exact Int.sub_eq_zero.mp level

theorem steady_submits {complete : Answer} {A : Submission → Prop}
    (checks : ∀ c rs, A ⟨.checkPrepared c rs, .normal⟩) : (World.steady complete).Submits A :=
  ⟨checks, fun _ _ _ _ _ _ h => absurd h List.not_mem_nil,
    fun _ _ _ _ h => absurd h List.not_mem_nil⟩

/-- Two resources are granted together and one is given up: its release waits in the queue. -/
theorem released_of_two_prepared :
    let W := World.steady .yes
    let hs : List (Happening Nat) := [asking "x" ["a", "b"], .step, freeing "x" ["a"], .step]
    let s := (initial [.outside 0 "quick"] .nowhere 0).run W hs
    let j := s.setting.journal
    (W.Submits fun x => x.command.isRelease = false) ∧
    (∀ x, .submit x ∈ hs → x.command.isRelease = false) ∧ s.phase = .running ∧
    (∀ r : ResourceId, (j.countP (Event.prepares ⟨"x"⟩ r) : Int) -
      j.countP (Event.announces ⟨"x"⟩ r) -
      s.setting.queue.waiting.countP (·.command.releases ⟨"x"⟩ r) =
      if s.table.holder r = some ⟨"x"⟩ then 1 else 0) ∧
    s.table.holder ⟨"a"⟩ = none ∧ s.table.holder ⟨"b"⟩ = some ⟨"x"⟩ ∧
    s.setting.queue.waiting.countP (·.command.releases ⟨"x"⟩ ⟨"a"⟩) = 1 := by
  intro W hs s j
  have outside : W.Submits fun x => x.command.isRelease = false := steady_submits fun _ _ => rfl
  have clean : ∀ x, .submit x ∈ hs → x.command.isRelease = false := by
    intro x hx
    simp only [hs, asking, freeing, List.mem_cons, Happening.submit.injEq, reduceCtorEq, false_or,
      List.not_mem_nil, or_false] at hx
    obtain rfl | rfl := hx <;> rfl
  have running : s.phase = .running := by decide +kernel
  refine ⟨outside, clean, running, ?_, by decide +kernel, by decide +kernel, by decide +kernel⟩
  exact prepared_less_released outside _ _ _ clean running ⟨"x"⟩

end Allocator

end Allotment
