import Allotment.Proofs.Serving

/-!
# No wake-up is lost

A deferred request is tried again when a retry is served. Whenever something has been freed since
the request was served last, a retry is owed or waits in the queue (`Awake`). So with nobody but the
table to object, a request that no retry is on the way for is blocked by another client (`Blocked`).
-/

namespace Allotment

variable {σ : Type}

namespace Journal

/-- The entries made since `q` was taken last, all of them if it never was. -/
def sinceTook (j : Journal) (q : Queued) : List Event := j.takeWhile (· ≠ .took q)

/-- A resource has been freed since `q` was taken last. -/
def FreedSince (j : Journal) (q : Queued) : Prop := ∃ e ∈ j.sinceTook q, ∃ r, e.frees r = true

variable {es j : Journal} {q : Queued}

theorem sinceTook_append (h : ∀ e ∈ es, e ≠ .took q) :
    sinceTook (es ++ j) q = es ++ sinceTook j q :=
  List.takeWhile_append_of_pos fun e he => by simp [h e he]

theorem not_freedSince_took : ¬ FreedSince (.took q :: j) q := by
  simp [FreedSince, sinceTook]

theorem FreedSince.append (es : List Event) (h : ∀ e ∈ es, e ≠ .took q) (freed : FreedSince j q) :
    FreedSince (es ++ j) q := by
  obtain ⟨e, he, frees⟩ := freed
  exact ⟨e, sinceTook_append h ▸ List.mem_append_right _ he, frees⟩

theorem freedSince_of_mem (h : ∀ e ∈ es, e ≠ .took q) {e : Event} (he : e ∈ es) {r : ResourceId}
    (frees : e.frees r = true) : FreedSince (es ++ j) q :=
  ⟨e, sinceTook_append h ▸ List.mem_append_left _ he, r, frees⟩

/-- What is freed is not freed by entries of another kind. -/
theorem FreedSince.before (es : List Event) (unfreed : ∀ e ∈ es, ∀ r, e.frees r = false)
    (freed : FreedSince (es ++ j) q) : FreedSince j q := by
  induction es with
  | nil => exact freed
  | cons x es ih =>
    obtain ⟨hx, unfreed⟩ := List.forall_mem_cons.mp unfreed
    refine ih unfreed ?_
    by_cases same : x = .took q
    · subst same
      exact absurd freed not_freedSince_took
    · obtain ⟨e, he, r, frees⟩ := freed
      rw [List.cons_append, sinceTook, List.takeWhile_cons_of_pos (by simpa using same)] at he
      rcases List.mem_cons.mp he with rfl | he
      · rw [hx r] at frees
        cases frees
      · exact ⟨e, he, r, frees⟩

end Journal

namespace Docket

open Journal

variable {W : World σ} {d e : Docket} {q : Queued} {rest : Queue}

/-- A retry waits in the queue. -/
def RetryQueued (d : Docket) : Prop := ∃ q ∈ d.queue.waiting, q.command = .retryDeferred

structure Awake (d : Docket) : Prop where
  served : ∀ r ∈ d.deferred, .took r.queued ∈ d.journal
  fresh : ∀ r : Request, d.hand = some r.queued → ¬ d.journal.FreedSince r.queued
  awake : d.phase = .running → d.owed = 0 → (∀ q, d.hand = some q → q.command ≠ .retryDeferred) →
    ∀ r ∈ d.deferred, d.journal.FreedSince r.queued → d.RetryQueued

namespace Awake

/-- Nothing is freed, nobody is deferred, and no retry is used up. -/
theorem still (h : d.Awake) (es : Journal) (unfreed : ∀ x ∈ es, ∀ r, x.frees r = false)
    (journal : e.journal = es ++ d.journal) (deferred : ∀ r ∈ e.deferred, r ∈ d.deferred)
    (running : e.phase = .running →
      d.phase = .running ∧ e.owed = d.owed ∧ ∀ q ∈ d.queue.waiting, q ∈ e.queue.waiting)
    (hand : e.hand = d.hand ∨ e.hand = none ∧
      ∀ q, d.hand = some q → q.command = .retryDeferred → d.deferred = []) : e.Awake := by
  refine ⟨fun r hr => ?_, fun r hr => ?_, fun going told other r hr freed => ?_⟩
  · rw [journal]
    exact List.mem_append_right _ (h.served r (deferred r hr))
  · rw [journal]
    rcases hand with same | ⟨none, -⟩
    · exact fun freed => h.fresh r (same ▸ hr) (freed.before es unfreed)
    · rw [none] at hr
      cases hr
  · obtain ⟨going, owed, waiting⟩ := running going
    rw [journal] at freed
    have before : ∀ q, d.hand = some q → q.command ≠ .retryDeferred := by
      rcases hand with same | ⟨-, moot⟩
      · exact same ▸ other
      · intro q hq retry
        have none := deferred r hr
        rw [moot q hq retry] at none
        cases none
    obtain ⟨q, hq, retry⟩ :=
      h.awake going (owed ▸ told) before r (deferred r hr) (freed.before es unfreed)
    exact ⟨q, waiting q hq, retry⟩

theorem enter (h : d.Awake) (x : Submission) : (d.enter x).Awake := by
  refine h.still [.entered ⟨x.command, x.priority, d.queue.nextSeq⟩] (by simp [Event.frees]) rfl
    (fun _ => id) (fun running => ⟨running, rfl, fun q hq => ?_⟩) (.inl rfl)
  exact (Queue.waiting_enter ..).mem_iff.mpr (List.mem_cons_of_mem _ hq)

/-- A retry that was owed is submitted. -/
theorem notify (h : d.Awake) (k : Nat) :
    Awake { d.enter ⟨.retryDeferred, .normal⟩ with owed := k } := by
  have entered := h.enter ⟨.retryDeferred, .normal⟩
  refine ⟨entered.served, entered.fresh, fun _ _ _ _ _ _ => ?_⟩
  exact ⟨_, (Queue.waiting_enter ..).mem_iff.mpr List.mem_cons_self, rfl⟩

/-- What is taken from a client makes a retry due. -/
theorem strip (h : d.Awake) (c : ClientId) (rs : ResourceSet) (cause : FreeCause)
    (unasked : d.Unasked) : (d.strip c rs cause).Awake := by
  by_cases nothing : (d.table.heldOf c rs).isEmpty = true
  · refine h.still (d.losses c rs cause) (fun x hx r => ?_) Books.journal_strip (fun _ => id)
      (fun running => ⟨running, if_pos nothing, fun _ => id⟩) (.inl rfl)
    obtain ⟨g, -, rfl⟩ | rfl := Books.mem_losses.mp hx
    · rfl
    · rw [ResourceSet.isEmpty_iff.mp nothing]
      simp [Event.frees]
  · refine ⟨fun r hr => ?_, fun r hand => absurd hand (unasked r), fun _ told => ?_⟩
    · exact Books.journal_strip ▸ List.mem_append_right _ (h.served r hr)
    · rw [show (d.strip c rs cause).owed = d.owed + 1 from if_neg nothing] at told
      cases told

theorem act (act : Act W d e) (sound : d.Sound) (h : d.Awake) : e.Awake := by
  have same : ∀ r ∈ d.deferred, r ∈ d.deferred := fun _ => id
  have going (running : d.phase = .running) : d.phase = .running ∧ d.owed = d.owed ∧
      ∀ q ∈ d.queue.waiting, q ∈ d.queue.waiting := ⟨running, rfl, fun _ => id⟩
  have request {r : Request} (hand : d.hand = some r.queued) (q : Queued) (hq : d.hand = some q)
      (retry : q.command = .retryDeferred) : d.deferred = [] := by
    cases Option.some.inj (hand.symm.trans hq)
    cases retry
  cases act with
  | remark x remark =>
    exact h.still [x] (by simpa using Event.frees_of_remark remark) rfl same going
      (.inl rfl)
  | enter x => exact h.enter x
  | crash => exact h.still [] (by simp) rfl same (fun running => by cases running) (.inl rfl)
  | @lock g table hand =>
    exact h.still [.locked g] (by simp [Event.frees]) rfl same going (.inr ⟨rfl, request hand⟩)
  | defer r hand running =>
    refine ⟨fun k hk => ?_, fun _ none => (by cases none), fun _ told _ k hk freed => ?_⟩
    · rcases List.mem_append.mp hk with hk | hk
      · exact List.mem_cons_of_mem _ (h.served k hk)
      · obtain rfl := List.mem_singleton.mp hk
        exact List.mem_cons_of_mem _ (mem_of_served (sound.regular.served _ hand))
    · have before : d.journal.FreedSince k.queued :=
        freed.before [.deferred r] (by simp [Event.frees])
      rcases List.mem_append.mp hk with hk | hk
      · refine h.awake running told (fun q hq retry => ?_) k hk before
        rw [request hand q hq retry] at hk
        cases hk
      · -- Nothing was freed while the request was in hand.
        obtain rfl := List.mem_singleton.mp hk
        exact absurd before (h.fresh _ hand)
  | retry => exact ⟨by simp [Docket.restore], by simp [Docket.restore], by simp [Docket.restore]⟩
  | withdraw q c hand command =>
    refine h.still (d.withdrawals c) (fun x hx r => ?_) rfl
      (fun r hr => (List.mem_filter.mp hr).1) going (.inl rfl)
    obtain ⟨k, rfl⟩ := Books.mem_withdrawals hx
    rfl
  | report q =>
    exact h.still [_] (by simp [Event.frees]) rfl same going (.inl rfl)
  | stop q =>
    exact h.still [_] (by simp [Event.frees]) rfl (fun r hr => by cases hr)
      (fun running => by cases running) (.inl rfl)
  | dismiss q hand unasked moot =>
    refine h.still [] (by simp) rfl same going (.inr ⟨rfl, fun p hp retry => ?_⟩)
    obtain rfl := Option.some.inj (hand.symm.trans hp)
    exact moot retry
  | @call before g after reply =>
    exact h.still [.called g reply] (by simp [Event.frees]) rfl same going (.inl rfl)
  | strip c rs cause unasked => exact h.strip c rs cause unasked
  | notify k => exact h.notify k
  | forgo k owed silent =>
    refine h.still [] (by simp) rfl same (fun running => ?_) (.inl rfl)
    exact absurd (silent running) (by simp [sound.regular.opened running])

theorem take (next : Next d q rest) (h : d.Awake) : (d.take q rest).Awake := by
  refine ⟨fun r hr => List.mem_cons_of_mem _ (h.served r hr), fun r hand => ?_,
    fun _ told other r hr freed => ?_⟩
  · obtain rfl := Option.some.inj hand
    exact not_freedSince_took
  · have before : ∀ p, d.hand = some p → p.command ≠ .retryDeferred := by simp [next.idle]
    obtain ⟨p, hp, retry⟩ := h.awake next.running next.told before r hr
      (freed.before [.took q] (by simp [Event.frees]))
    refine ⟨p, ?_, retry⟩
    rcases List.mem_cons.mp ((Queue.waiting_of_take? next.next).1.mem_iff.mp hp) with rfl | hp
    · exact absurd retry (other p rfl)
    · exact hp

end Awake

/-! ### Who is in the way -/

/-- Somebody else holds a resource that is to be locked for the request. -/
def Hindered (E : ResourceSet → ResourceSet) (table : Table) (r : Request) : Prop :=
  ∃ x ∈ E r.resources, ∃ c, table.holder x = some c ∧ c ≠ r.client.id

/-- Without advisors only the table objects. -/
theorem hindered_of_objected {E : ResourceSet → ResourceSet}
    (pure : ∀ rs w, (W.expand rs w).1 = some (E rs)) {table : Table} {r : Request}
    (h : Objected W 0 table r) : Hindered E table r := by
  obtain ⟨s, t, rfl, alone, failed⟩ := h
  by_contra unhindered
  have available : ∀ x ∈ E r.resources,
      s.table.holder x = none ∨ s.table.holder x = some r.client.id := by
    intro x hx
    cases held : s.table.holder x with
    | none => exact .inl rfl
    | some c =>
      refine .inr (congrArg some ?_)
      by_contra other
      exact unhindered ⟨x, hx, c, held, other⟩
  exact Allocator.tryAllocate_alone (List.length_eq_zero_iff.mp alone) (pure _ _) available
    (congrArg Prod.fst failed)

theorem Act.advisors (act : Act W d e) : e.advisors = d.advisors := by
  cases act <;> rfl

/-- A resource stays with its holder until it is freed, and that counts for every command that was
taken before. -/
theorem Act.held (act : Act W d e) {x : ResourceId} {c : ClientId}
    (held : d.table.holder x = some c) :
    e.table.holder x = some c ∨ ∀ q, e.journal.FreedSince q := by
  cases act with
  | @lock g table hand lockable =>
    refine .inl ((lockable.holders x).trans ?_)
    split
    · rename_i claimed
      cases (lockable.free claimed).symm.trans held
    · exact held
  | strip a rs cause =>
    by_cases lost : x ∈ rs ∧ d.table.holder x = some a
    · refine .inr fun q => ?_
      rw [show (d.strip a rs cause).journal = _ from Books.journal_strip]
      refine freedSince_of_mem (fun y hy => ?_) (Books.mem_losses.mpr (.inr rfl)) (r := x) ?_
      · obtain ⟨g, -, rfl⟩ | rfl := Books.mem_losses.mp hy <;> simp
      · exact decide_eq_true (Table.mem_heldOf.mpr lost)
    · exact .inl ((Books.holder_strip x).trans ((if_neg lost).trans held))
  | _ => exact .inl held

theorem Act.deferred (act : Act W d e) : ∀ r ∈ e.deferred,
    r ∈ d.deferred ∨ e.table = d.table ∧ Objected W d.advisors d.table r := by
  intro r hr
  cases act with
  | defer k hand running objected =>
    rcases List.mem_append.mp hr with hr | hr
    · exact .inl hr
    · obtain rfl := List.mem_singleton.mp hr
      exact .inr ⟨rfl, objected⟩
  | withdraw => exact .inl (List.mem_filter.mp hr).1
  | retry | stop => cases hr
  | _ => exact .inl hr

structure Blocked (E : ResourceSet → ResourceSet) (d : Docket) : Prop where
  alone : d.advisors = 0
  blocked : ∀ r ∈ d.deferred, Hindered E d.table r ∨ d.journal.FreedSince r.queued

namespace Blocked

variable {E : ResourceSet → ResourceSet}

theorem act (pure : ∀ rs w, (W.expand rs w).1 = some (E rs)) (act : Act W d e)
    (h : d.Blocked E) : e.Blocked E := by
  refine ⟨act.advisors.trans h.alone, fun r hr => ?_⟩
  obtain hr | ⟨same, objected⟩ := act.deferred r hr
  · obtain ⟨x, hx, c, held, other⟩ | freed := h.blocked r hr
    · exact (act.held held).imp (fun held => ⟨x, hx, c, held, other⟩) fun freed => freed _
    · obtain ⟨es, untaken, journal⟩ := act.untaken
      rw [journal]
      exact .inr (freed.append es fun x hx => untaken x hx _)
  · rw [h.alone] at objected
    exact .inl (same ▸ hindered_of_objected pure objected)

theorem take (next : Next d q rest) (regular : d.Regular) (h : d.Blocked E) :
    (d.take q rest).Blocked E := by
  refine ⟨h.alone, fun r hr => (h.blocked r hr).imp_right fun freed => ?_⟩
  have waits := (Queue.waiting_of_take? next.next).1.mem_iff.mpr List.mem_cons_self
  have line : r.queued ∈ d.line := List.mem_append_left _ (List.mem_map_of_mem hr)
  have other : q ≠ r.queued :=
    (List.nodup_append.mp regular.nodup_circulating).2.2 q waits r.queued line
  exact freed.append [.took q] (by simpa using other)

end Blocked

end Docket

namespace Allocator

open Journal

theorem run_awake (W : World σ) (advisors : List Advisor) (sink : AuditSink) (w : σ)
    (hs : List (Happening σ)) :
    (((initial advisors sink w).run W hs).docket none 0).Awake :=
  (run_holds Docket.Awake.act (fun next _ h => h.take next) advisors sink w hs
    ⟨by simp [docket, books, initial], by simp [docket], fun _ _ _ r hr => by cases hr⟩).2

theorem run_blocked {W : World σ} {E : ResourceSet → ResourceSet}
    (pure : ∀ rs w, (W.expand rs w).1 = some (E rs)) (sink : AuditSink) (w : σ)
    (hs : List (Happening σ)) : (((initial [] sink w).run W hs).docket none 0).Blocked E :=
  (run_holds (fun act _ h => Docket.Blocked.act pure act h)
    (fun next sound h => h.take next sound.regular) [] sink w hs
    ⟨rfl, fun r hr => by cases hr⟩).2

/-- While the allocator runs, every deferred request has been served, and if anything has been freed
since, a retry is queued. So without advisors, and if the expander always answers the same, a
deferred request is blocked by another client unless a retry is queued. -/
theorem freed_since_retried (W : World σ) (advisors : List Advisor) (sink : AuditSink) (w : σ)
    (hs : List (Happening σ))
    (running : ((initial advisors sink w).run W hs).phase = .running) :
    let s := (initial advisors sink w).run W hs
    let j := s.setting.journal
    (∀ r ∈ s.deferred, .took r.queued ∈ j ∧
      ∀ x, (∃ e ∈ j.sinceTook r.queued, e.frees x = true) →
        ∃ q ∈ s.setting.queue.waiting, q.command = .retryDeferred) ∧
    (advisors = [] → ∀ E : ResourceSet → ResourceSet, (∀ rs w, (W.expand rs w).1 = some (E rs)) →
      (∀ q ∈ s.setting.queue.waiting, q.command ≠ .retryDeferred) →
      ∀ r ∈ s.deferred, ∃ x ∈ E r.resources, ∃ c,
        s.table.holder x = some c ∧ c ≠ r.client.id) := by
  intro s j
  have awake := run_awake W advisors sink w hs
  have retried {r : Request} (hr : r ∈ s.deferred) (freed : j.FreedSince r.queued) :
      ∃ q ∈ s.setting.queue.waiting, q.command = .retryDeferred :=
    awake.awake running rfl (fun _ none => by cases none) r hr freed
  refine ⟨fun r hr => ⟨awake.served r hr, fun x freed => retried hr ?_⟩,
    fun alone E pure calm r hr => ?_⟩
  · obtain ⟨e, he, frees⟩ := freed
    exact ⟨e, he, x, frees⟩
  · subst alone
    refine ((run_blocked pure sink w hs).blocked r hr).resolve_right fun freed => ?_
    obtain ⟨q, hq, retry⟩ := retried hr freed
    exact calm q hq retry

/-- A request waits for a resource that another client holds; once this one has given it up, a retry
is queued. -/
theorem blocked_then_retried :
    let y : Request := ⟨⟨⟨"y"⟩, "y"⟩, .ofList [⟨"a"⟩], .normal, 1⟩
    let hs : List (Happening Nat) := [asking "x" ["a"], .step, asking "y" ["a"], .step]
    let s := (initial [] .nowhere 0).run (World.steady .yes) hs
    let t := (initial [] .nowhere 0).run (World.steady .yes) (hs ++ [freeing "x" ["a"], .step])
    s.phase = .running ∧ y ∈ s.deferred ∧
    (∃ x ∈ y.resources, ∃ c, s.table.holder x = some c ∧ c ≠ y.client.id) ∧
    t.phase = .running ∧ y ∈ t.deferred ∧
    ∃ q ∈ t.setting.queue.waiting, q.command = .retryDeferred := by
  intro y hs s t
  have running : s.phase = .running := by decide +kernel
  have waits : y ∈ s.deferred := by decide +kernel
  have calm : ∀ q ∈ s.setting.queue.waiting, q.command ≠ .retryDeferred := by decide +kernel
  have still : t.phase = .running := by decide +kernel
  have deferred : y ∈ t.deferred := by decide +kernel
  have freed : ∃ e ∈ t.setting.journal.sinceTook y.queued, e.frees ⟨"a"⟩ = true := by
    decide +kernel
  have blocked := (freed_since_retried _ _ _ _ _ running).2 rfl id (fun _ _ => rfl) calm y waits
  have retried := ((freed_since_retried _ _ _ _ _ still).1 y deferred).2 ⟨"a"⟩ freed
  exact ⟨running, waits, blocked, still, deferred, retried⟩

end Allocator

end Allotment
