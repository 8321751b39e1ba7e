import Allotment.Proofs.Conservation
import Allotment.Proofs.Precedence

/-!
# Withdrawals

A withdrawal drops the deferred requests of its client, and what is dropped is never locked again. A
request that a retry has put back into the queue is not deferred, and stays. A withdrawal finds it
there only if it has the lower priority: whatever was taken, a deferred request among it, is older
than a withdrawal that still waits (`Lasting`).
-/

namespace Allotment

variable {σ : Type}

/-- A grant is made for the request. -/
def Event.grants (r : Request) : Event → Bool
  | .locked g => g.request == r
  | _ => false

namespace Journal

/-- What is settled is not locked, what is called back was locked, and what is deferred was taken. -/
def Lasts : Event → Journal → Prop
  | .locked g, j => settlements g.request j = 0
  | .called g _, j => .locked g ∈ j
  | .deferred r, j => .took r.queued ∈ j
  | _, _ => True

theorem lasts_of_remark {e : Event} (h : e.isRemark = true) (j : Journal) : Lasts e j := by
  cases e <;> simp_all [Event.isRemark, Lasts]

theorem unlocked_of_grants {r : Request} {j : Journal} (h : ∀ e ∈ j, e.grants r = false) (g : Grant)
    (locked : .locked g ∈ j) : g.request ≠ r := by
  simpa [Event.grants] using h _ locked

theorem settlements_pos {r : Request} {j : Journal} {p : Place} (final : p.isFinal = true)
    (h : r ∈ settled p j) : 0 < settlements r j := by
  have found := List.count_pos_iff.mpr h
  unfold settlements
  cases p with
  | queued | deferred | tentative => cases final
  | delivered | withdrawn | cancelled | discarded => omega

theorem unlocked_of_settled {later j : Journal} {g : Grant} (h : Always Lasts (later ++ j))
    (done : 0 < settlements g.request j) : .locked g ∉ later := by
  intro locked
  obtain ⟨es, fs, rfl⟩ := List.append_of_mem locked
  rw [List.append_assoc, List.cons_append] at h
  have open_ : settlements g.request (fs ++ j) = 0 := always_split h
  rw [settlements_append] at open_
  omega

end Journal

namespace Docket

open Journal

variable {W : World σ} {d e : Docket} {q : Queued} {rest : Queue}

/-- The past bears on what comes: only requests go back into the queue, so that what was taken
precedes every other command there. -/
structure Lasting (d : Docket) : Prop where
  lasts : Always Lasts d.journal
  locked : ∀ g ∈ d.pending, .locked g ∈ d.journal
  passed : ∀ p, .took p ∈ d.journal → ∀ x ∈ d.queue.waiting, x.request? = none → p.Precedes x

/-- A request that has not been decided is not settled. -/
theorem Conserved.unsettled_of_hand (h : d.Conserved) (regular : d.Regular) {r : Request}
    (hand : d.hand = some r.queued) : settlements r d.journal = 0 := by
  have total := h r
  have once := List.nodup_iff_count_le_one.mp regular.nodup_entered r.queued
  have here : 0 < d.hand.toList.count r.queued := by simp [hand]
  unfold unsettled at total
  omega

namespace Lasting

/-- Nothing is taken, and what comes into the queue is preceded by what was taken. -/
theorem grow (h : d.Lasting) (es : Journal) (untaken : ∀ x ∈ es, ∀ q, x ≠ .took q)
    (journal : e.journal = es ++ d.journal) (lasts : Always Lasts e.journal)
    (pending : ∀ g ∈ e.pending, g ∈ d.pending ∨ .locked g ∈ e.journal)
    (waiting : ∀ x ∈ e.queue.waiting, x.request? = none → x ∈ d.queue.waiting ∨
      ∀ p, .took p ∈ d.journal → p.Precedes x) : e.Lasting := by
  refine ⟨lasts, fun g hg => ?_, fun p took x hx plain => ?_⟩
  · rcases pending g hg with waits | locked
    · rw [journal]
      exact List.mem_append_right _ (h.locked g waits)
    · exact locked
  · rw [journal] at took
    have took := (List.mem_append.mp took).resolve_left fun m => untaken _ m p rfl
    rcases waiting x hx plain with waits | later
    · exact h.passed p took x waits plain
    · exact later p took

theorem enter (h : d.Lasting) (filed : d.Filed) (regular : d.Regular) (x : Submission) (n : Nat) :
    Lasting { d.enter x with owed := n } := by
  refine h.grow [.entered ⟨x.command, x.priority, d.queue.nextSeq⟩] (by simp) rfl
    ⟨trivial, h.lasts⟩ (fun _ => .inl) fun y hy _ => ?_
  rcases List.mem_cons.mp ((Queue.waiting_enter ..).mem_iff.mp hy) with rfl | hy
  · exact .inr fun p took _ => regular.seq_lt (mem_entered.mpr (filed.entered_of_took took))
  · exact .inl hy

theorem act (act : Act W d e) (sound : d.Sound) (filed : d.Filed) (conserved : d.Conserved)
    (h : d.Lasting) : e.Lasting := by
  have same : ∀ x ∈ d.queue.waiting, x.request? = none → x ∈ d.queue.waiting ∨
      ∀ p, .took p ∈ d.journal → p.Precedes x := fun _ hx _ => .inl hx
  cases act with
  | remark x remark =>
    refine h.grow [x] (fun y hy q => ?_) rfl ⟨lasts_of_remark remark _, h.lasts⟩ (fun _ => .inl) same
    rintro rfl
    cases List.mem_singleton.mp hy
    cases remark
  | enter x => exact h.enter filed sound.regular x d.owed
  | crash | dismiss | forgo => exact ⟨h.lasts, h.locked, h.passed⟩
  | @lock g table hand =>
    refine h.grow [.locked g] (by simp) rfl
      ⟨conserved.unsettled_of_hand sound.regular hand, h.lasts⟩ (fun k hk => ?_) same
    rcases List.mem_append.mp hk with hk | hk
    · exact .inl hk
    · obtain rfl := List.mem_singleton.mp hk
      exact .inr List.mem_cons_self
  | defer r hand =>
    exact h.grow [.deferred r] (by simp) rfl
      ⟨mem_of_served (sound.regular.served _ hand), h.lasts⟩ (fun _ => .inl) same
  | retry p hand command running =>
    -- Only requests come back.
    refine h.grow [.retried d.deferred] (by simp) rfl ⟨trivial, h.lasts⟩ (fun _ => .inl)
      fun x hx plain => .inl ?_
    have back := (waiting_restore (sound.regular.opened running)).mem_iff.mp hx
    refine (List.mem_append.mp back).resolve_left fun m => ?_
    obtain ⟨r, -, rfl⟩ := List.mem_map.mp m
    cases plain
  | withdraw p c =>
    refine h.grow (d.withdrawals c) (fun x hx q => ?_) rfl (always_append (fun x hx k => ?_) h.lasts)
      (fun _ => .inl) same
    · obtain ⟨r, rfl⟩ := Books.mem_withdrawals hx
      simp
    · obtain ⟨r, rfl⟩ := Books.mem_withdrawals hx
      trivial
  | report p => exact h.grow [_] (by simp) rfl ⟨trivial, h.lasts⟩ (fun _ => .inl) same
  | stop p =>
    exact h.grow [_] (by simp) rfl ⟨trivial, h.lasts⟩ (fun _ hk => by cases hk)
      fun x hx => absurd hx List.not_mem_nil
  | @call before g after reply unasked ready =>
    have waits : g ∈ d.pending := by simp [ready.split]
    refine h.grow [.called g reply] (by simp) rfl ⟨h.locked g waits, h.lasts⟩ (fun k hk => ?_) same
    exact .inl ((Books.InOrder.sublist_of_split ready.split).subset hk)
  | strip c rs cause =>
    refine h.grow (d.losses c rs cause) (fun x hx q => ?_) Books.journal_strip ?_
      (fun k hk => .inl (Books.mem_pending_strip.mp hk).1) same
    · obtain ⟨g, -, rfl⟩ | rfl := Books.mem_losses.mp hx <;> simp
    · rw [show (d.strip c rs cause).journal = _ from Books.journal_strip]
      refine always_append (fun x hx k => ?_) h.lasts
      obtain ⟨g, -, rfl⟩ | rfl := Books.mem_losses.mp hx <;> trivial
  | notify n => exact h.enter filed sound.regular _ n

theorem take (next : d.Next q rest) (sound : d.Sound) (h : d.Lasting) : (d.take q rest).Lasting := by
  have perm := (Queue.waiting_of_take? next.next).1
  refine ⟨⟨trivial, h.lasts⟩, fun g hg => List.mem_cons_of_mem _ (h.locked g hg),
    fun p took x hx plain => ?_⟩
  rcases List.mem_cons.mp took with this | took
  · obtain rfl := Event.took.inj this
    exact next.precedes sound.regular x hx
  · exact h.passed p took x (perm.mem_iff.mpr (List.mem_cons_of_mem _ hx)) plain

/-- A command that was taken, and waits again when one that is no request is next, has the lower
priority. -/
theorem waits_lower (h : d.Lasting) (next : d.Next q rest) (plain : q.request? = none) {p : Queued}
    (took : .took p ∈ d.journal) (waits : p ∈ rest.waiting) : p.priority < q.priority := by
  have perm := (Queue.waiting_of_take? next.next).1
  have older := h.passed p took q (perm.mem_iff.mpr List.mem_cons_self) plain
  have first := Queue.first_of_take? next.next p waits
  refine Nat.lt_of_not_le fun le => first ?_
  rcases Nat.lt_or_eq_of_le le with lower | same
  · exact .inl lower
  · have same := (Priority.rank_inj.mp same).symm
    exact .inr ⟨same, older same⟩

end Lasting

end Docket

namespace Allocator

open Journal

variable {W : World σ}

theorem run_lasting (W : World σ) (advisors : List Advisor) (sink : AuditSink) (w : σ)
    (hs : List (Happening σ)) :
    let d := ((initial advisors sink w).run W hs).docket none 0
    d.Sound ∧ d.Filed ∧ d.Conserved ∧ d.Lasting :=
  run_holds (P := fun d => d.Filed ∧ d.Conserved ∧ d.Lasting)
    (fun act sound h =>
      ⟨h.1.act act sound, h.2.1.act act sound, h.2.2.act act sound h.1 h.2.1⟩)
    (fun next sound h => ⟨h.1.take next sound, h.2.1.take next, h.2.2.take next sound⟩)
    advisors sink w hs
    ⟨⟨trivial, fun _ _ m => absurd m List.not_mem_nil⟩, fun _ => rfl,
      ⟨trivial, fun _ m => absurd m List.not_mem_nil, fun _ m => absurd m List.not_mem_nil⟩⟩

theorem step_withdraw {s : Allocator σ} {q : Queued} {rest : Queue} {c : ClientId}
    (running : s.phase = .running) (next : s.setting.queue.take? = some (q, rest))
    (command : q.command = .withdraw c) : s.step W = (s.accept q rest).withdraw W c := by
  simp only [step, isRunning_iff.mpr running, if_true, next, process, command]

theorem deferred_withdraw (W : World σ) (c : ClientId) (s : Allocator σ) :
    (s.withdraw W c).deferred = s.deferred.filter fun r => !(r.client.id == c) := by
  obtain ⟨es, phase, -, -, same⟩ := books_withdraw W c s
  exact congrArg Books.deferred same

theorem journal_withdraw (W : World σ) (c : ClientId) (s : Allocator σ) :
    ∃ es : Journal, (s.withdraw W c).setting.journal = es ++ s.setting.journal ∧
      ∀ g, .locked g ∉ es := by
  obtain ⟨es, phase, quiet, -, same⟩ := books_withdraw W c s
  refine ⟨es ++ s.books.withdrawals c, ?_, fun g m => ?_⟩
  · rw [List.append_assoc]
    exact congrArg Books.journal same
  · rcases List.mem_append.mp m with m | m
    · exact absurd (quiet _ m) (by simp [Event.isQuiet])
    · obtain ⟨r, other⟩ := Books.mem_withdrawals m
      cases other

/-- A request that was deferred is settled by a withdrawal of its client, unless it is locked by
then or waits in the queue. -/
theorem settled_of_withdraw (W : World σ) (advisors : List Advisor) (sink : AuditSink) (w : σ)
    (hs : List (Happening σ)) {q : Queued} {rest : Queue} {r : Request} :
    let s := (initial advisors sink w).run W hs
    s.phase = .running → s.setting.queue.take? = some (q, rest) →
      q.command = .withdraw r.client.id → .took r.queued ∈ s.setting.journal →
      (∀ g, .locked g ∈ s.setting.journal → g.request ≠ r) → r.queued ∉ rest.waiting →
      0 < settlements r (s.step W).setting.journal := by
  intro s running next command took unlocked gone
  obtain ⟨-, filed, -, lasting⟩ := run_lasting W advisors sink w hs
  obtain ⟨sound, -, conserved, -⟩ := run_lasting W advisors sink w (hs ++ [.step])
  rw [run_append] at sound conserved
  obtain ⟨grown, journal⟩ := run_grows (W := W) s [.step]
  have entered : r.queued ∈ (s.step W).setting.journal.entered := by
    have came := filed.entered_of_took took
    exact mem_entered.mpr (journal ▸ List.mem_append_right _ came)
  obtain ⟨p, only⟩ := conserved.exists_place sound.regular rfl entered
  have found : r ∈ (s.step W).requestsAt p := by
    have single := only p
    rw [if_pos rfl] at single
    exact List.mem_of_mem_filter (single ▸ List.mem_singleton_self r)
  have served := step_withdraw (W := W) running next command
  -- It has come in, so it is in one place after the step, and that can only be a final one.
  cases p with
  | queued =>
    obtain ⟨x, waits, same⟩ := List.mem_filterMap.mp found
    obtain rfl := Queued.request?_eq_some_iff.mp same
    refine absurd ?_ gone
    have queue : (s.step W).setting.queue = rest := by rw [served, queue_withdraw]; rfl
    rw [← queue]
    exact waits
  | deferred =>
    have dropped : r ∈ (s.step W).deferred := found
    rw [served, deferred_withdraw] at dropped
    simp at dropped
  | tentative =>
    obtain ⟨g, pending, rfl⟩ := List.mem_map.mp found
    have pending : g ∈ (s.step W).pending := pending
    rw [served, pending_withdraw] at pending
    exact absurd rfl (unlocked g (lasting.locked g pending))
  | delivered | withdrawn | cancelled | discarded => exact settlements_pos rfl found

/-- Once a withdrawal of its client has been served, a request that had been deferred and was not
locked by then is never locked and its client never called back for it, except if a retry has put it
back into the queue and it still waits there with a lower priority than the withdrawal. -/
theorem withdrawal_final (W : World σ) (advisors : List Advisor) (sink : AuditSink) (w : σ)
    (hs ks : List (Happening σ)) {q : Queued} {rest : Queue} {c : ClientId} {r : Request} :
    let s := (initial advisors sink w).run W hs
    let j := (s.run W (.step :: ks)).setting.journal
    s.phase = .running → s.setting.queue.take? = some (q, rest) → q.command = .withdraw c →
    r.client.id = c → .deferred r ∈ s.setting.journal →
    (∀ g, .locked g ∈ s.setting.journal → g.request ≠ r) →
    ¬ (r.queued ∈ rest.waiting ∧ r.priority < q.priority) →
    ∀ g, g.request = r → .locked g ∉ j ∧ ∀ reply, .called g reply ∉ j := by
  intro s j running next command client deferred unlocked behind g same
  subst client
  subst same
  obtain ⟨-, -, -, lasting⟩ := run_lasting W advisors sink w hs
  have took : .took g.request.queued ∈ s.setting.journal :=
    mem_of_always lasting.lasts deferred fun _ => id
  have plain : q.request? = none := by
    obtain ⟨command', priority, seq⟩ := q
    cases command
    rfl
  have gone : g.request.queued ∉ rest.waiting := fun waits =>
    behind ⟨waits, lasting.waits_lower ⟨running, rfl, rfl, next⟩ plain took waits⟩
  have settled := settled_of_withdraw W advisors sink w hs running next command took unlocked gone
  obtain ⟨-, -, -, last⟩ := run_lasting W advisors sink w (hs ++ .step :: ks)
  rw [run_append] at last
  have lasts : Always Lasts j := last.lasts
  have never : .locked g ∉ j := by
    obtain ⟨later, grown⟩ : ∃ later : Journal, j = later ++ (s.step W).setting.journal :=
      run_grows (W := W) (s.step W) ks
    obtain ⟨es, meanwhile, silent⟩ := journal_withdraw W g.request.client.id (s.accept q rest)
    rw [← step_withdraw running next command] at meanwhile
    rw [grown] at lasts ⊢
    rw [List.mem_append, meanwhile, List.mem_append]
    rintro (locked | locked | locked)
    · exact unlocked_of_settled lasts settled locked
    · exact silent g locked
    · exact unlocked g (List.mem_of_ne_of_mem (by simp) locked) rfl
  exact ⟨never, fun reply called => never (mem_of_always lasts called fun _ => id)⟩

/-- A request is deferred, put back by a retry and deferred again before its client withdraws; nothing
comes of it once its resource is given up. -/
theorem withdrawn_after_retry :
    let y : Request := ⟨⟨⟨"y"⟩, "y"⟩, .ofList [⟨"a"⟩], .normal, 1⟩
    let s := (initial [] .nowhere 0).run (World.steady .yes)
      [asking "x" ["a"], .step, asking "y" ["a"], .step, .submit ⟨.retryDeferred, .normal⟩,
        .submit ⟨.withdraw ⟨"y"⟩, .normal⟩, .step, .step]
    let t := s.run (World.steady .yes) (.step :: freeing "x" ["a"] :: List.replicate 3 .step)
    .deferred y ∈ s.setting.journal ∧ t.table.holder ⟨"a"⟩ = none ∧ t.setting.queue.waiting = [] ∧
    ∀ g, g.request = y →
      .locked g ∉ t.setting.journal ∧ ∀ reply, .called g reply ∉ t.setting.journal := by
  intro y s t
  have running : s.phase = .running := by decide +kernel
  have deferred : .deferred y ∈ s.setting.journal := by decide +kernel
  have unlocked : ∀ e ∈ s.setting.journal, e.grants y = false := by decide +kernel
  have first : s.setting.queue.take?.map (fun x => (x.1.command, x.2.waiting)) =
      some (.withdraw ⟨"y"⟩, []) := by decide +kernel
  obtain ⟨⟨q, rest⟩, next, same⟩ := Option.map_eq_some_iff.mp first
  obtain ⟨command, alone⟩ := Prod.mk.inj same
  refine ⟨deferred, by decide +kernel, by decide +kernel, ?_⟩
  exact withdrawal_final _ _ _ _ _ _ running next command rfl deferred (unlocked_of_grants unlocked)
    (by simp [alone])

/-- A deferred request of a low priority has been put back by a retry when its client withdraws: the
withdrawal overtakes it, and it is granted. -/
theorem withdrawn_while_queued :
    let y : Request := ⟨⟨⟨"y"⟩, "y"⟩, .ofList [⟨"a"⟩], .low, 1⟩
    let g : Grant := ⟨y, y.resources, y.resources⟩
    let s := (initial [] .nowhere 0).run (World.steady .yes)
      [asking "x" ["a"], .step, .submit ⟨.allocate y.client y.resources, .low⟩, .step,
        freeing "x" ["a"], .submit ⟨.retryDeferred, .normal⟩, .submit ⟨.withdraw ⟨"y"⟩, .normal⟩,
        .step, .step]
    let j := (s.run (World.steady .yes) (.step :: List.replicate 3 .step)).setting.journal
    s.phase = .running ∧
    (∃ q rest, s.setting.queue.take? = some (q, rest) ∧ q.command = .withdraw y.client.id) ∧
    .deferred y ∈ s.setting.journal ∧ (∀ k, .locked k ∈ s.setting.journal → k.request ≠ y) ∧
    .locked g ∈ j ∧ .called g .accept ∈ j := by
  intro y g s j
  have unlocked : ∀ e ∈ s.setting.journal, e.grants y = false := by decide +kernel
  have first : s.setting.queue.take?.map (·.1.command) = some (.withdraw ⟨"y"⟩) := by
    decide +kernel
  obtain ⟨⟨q, rest⟩, next, command⟩ := Option.map_eq_some_iff.mp first
  exact ⟨by decide +kernel, ⟨q, rest, next, command⟩, by decide +kernel,
    unlocked_of_grants unlocked, by decide +kernel, by decide +kernel⟩

end Allocator

end Allotment
