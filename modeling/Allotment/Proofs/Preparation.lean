import Allotment.Proofs.Moves

/-!
# What becomes of the grant a resource was locked under

While a resource is held, the grant it was locked under last has one of three fates (`Fate`): it is
tentative still, it was prepared and its client accepted it, or it was dropped because its client
lost another resource of it. A dropped grant leaves what else it locked with its client, whom
nothing keeps from being called back over it.
-/

namespace Allotment

/-- What has become of a grant under which `r` was locked, by the tentative grants and the entries
made since. -/
inductive Fate (pending : List Grant) (since : List Event) (r : ResourceId) (g : Grant) : Prop
  | tentative (waits : g ∈ pending) (unanswered : g.prepared ∉ since) (kept : .cancelled g ∉ since)
  | accepted (gone : g ∉ pending) (answered : g.prepared ∈ since)
      (called : .called g .accept ∈ since) (kept : .cancelled g ∉ since)
  | dropped (gone : g ∉ pending) (unanswered : g.prepared ∉ since) (dropped : .cancelled g ∈ since)
      (lost : ∃ x ∈ g.expanded, x ≠ r ∧ ∃ rs cause, .freed g.client rs cause ∈ since ∧ x ∈ rs)

theorem Fate.grow {pending pending' : List Grant} {since es : List Event} {r : ResourceId}
    {g : Grant} (h : Fate pending since r g) (same : g ∈ pending' ↔ g ∈ pending)
    (silent : ∀ e ∈ es, e ≠ g.prepared ∧ e ≠ .cancelled g) : Fate pending' (es ++ since) r g := by
  have unanswered (k : g.prepared ∉ since) : g.prepared ∉ es ++ since := fun m =>
    (List.mem_append.mp m).elim (fun m => (silent _ m).1 rfl) k
  have kept (k : .cancelled g ∉ since) : .cancelled g ∉ es ++ since := fun m =>
    (List.mem_append.mp m).elim (fun m => (silent _ m).2 rfl) k
  cases h with
  | tentative waits hu hk => exact .tentative (same.mpr waits) (unanswered hu) (kept hk)
  | accepted gone answered called hk =>
    exact .accepted (mt same.mp gone) (List.mem_append_right _ answered)
      (List.mem_append_right _ called) (kept hk)
  | dropped gone hu dropped lost =>
    obtain ⟨x, hx, other, rs, cause, freed, hr⟩ := lost
    exact .dropped (mt same.mp gone) (unanswered hu) (List.mem_append_right _ dropped)
      ⟨x, hx, other, rs, cause, List.mem_append_right _ freed, hr⟩

/-- Moves no resource, and says nothing of what becomes of a grant. -/
def Aside (e : Event) : Prop :=
  e.isStill = true ∧ ∀ g : Grant, e ≠ g.prepared ∧ e ≠ .cancelled g

theorem aside_of_quiet {e : Event} (h : e.isQuiet = true) : Aside e := by
  refine ⟨Event.still_of_quiet h, fun g => ⟨?_, ?_⟩⟩ <;> rintro rfl <;> cases h

theorem aside_of_entered {e : Event} (h : ∃ q, e = .entered q) : Aside e :=
  aside_of_quiet (Event.quiet_of_background (Event.background_of_entered h))

namespace Books

open Journal

variable {b b' : Books} {r : ResourceId}

/-- Whoever holds `r` got it by a grant of its own, which has one of the three fates. -/
def Settled (b : Books) (r : ResourceId) : Prop :=
  ∀ c, b.table.holder r = some c → ∃ g, b.journal.locker r = some g ∧ g.client = c ∧
    r ∈ g.expanded ∧ Fate b.pending (b.journal.sinceLock r) r g

/-- What a tentative grant claims was locked for it, and not again since. -/
def Traced (b : Books) : Prop := ∀ g ∈ b.pending, ∀ r ∈ g.claimed, b.journal.locker r = some g

theorem Traced.grow {es : List Event} (h : b.Traced) (journal : b'.journal = es ++ b.journal)
    (locks : ∀ e ∈ es, ∀ r, e.locks r = false) (fewer : ∀ g ∈ b'.pending, g ∈ b.pending) :
    b'.Traced := by
  intro g hg r hr
  rw [journal, locker_append fun e he => locks e he r]
  exact h g (fewer g hg) r hr

structure Accounted (b : Books) : Prop where
  traced : b.Traced
  settled : b.phase = .running → ∀ r, b.Settled r

/-- Entries that say nothing of the grant behind `r` leave it settled. -/
theorem Settled.grow {es : List Event} (h : b.Settled r)
    (holder : b'.table.holder r = b.table.holder r) (journal : b'.journal = es ++ b.journal)
    (locks : ∀ e ∈ es, e.locks r = false)
    (silent : ∀ k, b.journal.locker r = some k → (k ∈ b'.pending ↔ k ∈ b.pending) ∧
      ∀ e ∈ es, e ≠ k.prepared ∧ e ≠ .cancelled k) : b'.Settled r := by
  intro c hc
  obtain ⟨g, locker, client, hx, fate⟩ := h c (holder ▸ hc)
  obtain ⟨same, silent⟩ := silent g locker
  refine ⟨g, ?_, client, hx, ?_⟩
  · rw [journal, locker_append locks, locker]
  · rw [journal, sinceLock_append locks]
    exact fate.grow same silent

/-! ### Delivering -/

/-- A grant that is ready rests on none of the tentative grants of its client. -/
theorem Ready.unclaimed (h : b.InOrder) {before after : List Grant} {g k : Grant}
    (ready : b.Ready before g after) (hk : k ∈ before ++ after) (same : k.client = g.client)
    (hr : r ∈ g.expanded) : r ∉ k.claimed := by
  intro claimed
  have apart := h.apart
  have claims := h.claims
  rw [ready.split] at apart claims
  obtain ⟨-, apart, -⟩ := List.pairwise_append.mp apart
  rcases List.mem_append.mp hk with hk | hk
  · have free := ready.free k hk
    have held : k.holdsBack g = true := by
      simp only [Grant.holdsBack, Bool.and_eq_true, beq_iff_eq, ResourceSet.meets_iff]
      exact ⟨same, r, claims k (List.mem_append_left _ hk) r claimed, hr⟩
    rw [held] at free
    cases free
  · exact (List.pairwise_cons.mp apart).1 k hk same.symm r claimed hr

theorem Accounted.settled_handOver (a : b.Accounted) {before after : List Grant}
    {g : Grant} (reply : Reply) (ready : b.Ready before g after) (hr : r ∉ g.claimed) :
    (b.handOver before g after reply).Settled r := by
  have journal : (b.handOver before g after reply).journal = g.delivery reply ++ b.journal := rfl
  refine (a.settled ready.running r).grow rfl journal ?_ ?_
  · exact fun e he => Event.locks_of_still (g.still_of_delivery reply e he) r
  · intro k locker
    have claimed := mem_claimed_of_locker locker
    have other : k ≠ g := fun e => hr (e ▸ claimed)
    refine ⟨by simp [handOver, ready.split, other], List.forall_mem_cons.mpr ⟨?_, fun e he => ?_⟩⟩
    · simp [Grant.prepared]
    · rw [Grant.eq_prepared_of_approval he]
      refine ⟨fun same => hr ?_, by simp [Grant.prepared]⟩
      exact Grant.claimed_eq_of_prepared same ▸ claimed

theorem Accounted.tentative (a : b.Accounted) (order : b.InOrder) (running : b.phase = .running)
    {g : Grant} (hg : g ∈ b.pending) (hr : r ∈ g.claimed) :
    g.prepared ∉ b.journal.sinceLock r ∧ .cancelled g ∉ b.journal.sinceLock r := by
  have held := order.covered g hg r (order.claims g hg r hr)
  obtain ⟨k, locker, -, -, fate⟩ := a.settled running r g.client held
  obtain rfl : g = k := Option.some.inj ((a.traced g hg r hr).symm.trans locker)
  cases fate with
  | tentative _ unanswered kept => exact ⟨unanswered, kept⟩
  | accepted gone => exact absurd hg gone
  | dropped gone => exact absurd hg gone

theorem Accounted.settled_accept (a : b.Accounted) (order : b.InOrder) {before after : List Grant}
    {g : Grant} (ready : b.Ready before g after) (r : ResourceId) :
    (b.handOver before g after .accept).Settled r := by
  -- Only what the grant itself claims rests on its fate.
  by_cases hr : r ∈ g.claimed
  · have hg : g ∈ b.pending := by simp [ready.split]
    have hx := order.claims g hg r hr
    have locks : ∀ e ∈ g.delivery .accept, e.locks r = false := fun e he =>
      Event.locks_of_still (g.still_of_delivery .accept e he) r
    intro c hc
    have client := Option.some.inj ((order.covered g hg r hx).symm.trans hc)
    refine ⟨g, (locker_append locks _).trans (a.traced g hg r hr), client, hx, ?_⟩
    rw [show (b.handOver before g after .accept).journal = g.delivery .accept ++ b.journal from rfl,
      sinceLock_append locks]
    have answered := Grant.prepared_mem_approval hr
    refine .accepted ?_ (by simp [Grant.delivery, answered]) (by simp [Grant.delivery]) ?_
    · exact fun again => ready.unclaimed order again rfl hx hr
    · intro m
      rcases List.mem_append.mp m with m | m
      · rcases List.mem_cons.mp m with m | m
        · cases m
        · cases Grant.eq_prepared_of_approval m
      · exact (a.tentative order ready.running hg hr).2 m
  · exact a.settled_handOver .accept ready hr

/-! ### Losing resources -/

theorem InOrder.settled_strip (order : b.InOrder) {c : ClientId} {rs : ResourceSet}
    {cause : FreeCause} (h : r ∈ rs ∧ b.table.holder r = some c ∨ b.Settled r) :
    (b.strip c rs cause).Settled r := by
  intro d hd
  have held := held_of_strip hd
  have settled : b.Settled r := by
    refine h.resolve_left fun taken => ?_
    rw [holder_strip, if_pos taken] at hd
    cases hd
  obtain ⟨g, locker, client, hx, fate⟩ := settled d held
  refine ⟨g, ?_, client, hx, ?_⟩
  · rw [journal_strip, locker_append fun e he => locks_losses he r, locker]
  · rw [journal_strip, sinceLock_append fun e he => locks_losses he r]
    by_cases orphan : g ∈ b.orphans c rs
    · -- Only a tentative grant can be dropped, and what it lost is in the set.
      obtain ⟨hg, own, x, hx, hxs⟩ := order.mem_orphans.mp orphan
      have lost : x ∈ b.table.heldOf c rs :=
        Table.mem_heldOf.mpr ⟨hxs, own ▸ order.covered g hg x hx⟩
      have other : x ≠ r := fun e => not_stripped ((client.symm.trans own) ▸ hd) (e ▸ hxs)
      cases fate with
      | accepted gone => exact absurd hg gone
      | dropped gone => exact absurd hg gone
      | tentative _ unanswered =>
        refine .dropped (fun k => (mem_pending_strip.mp k).2 orphan) (fun m => ?_)
          (List.mem_append_left _ (mem_losses.mpr (.inl ⟨g, orphan, rfl⟩)))
          ⟨x, hx, other, b.table.heldOf c rs, cause,
            List.mem_append_left _ (mem_losses.mpr (.inr (own ▸ rfl))), lost⟩
        rcases List.mem_append.mp m with m | m
        · obtain ⟨k, -, m⟩ | m := mem_losses.mp m <;> cases m
        · exact unanswered m
    · refine fate.grow ?_ fun e he => ?_
      · rw [mem_pending_strip]
        exact and_iff_left orphan
      · obtain ⟨k, hk, rfl⟩ | rfl := mem_losses.mp he
        · exact ⟨by simp [Grant.prepared], fun same => orphan (Event.cancelled.inj same ▸ hk)⟩
        · simp [Grant.prepared]

theorem Traced.handOver (h : b.Traced) {before after : List Grant} {g : Grant} (reply : Reply)
    (split : b.pending = before ++ g :: after) : (b.handOver before g after reply).Traced :=
  h.grow rfl (fun e he => Event.locks_of_still (g.still_of_delivery reply e he))
    (InOrder.sublist_of_split split).subset

theorem Traced.strip (h : b.Traced) {c : ClientId} {rs : ResourceSet} {cause : FreeCause} :
    (b.strip c rs cause).Traced :=
  h.grow journal_strip (fun _ he => locks_losses he) fun _ hg => (mem_pending_strip.mp hg).1

/-! ### Every turn accounts for what is held -/

theorem Accounted.write {es : List Event} (a : b.Accounted) (aside : ∀ e ∈ es, Aside e) :
    (b.write es).Accounted where
  traced := a.traced.grow rfl (fun e he r => Event.locks_of_still (aside e he).1 r) fun _ h => h
  settled running r := (a.settled running r).grow rfl rfl
    (fun e he => Event.locks_of_still (aside e he).1 r) fun k _ =>
      ⟨.rfl, fun e he => (aside e he).2 k⟩

theorem Accounted.lock (a : b.Accounted) (order : b.InOrder) {g : Grant} {table : Table}
    (lockable : b.Lockable g table) :
    Accounted { b.write [.locked g] with table, pending := b.pending ++ [g] } where
  traced k hk r hr := by
    rcases List.mem_append.mp hk with hk | hk
    · have free : r ∉ g.claimed := by
        intro hc
        have held := order.covered k hk r (order.claims k hk r hr)
        rw [lockable.free hc] at held
        cases held
      have unlocked : Event.locks r (.locked g) = false := by simp [Event.locks, free]
      exact (locker_cons_of_not unlocked _).trans (a.traced k hk r hr)
    · obtain rfl := List.mem_singleton.mp hk
      exact locker_locked hr _
  settled _ r := by
    by_cases hr : r ∈ g.claimed
    · intro c hc
      have own : some g.client = some c := by
        rw [← hc]
        exact ((lockable.holders r).trans (if_pos hr)).symm
      refine ⟨g, locker_locked hr _, Option.some.inj own, ((lockable.claimed r).mp hr).1, ?_⟩
      show Fate _ (sinceLock (.locked g :: b.journal) r) r g
      rw [sinceLock_locked hr]
      exact .tentative (by simp) (by simp) (by simp)
    · have unlocked : ∀ e ∈ [Event.locked g], e.locks r = false := by simp [Event.locks, hr]
      refine (a.settled lockable.running r).grow ?_ rfl unlocked ?_
      · exact (lockable.holders r).trans (if_neg hr)
      · intro k locker
        have other : k ≠ g := fun e => hr (e ▸ mem_claimed_of_locker locker)
        exact ⟨by simp [other], by simp [Grant.prepared]⟩

theorem initial_accounted : Accounted {} where
  traced _ hg := by cases hg
  settled _ _ _ held := by cases held

theorem Turn.accounted (turn : Turn b b') (order : b.InOrder) (a : b.Accounted) :
    b'.Accounted := by
  cases turn with
  | quiet es phase quiet kept =>
    obtain ⟨traced, settled⟩ := a.write fun e he => aside_of_quiet (quiet e he)
    refine ⟨traced, fun running => settled ?_⟩
    rcases kept with rfl | rfl
    · exact running
    · cases running
  | lock lockable => exact a.lock order lockable
  | accept ready =>
    exact ⟨a.traced.handOver .accept ready.split, fun _ => a.settled_accept order ready⟩
  | @refuse before g after reply es ready refused entries =>
    have still : ∀ e ∈ es, e.isStill = true := fun e he => Event.still_of_entered (entries e he)
    have traced : (write es (b.handOver before g after reply)).Traced :=
      (a.traced.handOver reply ready.split).grow rfl
        (fun e he => Event.locks_of_still (still e he)) fun _ h => h
    refine ⟨traced.strip, fun _ r => ?_⟩
    -- What the grant claims goes with it; whatever its client keeps has its fate already.
    refine ((order.handOver reply ready.split).write still).settled_strip ?_
    by_cases hr : r ∈ g.claimed
    · have hg : g ∈ b.pending := by simp [ready.split]
      have hx := order.claims g hg r hr
      exact .inl ⟨hx, order.covered g hg r hx⟩
    · refine .inr ((a.settled_handOver reply ready hr).grow rfl rfl ?_ fun k _ => ⟨.rfl, ?_⟩)
      · exact fun e he => Event.locks_of_still (still e he) r
      · exact fun e he => (aside_of_entered (entries e he)).2 k
  | free q c rs running command =>
    have took : ∀ e ∈ [Event.took q], Aside e := by simp [Aside, Event.isStill, Grant.prepared]
    have accounted := a.write took
    have order := order.write fun e he => (took e he).1
    refine ⟨accounted.traced.strip, fun _ r => order.settled_strip (.inr ?_)⟩
    exact accounted.settled running r
  | defer r =>
    have aside : ∀ e ∈ [Event.deferred r], Aside e := by simp [Aside, Event.isStill, Grant.prepared]
    obtain ⟨traced, settled⟩ := a.write aside
    exact ⟨traced, settled⟩
  | retry =>
    have aside : ∀ e ∈ [Event.retried b.deferred], Aside e := by
      simp [Aside, Event.isStill, Grant.prepared]
    obtain ⟨traced, settled⟩ := a.write aside
    exact ⟨traced, settled⟩
  | withdraw c =>
    have aside : ∀ e ∈ b.withdrawals c, Aside e := by
      intro e he
      obtain ⟨r, rfl⟩ := mem_withdrawals he
      exact ⟨rfl, by simp [Grant.prepared]⟩
    obtain ⟨traced, settled⟩ := a.write aside
    exact ⟨traced, settled⟩
  | stop waiting => exact ⟨fun _ hg => (by cases hg), fun running => by cases running⟩

/-! ### What was answered before a call -/

/-- At a call, the advisors have called complete the preparation of whatever the resources were
locked for, but for what was locked for a grant that was dropped. -/
def Answered : Event → Journal → Prop
  | .called g _, j => ∀ r ∈ g.expanded, ∃ k, j.locker r = some k ∧ k.client = g.client ∧
      (k.prepared ∈ j.sinceLock r ↔ .cancelled k ∉ j.sinceLock r)
  | _, _ => True

theorem answered_of_not_called {e : Event} (h : ∀ g reply, e ≠ .called g reply) (j : Journal) :
    Answered e j := by
  cases e with
  | called g reply => exact absurd rfl (h g reply)
  | _ => trivial

theorem answered_of_quiet {e : Event} (h : e.isQuiet = true) (j : Journal) : Answered e j :=
  answered_of_not_called (by rintro g reply rfl; cases h) j

theorem Accounted.answered (a : b.Accounted) (order : b.InOrder) {before after : List Grant}
    {g : Grant} (ready : b.Ready before g after) (reply : Reply) :
    Answered (.called g reply) (g.approval ++ b.journal) := by
  intro r hr
  have hg : g ∈ b.pending := by simp [ready.split]
  have locks : ∀ e ∈ g.approval, e.locks r = false := fun e he =>
    Event.locks_of_still (g.still_of_approval e he) r
  have held := order.covered g hg r hr
  obtain ⟨k, locker, client, -, fate⟩ := a.settled ready.running r g.client held
  refine ⟨k, (locker_append locks _).trans locker, client, ?_⟩
  have claimed := mem_claimed_of_locker locker
  have kept : .cancelled k ∉ g.approval := fun m => by cases Grant.eq_prepared_of_approval m
  rw [sinceLock_append locks, List.mem_append, List.mem_append]
  cases fate with
  | tentative waits _ hk =>
    -- Only the grant that is delivered can be the tentative one behind `r`.
    have own : k = g := by
      refine Classical.byContradiction fun other => ?_
      have rest : k ∈ before ++ after := by simpa [ready.split, other] using waits
      exact ready.unclaimed order rest client hr claimed
    subst own
    exact iff_of_true (.inl (Grant.prepared_mem_approval claimed)) (not_or.mpr ⟨kept, hk⟩)
  | accepted _ answered _ hk => exact iff_of_true (.inr answered) (not_or.mpr ⟨kept, hk⟩)
  | dropped gone unanswered dropped =>
    refine iff_of_false (not_or.mpr ⟨fun m => ?_, unanswered⟩) (fun kept => kept (.inr dropped))
    have same := Grant.claimed_eq_of_prepared (Grant.eq_prepared_of_approval m)
    have own := a.traced g hg r (same ▸ claimed)
    exact gone (Option.some.inj (locker.symm.trans own) ▸ hg)

theorem Accounted.answered_handOver (a : b.Accounted) (order : b.InOrder)
    {before after : List Grant} {g : Grant} (ready : b.Ready before g after) (reply : Reply)
    (h : Always Answered b.journal) :
    Always Answered (b.handOver before g after reply).journal := by
  refine ⟨a.answered order ready reply, always_append (fun e he => ?_) h⟩
  rw [Grant.eq_prepared_of_approval he]
  exact fun _ => trivial

theorem answered_strip {c : ClientId} {rs : ResourceSet} {cause : FreeCause}
    (h : Always Answered b.journal) : Always Answered (b.strip c rs cause).journal := by
  rw [journal_strip]
  refine always_append (fun e he => ?_) h
  obtain ⟨g, -, rfl⟩ | rfl := mem_losses.mp he <;> exact fun _ => trivial

theorem Turn.answered (turn : Turn b b') (order : b.InOrder) (a : b.Accounted)
    (h : Always Answered b.journal) : Always Answered b'.journal := by
  cases turn with
  | quiet es phase quiet => exact always_append (fun e he => answered_of_quiet (quiet e he)) h
  | accept ready => exact a.answered_handOver order ready .accept h
  | refuse reply es ready _ entries =>
    refine answered_strip (always_append (fun e he => ?_) (a.answered_handOver order ready reply h))
    exact answered_of_quiet (Event.quiet_of_background (Event.background_of_entered (entries e he)))
  | free q c rs => exact answered_strip ⟨trivial, h⟩
  | withdraw c =>
    refine always_append (fun e he => ?_) h
    obtain ⟨r, rfl⟩ := mem_withdrawals he
    exact fun _ => trivial
  | lock | defer | retry | stop => exact ⟨trivial, h⟩

end Books

namespace Allocator

open Journal

variable {σ : Type}

theorem run_accounted (W : World σ) (advisors : List Advisor) (sink : AuditSink) (w : σ)
    (hs : List (Happening σ)) :
    ((initial advisors sink w).run W hs).books.Accounted ∧
      Always Books.Answered ((initial advisors sink w).run W hs).setting.journal := by
  have invariant := Books.turns_invariant
    (fun {b b'} turn (h : b.InOrder ∧ b.Accounted ∧ Always Books.Answered b.journal) =>
      (⟨turn.inOrder h.1, turn.accounted h.1 h.2.1, turn.answered h.1 h.2.1 h.2.2⟩ :
        b'.InOrder ∧ b'.Accounted ∧ Always Books.Answered b'.journal))
    (run_moves W (initial advisors sink w) hs).turns
    ⟨Books.initial_inOrder, Books.initial_accounted, trivial⟩
  exact invariant.2

/-! ### Calls -/

/-- When a client is called back over a resource, the advisors have called its preparation complete
since it was locked, for the set it was locked with, if and only if the grant it was locked under
has not been dropped in the meantime. -/
theorem called_over_prepared_iff_kept (W : World σ) (advisors : List Advisor) (sink : AuditSink)
    (w : σ) (hs : List (Happening σ)) (later earlier : Journal) (g : Grant) (reply : Reply)
    (split : ((initial advisors sink w).run W hs).setting.journal =
      later ++ .called g reply :: earlier) :
    ∀ r ∈ g.expanded, ∃ k, earlier.locker r = some k ∧ k.client = g.client ∧
      (.consulted .complete k.client k.claimed true ∈ earlier.sinceLock r ↔
        .cancelled k ∉ earlier.sinceLock r) := by
  have answered := (run_accounted W advisors sink w hs).2
  rw [split] at answered
  exact always_split answered

/-- Two resources are locked together, one of them is asked for again, and the other given up: the
client is called over the one that it still holds, though no preparation was ever complete. -/
theorem called_over_unprepared :
    let j := ((initial [.outside 0 "slow"] .nowhere 0).run (.steady .no)
      [asking "x" ["a", "b"], .step, asking "x" ["b"], .step, freeing "x" ["a"], .step]
        ).setting.journal
    ∃ later g reply earlier, j = later ++ .called g reply :: earlier ∧
      (∀ r ∈ g.expanded, ∃ k, Journal.locker earlier r = some k ∧ k.client = g.client ∧
        (.consulted .complete k.client k.claimed true ∈ Journal.sinceLock earlier r ↔
          .cancelled k ∉ Journal.sinceLock earlier r)) ∧
      ⟨"b"⟩ ∈ g.expanded ∧ ∀ c rs, .consulted .complete c rs true ∉ j := by
  intro j
  let again : Grant := ⟨⟨⟨⟨"x"⟩, "x"⟩, .ofList [⟨"b"⟩], .normal, 1⟩, .ofList [⟨"b"⟩], ∅⟩
  have split : j = j.take 4 ++ .called again .accept :: j.drop 5 := by decide +kernel
  have answered := called_over_prepared_iff_kept (.steady .no) [.outside 0 "slow"] .nowhere 0 _
    (j.take 4) (j.drop 5) again .accept split
  have unprepared : j.all (!·.completes) = true := by decide +kernel
  refine ⟨_, again, .accept, _, split, answered, by decide, fun c rs said => ?_⟩
  exact absurd (List.all_eq_true.mp unprepared _ said) (by simp [Event.completes])

/-! ### Holders -/

/-- Why a client holds a resource. -/
inductive HeldFor (s : Allocator σ) (r : ResourceId) (c : ClientId) : Prop
  | tentative (g : Grant) (waits : g ∈ s.pending) (client : g.client = c) (covers : r ∈ g.expanded)
  | accepted (g : Grant) (called : .called g .accept ∈ s.setting.journal.sinceLock r)
      (client : g.client = c) (covers : r ∈ g.expanded)
  /-- The grant it was locked under was dropped when the client lost another resource of it. -/
  | dropped (g : Grant) (locked : s.setting.journal.locker r = some g) (client : g.client = c)
      (covers : r ∈ g.expanded) (dropped : .cancelled g ∈ s.setting.journal.sinceLock r)
      (lost : ∃ x ∈ g.expanded, x ≠ r ∧ ∃ rs cause,
        .freed c rs cause ∈ s.setting.journal.sinceLock r ∧ x ∈ rs)

/-- Whatever is held is held for a tentative grant, by a grant that its client has accepted since it
was locked, or because the grant it was locked under has been dropped since. -/
theorem held_for_a_grant (W : World σ) (advisors : List Advisor) (sink : AuditSink) (w : σ)
    (hs : List (Happening σ)) :
    let s := (initial advisors sink w).run W hs
    s.phase = .running → ∀ r c, s.table.holder r = some c → s.HeldFor r c := by
  intro s running r c held
  have accounted : s.books.Accounted := (run_accounted W advisors sink w hs).1
  obtain ⟨g, locked, client, covers, fate⟩ := accounted.settled running r c held
  cases fate with
  | tentative waits => exact .tentative g waits client covers
  | accepted _ _ called => exact .accepted g called client covers
  | dropped _ _ dropped lost => exact .dropped g locked client covers dropped (client ▸ lost)

theorem held_for_a_dropped_grant :
    let s := (initial [.outside 0 "slow"] .nowhere 0).run (.steady .no)
      [asking "x" ["a", "b", "c"], .step, freeing "x" ["a"], .step]
    s.phase = .running ∧ s.table.holder ⟨"c"⟩ = some ⟨"x"⟩ ∧ s.HeldFor ⟨"c"⟩ ⟨"x"⟩ := by
  intro s
  have running : s.phase = .running := by decide +kernel
  have held : s.table.holder ⟨"c"⟩ = some ⟨"x"⟩ := by decide +kernel
  exact ⟨running, held, held_for_a_grant _ _ _ _ _ running _ _ held⟩

/-- A resource can be held though no grant is tentative and none was ever accepted. -/
theorem held_for_no_grant :
    let s := (initial [.outside 0 "slow"] .nowhere 0).run (.steady .no)
      [asking "x" ["a", "b"], .step, freeing "x" ["a"], .step]
    s.phase = .running ∧ s.table.holder ⟨"b"⟩ = some ⟨"x"⟩ ∧ s.pending = [] ∧
      ∀ g, .called g .accept ∉ s.setting.journal := by
  intro s
  have uncalled : s.setting.journal.all (!·.calls) = true := by decide +kernel
  refine ⟨by decide +kernel, by decide +kernel, by decide +kernel, fun g called => ?_⟩
  exact absurd (List.all_eq_true.mp uncalled _ called) (by simp [Event.calls])

end Allocator

end Allotment
