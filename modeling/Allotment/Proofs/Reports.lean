import Allotment.Proofs.Withdrawal

/-!
# Reports hide nothing

A retry puts the deferred requests back into the queue, and there no report shows them. But a report
is made when its command is next, and whatever came in before that command with at least its
priority has left the queue by then (`Next.passed`). So an earlier request is deferred or tentative,
and the report shows it, unless it was delivered, withdrawn or cancelled (`reports_hide_nothing`).
-/

namespace Allotment

variable {σ : Type} {W : World σ}

/-- `a` came in before `b` and has at least its priority. -/
def Queued.Ahead (a b : Queued) : Prop := a.seq < b.seq ∧ b.priority ≤ a.priority

instance (a b : Queued) : Decidable (a.Ahead b) :=
  inferInstanceAs (Decidable (a.seq < b.seq ∧ b.priority ≤ a.priority))

theorem Queued.Ahead.before {a b : Queued} (h : a.Ahead b) : a.before b := by
  obtain ⟨earlier, priority⟩ := h
  rcases Nat.lt_or_eq_of_le priority with higher | same
  · exact .inl higher
  · exact .inr ⟨(Priority.rank_inj.mp same).symm, earlier⟩

/-- The report shows these requests as deferred and these grants as tentative, with one entry for
each, and no request twice. -/
structure Snapshot.Lists (snap : Snapshot) (ds : List Request) (gs : List Grant) : Prop where
  deferred : snap.deferred = ds.map fun r => ⟨r.client.id, r.resources⟩
  tentative : snap.pendingPreparations = gs.map fun g => ⟨g.client, g.expanded⟩
  apart : ((ds ++ gs.map (·.request)).map (·.seq)).Nodup

namespace Docket

open Journal

variable {d e : Docket} {q : Queued} {rest : Queue}

/-! ### Nothing is discarded by an allocator that runs -/

def Undiscarded (d : Docket) : Prop := d.phase = .running → d.journal.settled .discarded = []

namespace Undiscarded

theorem grow (h : d.Undiscarded) (es : Journal) (journal : e.journal = es ++ d.journal)
    (kept : ∀ x ∈ es, x.settles .discarded = [])
    (running : e.phase = .running → d.phase = .running) : e.Undiscarded := by
  intro now
  have none : settled .discarded es = [] := List.flatMap_eq_nil_iff.mpr kept
  rw [journal, settled_append, none, h (running now)]
  rfl

theorem act (act : Act W d e) (h : d.Undiscarded) : e.Undiscarded := by
  cases act with
  | remark x remark =>
    refine h.grow [x] rfl (fun y hy => ?_) id
    obtain rfl := List.mem_singleton.mp hy
    cases y <;> first | rfl | cases remark
  | crash | stop => exact fun running => by cases running
  | dismiss | forgo => exact h
  | enter | notify | lock | defer | retry | report | call =>
    exact h.grow [_] rfl (by simp [Event.settles]) id
  | withdraw p c =>
    refine h.grow (d.withdrawals c) rfl (fun x hx => ?_) id
    obtain ⟨r, rfl⟩ := Books.mem_withdrawals hx
    rfl
  | strip c rs cause =>
    refine h.grow (d.losses c rs cause) Books.journal_strip (fun x hx => ?_) id
    obtain ⟨g, -, rfl⟩ | rfl := Books.mem_losses.mp hx <;> rfl

theorem take (next : d.Next q rest) (h : d.Undiscarded) : (d.take q rest).Undiscarded :=
  h.grow [.took q] rfl (by simp [Event.settles]) fun _ => next.running

end Undiscarded

/-! ### What came in earlier -/

/-- What is ahead of the command that is next has been taken, and is not in the queue. -/
theorem Next.passed (next : d.Next q rest) (filed : d.Filed) {p : Queued}
    (entered : .entered p ∈ d.journal) (ahead : p.Ahead q) :
    .took p ∈ d.journal ∧ p ∉ d.queue.waiting := by
  have perm := (Queue.waiting_of_take? next.next).1
  have gone : p ∉ d.queue.waiting := by
    intro waits
    rcases List.mem_cons.mp (perm.mem_iff.mp waits) with rfl | waits
    · exact Nat.lt_irrefl _ ahead.1
    · exact Queue.first_of_take? next.next p waits ahead.before
  exact ⟨(filed.kept next.running p entered).resolve_right gone, gone⟩

/-- A request that has come in and is not in the queue is deferred or tentative just if it is not
settled. -/
theorem Conserved.open_iff (h : d.Conserved) (regular : d.Regular) (idle : d.hand = none)
    {r : Request} (entered : .entered r.queued ∈ d.journal) (gone : r.queued ∉ d.queue.waiting) :
    r ∈ d.deferred ++ d.pending.map (·.request) ↔ ∀ p : Place, p.isFinal = true →
      r ∉ d.journal.settled p := by
  have total := h.count idle r
  have once := List.count_eq_one_of_mem regular.nodup_entered (mem_entered.mpr entered)
  have unqueued : (requests d.queue.waiting).count r = 0 := by
    rw [count_requests]
    exact List.count_eq_zero.mpr gone
  simp only [requestsAt] at total
  constructor
  · intro among p final settled
    have here := List.count_pos_iff.mpr among
    have there := List.count_pos_iff.mpr settled
    rw [List.count_append] at here
    cases p with
    | queued | deferred | tentative => cases final
    | delivered | withdrawn | cancelled | discarded => omega
  · intro unsettled
    have none {p : Place} (final : p.isFinal = true) : (d.journal.settled p).count r = 0 :=
      List.count_eq_zero.mpr (unsettled p final)
    have delivered := none (p := .delivered) rfl
    have withdrawn := none (p := .withdrawn) rfl
    have cancelled := none (p := .cancelled) rfl
    have discarded := none (p := .discarded) rfl
    refine List.count_pos_iff.mp ?_
    rw [List.count_append]
    omega

/-- No two of the requests that are deferred or tentative have the same number. -/
theorem Conserved.nodup_open (h : d.Conserved) (regular : d.Regular) (idle : d.hand = none) :
    ((d.deferred ++ d.pending.map (·.request)).map (·.seq)).Nodup := by
  have issued {r : Request} (hr : r ∈ d.deferred ++ d.pending.map (·.request)) :
      r.queued ∈ d.journal.entered := by
    rcases List.mem_append.mp hr with hr | hr
    · exact h.entered_of_mem idle (p := .deferred) hr
    · exact h.entered_of_mem idle (p := .tentative) hr
  have distinct : (d.deferred ++ d.pending.map (·.request)).Nodup := by
    refine List.nodup_iff_count_le_one.mpr fun r => ?_
    have total := h.count idle r
    have once := List.nodup_iff_count_le_one.mp regular.nodup_entered r.queued
    simp only [requestsAt] at total
    rw [List.count_append]
    omega
  refine distinct.map_on fun r hr k hk same => ?_
  exact Request.queued_injective (regular.eq_of_seq (issued hr) (issued hk) same)

end Docket

namespace Allocator

open Journal

theorem step_snapshot {s : Allocator σ} {q : Queued} {rest : Queue} (running : s.phase = .running)
    (next : s.setting.queue.take? = some (q, rest)) (command : q.command = .snapshot) :
    s.step W = (s.accept q rest).note (.reported q.seq s.snapshot) := by
  simp only [step, isRunning_iff.mpr running, if_true, next, process, command]
  rfl

/-- When a report is made, every command that came in before it and has at least its priority has
been taken and is not in the queue. The report shows the table, and has an entry of its own for each
request that is deferred, with what was asked for, and for each grant that is tentative, with all
that was locked. These are all the earlier requests of at least its priority but those that were
delivered, withdrawn or cancelled. -/
theorem reports_hide_nothing (W : World σ) (advisors : List Advisor) (sink : AuditSink) (w : σ)
    (hs : List (Happening σ)) {q : Queued} {rest : Queue} :
    let s := (initial advisors sink w).run W hs
    let j := s.setting.journal
    s.phase = .running → s.setting.queue.take? = some (q, rest) → q.command = .snapshot →
    ∃ snap, (s.step W).setting.journal = .reported q.seq snap :: .took q :: j ∧
      (∀ p, .entered p ∈ j → p.Ahead q →
        .took p ∈ j ∧ p ∉ s.setting.queue.waiting ∧ p ∉ (s.step W).setting.queue.waiting) ∧
      (snap.holders = s.table ∧ ∀ r, snap.holder r = j.holder r) ∧
      snap.Lists s.deferred s.pending ∧ (∀ g ∈ s.pending, .locked g ∈ j) ∧
      ∀ r : Request, .entered r.queued ∈ j → r.queued.Ahead q →
        ((r ∈ s.deferred ∨ ∃ g ∈ s.pending, g.request = r) ↔
          ∀ p ∈ [Place.delivered, .withdrawn, .cancelled], r ∉ s.requestsAt p) := by
  intro s j running next command
  obtain ⟨sound, filed, conserved, lasting⟩ := run_lasting W advisors sink w hs
  have undiscarded : j.settled .discarded = [] :=
    (run_holds (P := Docket.Undiscarded) (fun act _ h => h.act act) (fun next _ h => h.take next)
      advisors sink w hs fun _ => rfl).2 running
  have first : (s.docket none 0).Next q rest := ⟨running, rfl, rfl, next⟩
  have served := step_snapshot (W := W) running next command
  refine ⟨s.snapshot, by rw [served]; rfl, fun p entered ahead => ?_,
    ⟨rfl, sound.inOrder.ledger⟩,
    ⟨rfl, rfl, conserved.nodup_open sound.regular rfl⟩, lasting.locked, fun r entered ahead => ?_⟩
  · obtain ⟨took, gone⟩ := first.passed filed entered ahead
    have perm := (Queue.waiting_of_take? next).1
    rw [served]
    exact ⟨took, gone, fun waits => gone (perm.mem_iff.mpr (List.mem_cons_of_mem _ waits))⟩
  · obtain ⟨-, gone⟩ := first.passed filed entered ahead
    have shown := conserved.open_iff sound.regular rfl entered gone
    rw [List.mem_append, List.mem_map] at shown
    refine shown.trans ⟨fun unsettled p hp => ?_, fun unsettled p final => ?_⟩
    · have final : p.isFinal = true := by
        revert p
        decide
      rw [requestsAt_of_final final]
      exact unsettled p final
    · cases p with
      | queued | deferred | tentative => cases final
      | discarded => exact undiscarded ▸ List.not_mem_nil
      | delivered => exact unsettled .delivered (by simp)
      | withdrawn => exact unsettled .withdrawn (by simp)
      | cancelled => exact unsettled .cancelled (by simp)

/-- A request that a retry has put back is served and deferred again before the report is made,
although the report was asked for first. -/
theorem shown_after_retry :
    let y : Request := ⟨⟨⟨"y"⟩, "y"⟩, .ofList [⟨"b"⟩], .normal, 1⟩
    let s := (initial [.outside 0 "site"] .nowhere 0).run (World.steady .no)
      [asking "x" ["a", "b"], .step, asking "y" ["b"], .step, .submit ⟨.snapshot, .low⟩,
        .submit ⟨.retryDeferred, .normal⟩, .step, .step]
    .retried [y] ∈ s.setting.journal ∧ s.phase = .running ∧
    ∃ q rest, s.setting.queue.take? = some (q, rest) ∧ q.command = .snapshot ∧
      y.queued.Ahead q ∧ ∃ snap,
        .reported q.seq snap ∈ (s.step (World.steady .no)).setting.journal ∧
        snap.deferred = [⟨⟨"y"⟩, y.resources⟩] ∧
        snap.pendingPreparations = [⟨⟨"x"⟩, .ofList [⟨"a"⟩, ⟨"b"⟩]⟩] := by
  intro y s
  have running : s.phase = .running := by decide +kernel
  have first : s.setting.queue.take?.map (·.1) = some ⟨.snapshot, .low, 2⟩ := by decide +kernel
  obtain ⟨⟨q, rest⟩, next, same⟩ := Option.map_eq_some_iff.mp first
  have same : q = ⟨.snapshot, .low, 2⟩ := same
  have command : q.command = .snapshot := congrArg Queued.command same
  obtain ⟨snap, journal, -, -, lists, -⟩ :=
    reports_hide_nothing (.steady .no) [.outside 0 "site"] .nowhere 0 _ running next command
  refine ⟨by decide +kernel, running, q, rest, next, command, ?_, snap, ?_, ?_, ?_⟩
  · rw [same]
    decide
  · rw [journal]
    exact List.mem_cons_self
  · rw [lists.deferred]
    decide +kernel
  · rw [lists.tentative]
    decide +kernel

end Allocator

end Allotment
