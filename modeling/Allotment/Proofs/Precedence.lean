import Allotment.Proofs.Serving

/-!
# Waiting requests are served in turn

Of two commands of one priority the older goes first. Between the deferred requests and the queue
this order is kept as well: a deferred request precedes whatever waits in the queue (`Ordered`). A
retry thus puts the deferred requests in front of the queue, and as long as one of them has not been
served, only older ones of them are served at its priority (`InTurn`).
-/

namespace Allotment

variable {σ : Type}

/-- Of two commands of one priority the older one. -/
def Queued.Precedes (a b : Queued) : Prop := a.priority = b.priority → a.seq < b.seq

namespace Journal

/-- While a request that was put back has not been served again, what is served at its priority was
put back with it and is not younger. -/
def InTurn : Event → Journal → Prop
  | .took q, j => ∀ mid rs earlier, j = mid ++ .retried rs :: earlier →
      ∀ r ∈ rs, r.priority = q.priority → .took r.queued ∉ mid →
        ∃ k ∈ rs, q = k.queued ∧ k.seq ≤ r.seq
  | _, _ => True

theorem inTurn_of_untaken {e : Event} (h : ∀ q, e ≠ .took q) (j : Journal) : InTurn e j := by
  cases e with
  | took q => exact absurd rfl (h q)
  | _ => trivial

/-- An entry is found beyond entries of another kind. -/
theorem split_append {e : Event} (es : Journal) {mid earlier j : Journal} (h : e ∉ es)
    (split : es ++ j = mid ++ e :: earlier) :
    ∃ mid', mid = es ++ mid' ∧ j = mid' ++ e :: earlier := by
  rcases List.append_eq_append_iff.mp split with ⟨as, rfl, rest⟩ | ⟨as, rfl, rest⟩
  · exact ⟨as, rfl, rest⟩
  · cases as with
    | nil => exact ⟨[], by simp, by simpa using rest.symm⟩
    | cons a as =>
      obtain ⟨rfl, -⟩ := List.cons.inj rest
      exact absurd (List.mem_append_right _ List.mem_cons_self) h

end Journal

namespace Docket

open Journal

variable {W : World σ} {d e : Docket} {q : Queued} {rest : Queue}

/-! ### What has left the queue precedes what is in it -/

structure Ordered (d : Docket) : Prop where
  line : d.line.Pairwise Queued.Precedes
  ahead : ∀ a ∈ d.line, ∀ x ∈ d.queue.waiting, a.Precedes x

/-- The queue's next command precedes the others. -/
theorem Next.precedes (next : Next d q rest) (h : d.Regular) :
    ∀ x ∈ rest.waiting, q.Precedes x := by
  intro x hx priority
  have perm := (Queue.waiting_of_take? next.next).1
  have fresh : q ≠ x := by
    have nodup := perm.nodup_iff.mp (List.nodup_append.mp h.nodup_circulating).1
    rintro rfl
    exact (List.nodup_cons.mp nodup).1 hx
  have issued {y : Queued} (hy : y ∈ q :: rest.waiting) : y ∈ d.journal.entered :=
    h.issued.subset (List.mem_append_left _ (perm.mem_iff.mpr hy))
  -- The queue leaves it open which of two equal numbers goes first, but a number is given once.
  have first : ¬ x.seq < q.seq := fun older =>
    Queue.first_of_take? next.next x hx (.inr ⟨priority.symm, older⟩)
  refine Nat.lt_of_le_of_ne (Nat.le_of_not_lt first) fun same => fresh ?_
  exact h.eq_of_seq (issued List.mem_cons_self) (issued (List.mem_cons_of_mem _ hx)) same

namespace Ordered

theorem act (act : Act W d e) (regular : d.Regular) (h : d.Ordered) : e.Ordered := by
  rcases act.traffic with calm | ⟨x, n, -, rfl⟩ | ⟨-, rfl⟩
  · exact ⟨h.line.sublist calm.line,
      fun a ha x hx => h.ahead a (calm.line.subset ha) x (calm.waiting.subset hx)⟩
  · refine ⟨h.line, fun a ha y hy => ?_⟩
    rcases List.mem_cons.mp ((Queue.waiting_enter ..).mem_iff.mp hy) with rfl | hy
    · exact fun _ => regular.seq_lt (regular.issued.subset (List.mem_append_right _ ha))
    · exact h.ahead a ha y hy
  · exact ⟨List.Pairwise.nil, fun a ha => absurd ha List.not_mem_nil⟩

theorem take (next : Next d q rest) (regular : d.Regular) (h : d.Ordered) :
    (d.take q rest).Ordered := by
  have perm := (Queue.waiting_of_take? next.next).1
  have idle : d.line = d.deferred.map Request.queued := by simp [Docket.line, next.idle]
  have line : (d.take q rest).line = d.line ++ [q] := by
    rw [idle]
    rfl
  constructor
  · rw [line]
    refine List.pairwise_append.mpr ⟨h.line, List.pairwise_singleton _ _, fun a ha y hy => ?_⟩
    obtain rfl := List.mem_singleton.mp hy
    exact h.ahead a ha y (perm.mem_iff.mpr List.mem_cons_self)
  · rw [line]
    intro a ha x hx
    rcases List.mem_append.mp ha with ha | ha
    · exact h.ahead a ha x (perm.mem_iff.mpr (List.mem_cons_of_mem _ hx))
    · obtain rfl := List.mem_singleton.mp ha
      exact next.precedes regular x hx

end Ordered

/-! ### Requests that were put back -/

/-- What is the case of requests that were put back, given the entries made since. -/
structure Returned (rs : List Request) (since : List Event) (d : Docket) : Prop where
  issued : ∀ r ∈ rs, r.seq < d.queue.nextSeq
  kept : d.phase = .running → ∀ r ∈ rs, .took r.queued ∉ since → r.queued ∈ d.queue.waiting
  first : ∀ x ∈ d.circulating, x ∈ rs.map Request.queued ∨ ∀ r ∈ rs, r.queued.Precedes x

namespace Returned

variable {rs : List Request} {since : List Event}

theorem calm (es : List Event) (calm : Calm d e) (h : d.Returned rs since) :
    e.Returned rs (es ++ since) where
  issued r hr := calm.nextSeq ▸ h.issued r hr
  kept running r hr untaken := by
    rw [calm.queue.resolve_right fun closed => closed.2 running]
    exact h.kept (calm.phase running) r hr fun took => untaken (List.mem_append_right _ took)
  first x hx := h.first x ((calm.waiting.append calm.line).subset hx)

theorem enter (es : List Event) (x : Submission) (n : Nat) (h : d.Returned rs since) :
    Returned rs (es ++ since) { d.enter x with owed := n } := by
  have waiting := Queue.waiting_enter d.queue x.command x.priority
  refine ⟨fun r hr => Nat.lt_succ_of_lt (h.issued r hr), fun running r hr untaken => ?_,
    fun y hy => ?_⟩
  · have kept := h.kept running r hr fun took => untaken (List.mem_append_right _ took)
    exact waiting.mem_iff.mpr (List.mem_cons_of_mem _ kept)
  · rcases List.mem_cons.mp ((waiting.append_right d.line).mem_iff.mp hy) with rfl | hy
    · exact .inr fun r hr _ => h.issued r hr
    · exact h.first y hy

theorem restore (es : List Event) (regular : d.Regular) (running : d.phase = .running)
    (h : d.Returned rs since) : d.restore.Returned rs (es ++ since) := by
  have opened := regular.opened running
  have back := waiting_restore opened
  refine ⟨fun r hr => nextSeq_restore opened ▸ h.issued r hr, fun _ r hr untaken => ?_,
    fun x hx => ?_⟩
  · have kept := h.kept running r hr fun took => untaken (List.mem_append_right _ took)
    exact back.mem_iff.mpr (List.mem_append_right _ kept)
  · rw [circulating_restore] at hx
    rcases List.mem_append.mp (back.mem_iff.mp hx) with hx | hx
    · exact h.first x (List.mem_append_right _ (List.mem_append_left _ hx))
    · exact h.first x (List.mem_append_left _ hx)

/-- The deferred requests come back in front of everything of their priority. -/
theorem start (regular : d.Regular) (ordered : d.Ordered) (running : d.phase = .running) :
    d.restore.Returned d.deferred [] := by
  have opened := regular.opened running
  have back := waiting_restore opened
  have line {r : Request} (hr : r ∈ d.deferred) : r.queued ∈ d.line :=
    List.mem_append_left _ (List.mem_map_of_mem hr)
  refine ⟨fun r hr => ?_, fun _ r hr _ => ?_, fun x hx => ?_⟩
  · rw [nextSeq_restore opened]
    exact regular.seq_lt (regular.issued.subset (List.mem_append_right _ (line hr)))
  · exact back.mem_iff.mpr (List.mem_append_left _ (List.mem_map_of_mem hr))
  · rw [circulating_restore] at hx
    refine (List.mem_append.mp (back.mem_iff.mp hx)).imp_right fun hx r hr => ?_
    exact ordered.ahead _ (line hr) x hx

theorem take (next : Next d q rest) (h : d.Returned rs since) :
    (d.take q rest).Returned rs (.took q :: since) := by
  obtain ⟨perm, number, -, -⟩ := Queue.waiting_of_take? next.next
  refine ⟨fun r hr => ?_, fun running r hr untaken => ?_, fun x hx => ?_⟩
  · exact number.symm ▸ h.issued r hr
  · have kept := h.kept running r hr fun took => untaken (List.mem_cons_of_mem _ took)
    refine (List.mem_cons.mp (perm.mem_iff.mp kept)).resolve_left ?_
    rintro rfl
    exact untaken List.mem_cons_self
  · exact h.first x (next.circulating.mem_iff.mp hx)

/-- While one of them is left, a command of its priority that is next is another of them. -/
theorem next (next : Next d q rest) (h : d.Returned rs since) {r : Request} (hr : r ∈ rs)
    (priority : r.priority = q.priority) (untaken : .took r.queued ∉ since) :
    ∃ k ∈ rs, q = k.queued ∧ k.seq ≤ r.seq := by
  have perm := (Queue.waiting_of_take? next.next).1
  have older : q.seq ≤ r.seq := by
    have waits := perm.mem_iff.mp (h.kept next.running r hr untaken)
    rcases List.mem_cons.mp waits with same | waits
    · exact Nat.le_of_eq (congrArg Queued.seq same.symm)
    · refine Nat.le_of_not_lt fun younger => ?_
      exact Queue.first_of_take? next.next _ waits (.inr ⟨priority, younger⟩)
  have waits := perm.mem_iff.mpr List.mem_cons_self
  rcases h.first q (List.mem_append_left _ waits) with among | behind
  · obtain ⟨k, hk, rfl⟩ := List.mem_map.mp among
    exact ⟨k, hk, rfl, older⟩
  · exact absurd (behind r hr priority) (Nat.not_lt_of_le older)

end Returned

/-! ### All of it together -/

structure Orderly (d : Docket) : Prop where
  ordered : d.Ordered
  returned : ∀ since rs earlier, d.journal = since ++ .retried rs :: earlier →
    d.Returned rs since
  inTurn : Always InTurn d.journal

namespace Orderly

theorem act (act : Act W d e) (sound : d.Sound) (h : d.Orderly) : e.Orderly := by
  have inTurn : Always InTurn e.journal := by
    obtain ⟨es, untaken, same⟩ := act.untaken
    rw [same]
    exact always_append (fun x hx => inTurn_of_untaken (untaken x hx)) h.inTurn
  refine ⟨h.ordered.act act sound.regular, fun since rs earlier split => ?_, inTurn⟩
  rcases act.traffic with calm | ⟨x, n, -, rfl⟩ | ⟨running, rfl⟩
  · obtain ⟨es, he, same⟩ := calm.entries
    have other : .retried rs ∉ es := fun m => absurd (he _ m) (by simp [Event.isTraffic])
    obtain ⟨mid, rfl, before⟩ := split_append es other (same ▸ split)
    exact (h.returned mid rs earlier before).calm es calm
  · obtain ⟨mid, rfl, before⟩ := split_append (e := .retried rs)
      [.entered ⟨x.command, x.priority, d.queue.nextSeq⟩] (by simp) split
    exact (h.returned mid rs earlier before).enter [_] x n
  · -- This retry puts back what is deferred now, and leaves what earlier ones put back in front.
    cases since with
    | nil =>
      obtain ⟨same, rfl⟩ := List.cons.inj split
      obtain rfl := Event.retried.inj same
      exact .start sound.regular h.ordered running
    | cons e mid =>
      obtain ⟨rfl, before⟩ := List.cons.inj split
      exact (h.returned mid rs earlier before).restore [_] sound.regular running

theorem take (next : Next d q rest) (sound : d.Sound) (h : d.Orderly) :
    (d.take q rest).Orderly := by
  refine ⟨h.ordered.take next sound.regular, fun since rs earlier split => ?_,
    fun mid rs earlier split r hr priority untaken => ?_, h.inTurn⟩
  · obtain ⟨mid, rfl, before⟩ := split_append [.took q] (by simp) split
    exact (h.returned mid rs earlier before).take next
  · exact (h.returned mid rs earlier split).next next hr priority untaken

end Orderly

end Docket

namespace Allocator

open Journal

theorem run_orderly (W : World σ) (advisors : List Advisor) (sink : AuditSink) (w : σ)
    (hs : List (Happening σ)) :
    (((initial advisors sink w).run W hs).docket none 0).Orderly :=
  (run_holds Docket.Orderly.act Docket.Orderly.take advisors sink w hs
    ⟨⟨.nil, fun _ h => absurd h List.not_mem_nil⟩,
      fun since _ _ split => absurd split.symm (List.append_ne_nil_of_right_ne_nil since (by simp)),
      trivial⟩).2

/-- At any priority the deferred requests stand in the order in which they were submitted, in front
of every command in the queue. Those that a retry has put back wait until they are served, and while
one of them has not been served, only those of them that are older, and then itself, are served at
its priority. -/
theorem waiting_first_in_first_out (W : World σ) (advisors : List Advisor) (sink : AuditSink)
    (w : σ) (hs : List (Happening σ)) :
    let s := (initial advisors sink w).run W hs
    let j := s.setting.journal
    (∀ p, (s.deferred.filter (·.priority = p)).Pairwise fun a b => a.seq < b.seq) ∧
    (∀ r ∈ s.deferred, ∀ x ∈ s.setting.queue.waiting, x.priority = r.priority → r.seq < x.seq) ∧
    (∀ since rs earlier, j = since ++ .retried rs :: earlier → s.phase = .running →
      ∀ r ∈ rs, .took r.queued ∉ since → r.queued ∈ s.setting.queue.waiting) ∧
    ∀ later q mid rs earlier, j = later ++ .took q :: (mid ++ .retried rs :: earlier) →
      ∀ r ∈ rs, r.priority = q.priority → .took r.queued ∉ mid →
        ∃ k ∈ rs, q = k.queued ∧ k.seq ≤ r.seq := by
  intro s j
  have orderly := run_orderly W advisors sink w hs
  refine ⟨fun p => ?_, fun r hr x hx priority => ?_, fun since rs earlier split => ?_,
    fun later q mid rs earlier split => ?_⟩
  · have line := (List.pairwise_append.mp orderly.ordered.line).1
    refine ((List.pairwise_map.mp line).filter _).imp_of_mem fun ha hb precedes => precedes ?_
    have priority := fun {r} (hr : r ∈ s.deferred.filter (·.priority = p)) =>
      of_decide_eq_true (List.mem_filter.mp hr).2
    exact (priority ha).trans (priority hb).symm
  · exact orderly.ordered.ahead r.queued (List.mem_append_left _ (List.mem_map_of_mem hr)) x hx
      priority.symm
  · exact (orderly.returned since rs earlier split).kept
  · have inTurn : Always InTurn j := orderly.inTurn
    rw [split] at inTurn
    exact always_split inTurn mid rs earlier rfl

/-- Two requests wait when their resource is given up, and a third comes in before the retry. -/
example :
    let s := (initial [] .nowhere 0).run (World.steady .yes)
      ([asking "x" ["a"], .step, asking "y" ["a"], .step, asking "z" ["a"], .step,
        freeing "x" ["a"], .step, asking "u" ["a"]] ++ List.replicate 5 .step)
    s.table.holder ⟨"a"⟩ = some ⟨"y"⟩ ∧ s.deferred.map (·.client.endpoint) = ["z", "u"] := by
  decide +kernel

end Allocator

end Allotment
