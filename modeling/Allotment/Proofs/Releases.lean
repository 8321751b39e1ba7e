import Allotment.Proofs.Refusals
import Allotment.Proofs.Withdrawal

/-!
# What a release that was asked for leads to

A client that gives something up loses the tentative grants that it touches, for good. What waited
behind these may be delivered in the same step. Then the allocator submits, in this order, that the
advisors be told and that the deferred requests be retried. Of two commands of one priority the
older is taken first (`Senior`), and what is told is told in one go (`heeded_run`), so the retry
finds the advisors told.
-/

namespace Allotment

variable {σ : Type} {W : World σ}

namespace Journal

/-- When a command is taken, what is older at its priority has been taken. -/
def Senior : Event → Journal → Prop
  | .took q, j => ∀ p, .entered p ∈ j → p.priority = q.priority → p.seq < q.seq → .took p ∈ j
  | _, _ => True

/-- What follows the taking of a command that tells of a release, up to the next one, are the
notices of that release. -/
def Heeded (names : List String) (j : Journal) : Prop :=
  ∀ later q base c rs, j = later ++ .took q :: base → q.command = .released c rs →
    ∃ rest told, later = rest ++ told ∧ (∀ p, .took p ∉ told) ∧
      notices told = (names.map fun name => (name, c, rs)).reverse

variable {names : List String} {es j : Journal}

theorem Heeded.append (h : Heeded names j) (untaken : ∀ q, .took q ∉ es) :
    Heeded names (es ++ j) := by
  intro later q base c rs split command
  obtain ⟨mid, rfl, parts⟩ := split_append es (untaken q) split
  obtain ⟨rest, told, rfl, others, notices⟩ := h mid q base c rs parts command
  exact ⟨es ++ rest, told, (List.append_assoc ..).symm, others, notices⟩

theorem Heeded.take {q : Queued} (h : Heeded names j) (untaken : ∀ p, .took p ∉ es)
    (told : ∀ c rs, q.command = .released c rs →
      notices es = (names.map fun name => (name, c, rs)).reverse) :
    Heeded names (es ++ .took q :: j) := by
  intro later p base c rs split command
  obtain ⟨mid, rfl, parts⟩ := split_append es (untaken p) split
  cases mid with
  | nil =>
    obtain ⟨same, -⟩ := List.cons.inj parts
    cases same
    exact ⟨[], es, List.append_nil es, untaken, told c rs command⟩
  | cons e mid =>
    obtain ⟨rfl, below⟩ := List.cons.inj parts
    obtain ⟨rest, told, rfl, others, notices⟩ := h mid p base c rs below command
    exact ⟨es ++ .took q :: rest, told, by simp, others, notices⟩

/-- By the time a younger command of the same priority is taken, the release is told. -/
theorem Heeded.before {later earlier : Journal} {p q : Queued} {c : ClientId} {rs : ResourceSet}
    (heeded : Heeded names (later ++ .took q :: earlier))
    (senior : Always Senior (later ++ .took q :: earlier)) (entered : .entered p ∈ earlier)
    (priority : p.priority = q.priority) (older : p.seq < q.seq)
    (command : p.command = .released c rs) :
    ∃ mid told base, earlier = mid ++ told ++ .took p :: base ∧
      notices told = (names.map fun name => (name, c, rs)).reverse := by
  have took : .took p ∈ earlier :=
    (always_split senior : Senior (.took q) earlier) p entered priority older
  obtain ⟨mid, base, rfl⟩ := List.append_of_mem took
  obtain ⟨rest, told, parts, others, notices⟩ :=
    heeded (later ++ .took q :: mid) p base c rs (by simp) command
  -- What is told lies on this side of the younger command, for no command is taken meanwhile.
  rcases List.append_eq_append_iff.mp parts with ⟨gap, -, parts⟩ | ⟨gap, -, parts⟩
  · cases gap with
    | nil =>
      obtain rfl : .took q :: mid = told := parts
      exact absurd List.mem_cons_self (others q)
    | cons e gap =>
      obtain ⟨-, rfl⟩ := List.cons.inj parts
      exact ⟨gap, told, base, rfl, notices⟩
  · exact absurd (parts ▸ List.mem_append_right gap List.mem_cons_self) (others q)

/-- What is older than a new entry was there before. -/
theorem mem_earlier {later earlier : Journal} {e x : Event}
    (split : es ++ j = later ++ e :: earlier) (new : e ∉ j) (old : x ∈ j) : x ∈ earlier := by
  rcases List.append_eq_append_iff.mp split with ⟨gap, -, rfl⟩ | ⟨gap, -, parts⟩
  · exact absurd (List.mem_append_right gap List.mem_cons_self) new
  · cases gap with
    | nil =>
      obtain rfl : e :: earlier = j := parts
      exact absurd List.mem_cons_self new
    | cons a gap =>
      obtain ⟨-, rfl⟩ := List.cons.inj parts
      exact List.mem_append_right gap old

/-- A grant that was cancelled is not delivered, and the other way round. -/
theorem uncalled_of_cancelled {g : Grant} {reply : Reply} (once : settlements g.request j ≤ 1)
    (cancelled : .cancelled g ∈ j) : .called g reply ∉ j := by
  intro called
  have lost : g.request ∈ settled .cancelled j :=
    List.mem_flatMap.mpr ⟨_, cancelled, List.mem_singleton_self _⟩
  have had : g.request ∈ settled .delivered j :=
    List.mem_flatMap.mpr ⟨_, called, List.mem_singleton_self _⟩
  have one := List.count_pos_iff.mpr lost
  have other := List.count_pos_iff.mpr had
  unfold settlements at once
  omega

end Journal

namespace Docket

open Journal

variable {d e : Docket} {q : Queued} {rest : Queue}

theorem Conserved.settled_once (h : d.Conserved) (regular : d.Regular) (r : Request) :
    settlements r d.journal ≤ 1 := by
  have total := h r
  have once := List.nodup_iff_count_le_one.mp regular.nodup_entered r.queued
  omega

/-- Commands are taken by seniority. -/
structure Queues (d : Docket) : Prop where
  filed : d.Filed
  senior : Always Senior d.journal

theorem Queues.act (act : Act W d e) (sound : d.Sound) (h : d.Queues) : e.Queues := by
  refine ⟨h.filed.act act sound, ?_⟩
  obtain ⟨es, untaken, journal⟩ := act.untaken
  rw [journal]
  refine always_append (fun x hx k => ?_) h.senior
  cases x with
  | took q => exact absurd rfl (untaken _ hx q)
  | _ => trivial

theorem Queues.take (next : Next d q rest) (sound : d.Sound) (h : d.Queues) :
    (d.take q rest).Queues := by
  refine ⟨h.filed.take next sound, fun p entered priority older => ?_, h.senior⟩
  refine (h.filed.kept next.running p entered).resolve_right fun waits => ?_
  rcases List.mem_cons.mp ((Queue.waiting_of_take? next.next).1.mem_iff.mp waits) with rfl | behind
  · exact Nat.lt_irrefl _ older
  · exact Queue.first_of_take? next.next p behind (.inr ⟨priority, older⟩)

end Docket

namespace Allocator

open Journal

variable {s t u v : Allocator σ}

theorem run_queues (W : World σ) (advisors : List Advisor) (sink : AuditSink) (w : σ)
    (hs : List (Happening σ)) : (((initial advisors sink w).run W hs).docket none 0).Queues :=
  (run_holds Docket.Queues.act Docket.Queues.take advisors sink w hs
    ⟨⟨trivial, fun _ _ entered => absurd entered List.not_mem_nil⟩, trivial⟩).2

theorem heeded_step (h : s.setting.journal.Heeded (Chain.names s.advisors)) :
    (s.step W).setting.journal.Heeded (Chain.names s.advisors) := by
  obtain idle | ⟨running, q, rest, -, served⟩ := step_cases W s
  · rwa [idle]
  · obtain ⟨es, journal, untaken⟩ := journal_served W q rest running
    rw [served, journal]
    refine h.take untaken fun c rs command => ?_
    obtain ⟨fs, -, same, shows, -⟩ := (effect_announce W c rs (s.accept q rest)).entries
    have told : (s.accept q rest).process W q = (s.accept q rest).announce W c rs := by
      simp only [process, command]
    rw [told, same] at journal
    exact List.append_cancel_right journal ▸ shows.notices

theorem heeded_run (W : World σ) (advisors : List Advisor) (sink : AuditSink) (w : σ)
    (hs : List (Happening σ)) :
    ((initial advisors sink w).run W hs).setting.journal.Heeded (Chain.names advisors) := by
  induction hs using List.reverseRecOn with
  | nil => exact fun later q base c rs split => absurd split.symm (by simp [initial, run])
  | append_singleton hs h ih =>
    let s := (initial advisors sink w).run W hs
    have names : Chain.names s.advisors = Chain.names advisors :=
      names_run W (initial advisors sink w) hs
    have quiet {t : Allocator σ} (acts : Docket.Acts W (s.docket none 0) (t.docket none 0)) :
        t.setting.journal.Heeded (Chain.names advisors) := by
      obtain ⟨es, others, journal⟩ := acts_untaken acts
      rw [show t.setting.journal = _ from journal]
      exact ih.append fun q took => others _ took q rfl
    rw [run_append]
    cases h with
    | submit x => exact quiet (acts_submit W x s)
    | poll number task o => exact quiet (acts_poll W number task o s)
    | shift w => exact ih
    | step =>
      rw [← names] at ih ⊢
      exact heeded_step ih

/-! ### What is taken away and what is dropped -/

theorem releaseBlocked_absent {c : ClientId} (W : World σ)
    (absent : ∀ k ∈ s.pending, k.client ≠ c) : s.releaseBlocked W c = s := by
  have passed (rest seen : List Grant) (absent : ∀ k ∈ rest, k.client ≠ c) :
      firstReady W c seen rest s = (none, s) := by
    induction rest generalizing seen with
    | nil => rfl
    | cons k rest ih =>
      obtain ⟨other, absent⟩ := List.forall_mem_cons.mp absent
      rw [firstReady, if_neg other]
      exact ih _ absent
  by_cases running : s.isRunning = true
  · exact releaseBlocked_none running (passed s.pending [] absent)
  · rw [releaseBlocked, if_neg running]

/-- The entries that end a release: it is told, and the deferred requests retried, if it was of
anything and the sink has survived. -/
structure Follows (c : ClientId) (freed : ResourceSet) (crashed : Prop) (last : Journal) :
    Prop where
  calls : last.calls = []
  nothing : freed = ∅ ∨ crashed → last = []
  retry : freed ≠ ∅ → ¬ crashed → ∃ n, last =
    [.entered ⟨.retryDeferred, .normal, n + 1⟩, .entered ⟨.released c freed, .normal, n⟩]

/-- What a release leaves of the table and of the tentative grants, these clients having been called
meanwhile. -/
structure Relinquished (s t : Allocator σ) (c : ClientId) (freed : ResourceSet)
    (cs : List (Grant × Reply)) : Prop where
  vacated : ∀ r ∈ freed, t.table.holder r = none
  kept : ∀ r, s.table.holder r = some c → r ∉ freed → (∀ g ∈ refused cs, r ∉ g.expanded) →
    t.table.holder r = some c
  within : ∀ r d, t.table.holder r = some d → s.table.holder r = some d
  tentative : ∀ k ∈ t.pending, k ∈ s.pending
  dropped : ∀ k ∈ s.pending, (∀ reply, (k, reply) ∉ cs) →
    (k ∉ t.pending ↔ (∃ r ∈ k.expanded, r ∈ freed) ∨
      ∃ g ∈ refused cs, ∃ r ∈ k.expanded, r ∈ g.expanded)

theorem Relinquished.congr {c : ClientId} {freed : ResourceSet} {cs : List (Grant × Reply)}
    (h : Relinquished s t c freed cs) (table : u.table = s.table)
    (pending : u.pending = s.pending) : Relinquished u t c freed cs where
  vacated := h.vacated
  kept := table ▸ h.kept
  within := table ▸ h.within
  tentative := pending ▸ h.tentative
  dropped := pending ▸ h.dropped

/-- What becomes of a release from `s` to `t`, with these entries. -/
structure Released (W : World σ) (s t : Allocator σ) (c : ClientId) (freed : ResourceSet)
    (es : Journal) : Prop extends Relinquished s t c freed es.calls where
  phase : t.phase = .running ∨ t.phase = .crashed
  cancelled : ∀ k ∈ s.pending, (∃ r ∈ k.expanded, r ∈ freed) → .cancelled k ∈ es
  /-- Whatever comes in besides is submitted by the outside, or because of a refusal. -/
  followed : ∃ last before, es = last ++ before ∧ Follows c freed (t.phase = .crashed) last ∧
    ∀ A, W.Submits A → ∀ q, .entered q ∈ before →
      A ⟨q.command, q.priority⟩ ∨ q.command = .retryDeferred ∧ refused es.calls ≠ []

theorem mem_freed_iff {c : ClientId} {rs : ResourceSet} {k : Grant} (order : s.books.InOrder)
    (waits : k ∈ s.pending) : (∃ r ∈ k.expanded, r ∈ s.table.heldOf c rs) ↔
      k ∈ s.books.orphans c rs := by
  rw [order.mem_orphans]
  constructor
  · rintro ⟨r, hr, lost⟩
    obtain ⟨among, held⟩ := Table.mem_heldOf.mp lost
    have mine := order.covered k waits r hr
    exact ⟨waits, Option.some.inj (mine.symm.trans held), r, hr, among⟩
  · rintro ⟨-, rfl, r, hr, among⟩
    exact ⟨r, hr, Table.mem_heldOf.mpr ⟨among, order.covered k waits r hr⟩⟩

/-- First something is taken away, then clients are called. -/
theorem relinquished_of_replied {c : ClientId} {rs : ResourceSet} {cs : List (Grant × Reply)}
    (order : s.books.InOrder) (stripped : u.books = s.books.strip c rs .asked)
    (replied : Replied W u v cs) (table : t.table = v.table) (pending : t.pending = v.pending) :
    Relinquished s t c (s.table.heldOf c rs) cs := by
  have holder (r : ResourceId) : u.table.holder r =
      if r ∈ rs ∧ s.table.holder r = some c then none else s.table.holder r := by
    rw [show u.table = _ from congrArg Books.table stripped]
    exact Books.holder_strip r
  have tentative (k : Grant) : k ∈ u.pending ↔ k ∈ s.pending ∧ k ∉ s.books.orphans c rs := by
    rw [show u.pending = _ from congrArg Books.pending stripped]
    exact Books.mem_pending_strip
  have left (r : ResourceId) : t.table.holder r = none ∨ t.table.holder r = u.table.holder r := by
    rw [table]
    by_cases again : ∃ g ∈ refused cs, r ∈ g.expanded
    · obtain ⟨g, hg, both⟩ := again
      exact .inl (replied.freed g hg r both)
    · exact .inr (replied.kept r fun g hg both => again ⟨g, hg, both⟩)
  refine ⟨fun r lost => ?_, fun r held intact free => ?_, fun r d held => ?_, fun k hk => ?_,
    fun k waits uncalled => ?_⟩
  · rcases left r with none | same
    · exact none
    · rw [same, holder, if_pos (Table.mem_heldOf.mp lost)]
  · rw [table, replied.kept r free, holder,
      if_neg fun both => intact (Table.mem_heldOf.mpr both), held]
  · rcases left r with none | same
    · cases none.symm.trans held
    · rw [same, holder] at held
      split at held
      · cases held
      · exact held
  · exact ((tentative k).mp ((replied.pending k).mp (pending ▸ hk)).1).1
  · rw [pending, replied.pending, tentative, mem_freed_iff order waits]
    simp only [waits, true_and, not_and_or, Classical.not_not, not_forall, exists_prop]
    exact or_congr_right (or_iff_right fun ⟨reply, called⟩ => uncalled reply called)

theorem followUp_follows {c : ClientId} {freed : ResourceSet} (something : freed ≠ ∅)
    (opened : s.setting.queue.closed = false) (phase : s.phase = .running ∨ s.phase = .crashed) :
    ∃ last, (s.followUp [.released c freed, .retryDeferred]).setting.journal =
        last ++ s.setting.journal ∧
      Follows c freed ((s.followUp [.released c freed, .retryDeferred]).phase = .crashed) last := by
  unfold followUp
  rcases phase with running | crashed
  · rw [if_pos (isRunning_iff.mpr running)]
    let n := s.setting.queue.nextSeq
    refine ⟨[.entered ⟨.retryDeferred, .normal, n + 1⟩, .entered ⟨.released c freed, .normal, n⟩],
      ?_, rfl, fun moot => ?_, fun _ _ => ⟨n, rfl⟩⟩
    · simp [Setting.submitAll, Setting.submit, opened, Queue.enter, Queue.insert, n]
    · rcases moot with none | crashed
      · exact absurd none something
      · cases running.symm.trans crashed
  · have stopped : ¬ s.isRunning = true := by simp [isRunning, crashed]
    rw [if_neg stopped]
    exact ⟨[], rfl, rfl, fun _ => rfl, fun _ alive => absurd crashed alive⟩

/-- The release is recorded and followed up if there is anything to tell. -/
theorem afterFree_follows (W : World σ) (c : ClientId) (freed : ResourceSet)
    (opened : ((s.cancelOrphaned c).releaseBlocked W c).setting.queue.closed = false)
    (phase : ((s.cancelOrphaned c).releaseBlocked W c).phase = .running ∨
      ((s.cancelOrphaned c).releaseBlocked W c).phase = .crashed) :
    ∃ x o last, Closes W ((s.cancelOrphaned c).releaseBlocked W c) x o ∧ o.commands = [] ∧
      (s.afterFree W c freed).setting.journal = last ++ x.setting.journal ∧
      (s.afterFree W c freed).table = x.table ∧ (s.afterFree W c freed).pending = x.pending ∧
      Follows c freed ((s.afterFree W c freed).phase = .crashed) last := by
  let v := (s.cancelOrphaned c).releaseBlocked W c
  obtain ⟨moot, quiet⟩ | ⟨something, going, told⟩ := afterFree_cases W c freed s
  · rw [quiet]
    refine ⟨v, {}, [], .refl W v, rfl, rfl, rfl, rfl, rfl, fun _ => rfl, fun given alive => ?_⟩
    rcases moot with nothing | stopped
    · exact absurd (ResourceSet.isEmpty_iff.mp nothing) given
    · exact absurd (phase.resolve_left stopped) alive
  · let x := (v.count .addFree).record W .free c freed none
    have counted : Effect W v (v.count .addFree) {} := effect_unseen
    have ruled := counted.trans (effect_record W .free c freed none _)
    rw [Outcome.nil_andThen] at ruled
    have given : freed ≠ ∅ := fun none => by
      rw [ResourceSet.isEmpty_iff.mpr none] at something
      cases something
    have close : Closes W v x { rulings := [⟨.free, c, freed, none⟩] } :=
      ⟨ruled, rfl, rfl, by simp, table_record .., pending_record ..⟩
    obtain ⟨last, journal, follows⟩ := followUp_follows (s := x) (c := c) given
      (ruled.closed.trans opened) (ruled.phase.imp_left (·.trans going))
    rw [told]
    exact ⟨x, _, last, close, rfl, journal, (writes_followUp _ _).table, pending_followUp _ _,
      follows⟩

theorem released_free {c : ClientId} (rs : ResourceSet) (running : s.phase = .running)
    (reliable : Reliable (s.docket none 0)) :
    ∃ es : Journal, (s.free W c rs).setting.journal = es ++ s.setting.journal ∧
      Released W s (s.free W c rs) c (s.table.heldOf c rs) es := by
  have order : s.books.InOrder := reliable.sound.inOrder
  have opened : s.setting.queue.closed = false := reliable.sound.regular.opened running
  let u := (s.take c rs .asked).2.cancelOrphaned c
  have strip := reliable.act (act_strip (W := W) (k := 0) c rs .asked (s := s) (i := none)
    (by simp [Docket.Unasked, docket]) running)
  obtain ⟨cs, replied⟩ := replied_of_deliveries strip (releaseBlocked_deliveries W c u)
  have books : u.books = s.books.strip c rs .asked := books_strip c rs .asked s
  have first := (effect_strip W c rs .asked s).trans replied.effect
  obtain ⟨x, o, last, close, silent, journal, table, pending, follows⟩ :=
    afterFree_follows W c (s.table.heldOf c rs) (s := (s.take c rs .asked).2)
      (first.closed.trans opened) (first.phase.imp_left (·.trans running))
  obtain ⟨before, -, entries, shows, -⟩ := (first.trans close.effect).entries
  have calls : Journal.calls (last ++ before) = cs := by
    rw [calls_append, follows.calls, shows.calls]
    simp [Outcome.andThen, Outcome.ofReplies, close.calls]
  obtain ⟨_, answered⟩ := answered_free (W := W) (c := c) rs running reliable
  have vacated := relinquished_of_replied order books replied (table.trans close.table)
    (pending.trans close.pending)
  have phase := answered.effect.phase.imp_left (·.trans running)
  refine ⟨last ++ before, ?_, calls.symm ▸ vacated, phase, fun k waits lost => ?_,
    last, before, rfl, follows, fun A outside q entered => ?_⟩
  · rw [List.append_assoc, ← entries]
    exact journal
  · obtain ⟨es, -, further, -⟩ := (replied.effect.trans close.effect).entries
    have stripped : u.setting.journal = s.books.losses c rs .asked ++ s.setting.journal :=
      (congrArg Books.journal books).trans Books.journal_strip
    rw [entries, stripped, ← List.append_assoc] at further
    rw [List.append_cancel_right further]
    have gone : .cancelled k ∈ s.books.losses c rs .asked :=
      Books.mem_losses.mpr (.inl ⟨k, (mem_freed_iff order waits).mp lost, rfl⟩)
    exact List.mem_append_right last (List.mem_append_right es gone)
  · rw [calls]
    refine (shows.submitted A outside q entered).imp_right fun own => ?_
    simp only [Outcome.andThen, Outcome.ofReplies, silent, List.nil_append, List.append_nil] at own
    obtain ⟨g, hg, owed⟩ := List.mem_flatMap.mp own.1
    unfold lossCommands at owed
    split at owed
    · cases owed
    · exact ⟨List.mem_singleton.mp owed, List.ne_nil_of_mem hg⟩

theorem uncalled_free {c : ClientId} {rs : ResourceSet}
    (absent : ∀ k ∈ ((s.take c rs .asked).2.cancelOrphaned c).pending, k.client ≠ c) :
    Uncalled s (s.free W c rs) := by
  have opening := (effect_strip W c rs .asked s).uncalled rfl
  have passed := releaseBlocked_absent W absent
  obtain ⟨-, quiet⟩ | ⟨-, -, told⟩ :=
    afterFree_cases W c (s.table.heldOf c rs) (s.take c rs .asked).2
  · rw [show s.free W c rs = _ from quiet, passed]
    exact opening
  · rw [show s.free W c rs = _ from told, passed]
    exact opening.trans ((closes_tell W c (s.table.heldOf c rs) _).effect.uncalled rfl)

theorem released_step {c : ClientId} {rs : ResourceSet} {q : Queued} {rest : Queue}
    (reliable : Reliable (s.docket none 0)) (running : s.phase = .running)
    (next : s.setting.queue.take? = some (q, rest))
    (command : q.command = .free c rs ∨ q.command = .freeAll c ∧ rs = s.table.allocationsOf c) :
    s.step W = (s.accept q rest).free W c rs ∧
      ∃ es : Journal, (s.step W).setting.journal = es ++ .took q :: s.setting.journal ∧
        Released W s (s.step W) c (s.table.heldOf c rs) es ∧ ∀ p, .took p ∉ es := by
  let a := s.accept q rest
  have served : s.step W = a.process W q := by
    simp only [step, isRunning_iff.mpr running, if_true, next, a]
  have freed : a.process W q = a.free W c rs := by
    rcases command with free | ⟨all, rfl⟩
    · simp only [process, free]
    · simp only [process, all]
      rfl
  have took : Reliable (a.docket (some q) 0) :=
    ⟨reliable.sound.take ⟨running, rfl, rfl, next⟩, reliable.shown.take ⟨running, rfl, rfl, next⟩⟩
  have other : (∀ d ds, q.command ≠ .allocate d ds) ∧ q.command ≠ .retryDeferred := by
    rcases command with free | ⟨all, -⟩
    · simp [free]
    · simp [all]
  have dismissed : Reliable (a.docket none 0) :=
    took.act (W := W) (act_dismiss other.1 fun same => absurd same other.2)
  obtain ⟨es, journal, released⟩ :=
    released_free (W := W) (s := a) (c := c) rs running dismissed
  obtain ⟨fs, further, untaken⟩ := journal_served W q rest running
  rw [show (s.accept q rest).process W q = _ from freed] at further
  obtain rfl : es = fs := List.append_cancel_right (journal.symm.trans further)
  rw [served, freed]
  exact ⟨rfl, es, journal, ⟨released.toRelinquished.congr rfl rfl, released.phase,
    released.cancelled, released.followed⟩, untaken⟩

/-! ### What follows -/

/-- What waits is locked for something. -/
theorem expanded_ne_empty (W : World σ) (advisors : List Advisor) (sink : AuditSink) (w : σ)
    (hs : List (Happening σ)) (running : ((initial advisors sink w).run W hs).phase = .running) :
    ∀ g ∈ ((initial advisors sink w).run W hs).pending, g.expanded ≠ ∅ := by
  intro g hg none
  obtain ⟨before, after, split⟩ := List.append_of_mem hg
  have alone : ∀ k ∈ before, k.holdsBack g = false := fun k _ => by
    simp [Grant.holdsBack, ResourceSet.meets, none]
  have stands := run_attends W advisors sink w hs running g.client before g after split rfl alone
  obtain ⟨r, hr⟩ := ResourceSet.exists_mem_of_ne_empty stands.claims
  have inOrder := (run_asked W advisors sink w hs).1.sound.inOrder
  exact ResourceSet.not_mem_empty r (none ▸ inOrder.claims g hg r hr)

/-- A grant that has been cancelled is never delivered. -/
theorem never_called (W : World σ) (advisors : List Advisor) (sink : AuditSink) (w : σ)
    (hs : List (Happening σ)) {g : Grant}
    (cancelled : .cancelled g ∈ ((initial advisors sink w).run W hs).setting.journal)
    (ks : List (Happening σ)) (reply : Reply) :
    .called g reply ∉ (((initial advisors sink w).run W hs).run W ks).setting.journal := by
  obtain ⟨es, grown⟩ := run_grows (W := W) ((initial advisors sink w).run W hs) ks
  have reliable := (run_asked W advisors sink w (hs ++ ks)).1
  rw [run_append] at reliable
  have once := reliable.shown.conserved.settled_once reliable.sound.regular g.request
  exact uncalled_of_cancelled once (grown ▸ List.mem_append_right es cancelled)

/-- Both wait unless the sink has died, and whatever happens from here on, by the time the retry is
taken the advisors have been told of the release. -/
structure ToldFirst (W : World σ) (t : Allocator σ) (c : ClientId) (freed : ResourceSet) (n : Nat) :
    Prop where
  waits : t.phase = .running → ⟨.released c freed, .normal, n⟩ ∈ t.setting.queue.waiting ∧
    ⟨.retryDeferred, .normal, n + 1⟩ ∈ t.setting.queue.waiting
  first : ∀ ks later earlier, (t.run W ks).setting.journal =
      later ++ .took ⟨.retryDeferred, .normal, n + 1⟩ :: earlier →
    ∃ mid told base, earlier = mid ++ told ++ .took ⟨.released c freed, .normal, n⟩ :: base ∧
      notices told = ((Chain.names t.advisors).map fun name => (name, c, freed)).reverse

/-- All that a client has meets each of its tentative grants. -/
theorem meets_allocations {c : ClientId} {k : Grant} (order : s.books.InOrder)
    (something : k.expanded ≠ ∅) (waits : k ∈ s.pending) (mine : k.client = c) :
    ∃ r ∈ k.expanded, r ∈ s.table.heldOf c (s.table.allocationsOf c) := by
  obtain ⟨r, hr⟩ := ResourceSet.exists_mem_of_ne_empty something
  have held : s.table.holder r = some c := mine ▸ order.covered k waits r hr
  exact ⟨r, hr, Table.mem_heldOf.mpr ⟨Table.mem_allocationsOf.mpr held, held⟩⟩

/-- To free all calls nobody and leaves nothing. -/
theorem cleared_of_freeAll {c : ClientId} {es : Journal} (order : s.books.InOrder)
    (something : ∀ k ∈ s.pending, k.expanded ≠ ∅)
    (journal : (s.free W c (s.table.allocationsOf c)).setting.journal = es ++ s.setting.journal)
    (vacated : Relinquished s t c (s.table.heldOf c (s.table.allocationsOf c)) es.calls) :
    es.calls = [] ∧ (∀ r, t.table.holder r ≠ some c) ∧ ∀ k ∈ t.pending, k.client ≠ c := by
  have meets {k : Grant} (waits : k ∈ s.pending) (mine : k.client = c) :=
    meets_allocations order (something k waits) waits mine
  have uncalled : Uncalled s (s.free W c (s.table.allocationsOf c)) := by
    refine uncalled_free fun k hk mine => ?_
    rw [show Allocator.pending _ = _ from congrArg Books.pending (books_strip c _ .asked s)] at hk
    obtain ⟨waits, kept⟩ := Books.mem_pending_strip.mp hk
    exact kept ((mem_freed_iff order waits).mp (meets waits mine))
  obtain ⟨fs, same, nobody⟩ := uncalled
  obtain rfl : es = fs := List.append_cancel_right (journal.symm.trans same)
  refine ⟨nobody, fun r held => ?_, fun k hk mine => ?_⟩
  · have before := vacated.within r c held
    have lost := Table.mem_heldOf.mpr ⟨Table.mem_allocationsOf.mpr before, before⟩
    cases (vacated.vacated r lost).symm.trans held
  · have waits := vacated.tentative k hk
    have gone := vacated.dropped k waits (by simp [nobody])
    exact gone.mpr (.inl (meets waits mine)) hk

theorem told_first (W : World σ) (advisors : List Advisor) (sink : AuditSink) (w : σ)
    (hs : List (Happening σ)) {c : ClientId} {freed : ResourceSet} {n : Nat}
    {since before : Journal}
    (journal : ((initial advisors sink w).run W hs).setting.journal = since ++ before)
    (told : .entered ⟨.released c freed, .normal, n⟩ ∈ since)
    (retry : .entered ⟨.retryDeferred, .normal, n + 1⟩ ∈ since) (untaken : ∀ p, .took p ∉ since) :
    ToldFirst W ((initial advisors sink w).run W hs) c freed n := by
  have filed := run_filed W advisors sink w hs
  have sound := (run_asked W advisors sink w hs).1.sound
  refine ⟨fun running => ⟨waiting_of_entered filed sound running journal told untaken,
    waiting_of_entered filed sound running journal retry untaken⟩, fun ks later earlier split => ?_⟩
  obtain ⟨es, grown⟩ := run_grows (W := W) ((initial advisors sink w).run W hs) ks
  have heeded := heeded_run W advisors sink w (hs ++ ks)
  have senior : Always Senior ((initial advisors sink w).run W (hs ++ ks)).setting.journal :=
    (run_queues W advisors sink w (hs ++ ks)).senior
  rw [run_append, split] at heeded senior
  have unserved := untaken_of_entered filed sound journal retry untaken
  have entered := mem_earlier (grown.symm.trans split) unserved
    (journal ▸ List.mem_append_left before told)
  rw [names_run W (initial advisors sink w) hs]
  exact heeded.before senior entered rfl (Nat.lt_succ_self n) rfl

/-- A release takes away just what the client has of it, whatever else is freed because clients that
are called meanwhile refuse. Of its tentative grants, one that overlaps what was taken away is gone
and is never delivered. If that is anything, the advisors are to be told and then the deferred
requests to be retried, in this order, and what is told has been told by then. To free all leaves
the client with nothing, and calls nobody. -/
theorem free_takes_effect (W : World σ) (advisors : List Advisor) (sink : AuditSink) (w : σ)
    (hs : List (Happening σ)) {q : Queued} {rest : Queue} {c : ClientId} {rs : ResourceSet}
    (running : ((initial advisors sink w).run W hs).phase = .running)
    (next : ((initial advisors sink w).run W hs).setting.queue.take? = some (q, rest))
    (command : q.command = .free c rs ∨
      q.command = .freeAll c ∧ rs = ((initial advisors sink w).run W hs).table.allocationsOf c) :
    let s := (initial advisors sink w).run W hs
    let t := s.step W
    let freed := s.table.heldOf c rs
    ∃ es : Journal, t.setting.journal = es ++ .took q :: s.setting.journal ∧
      Released W s t c freed es ∧
      (∀ k ∈ s.pending, (∃ r ∈ k.expanded, r ∈ freed) → ∀ ks reply,
        .called k reply ∉ (t.run W ks).setting.journal) ∧
      (∀ n, .entered ⟨.released c freed, .normal, n⟩ ∈ es →
        .entered ⟨.retryDeferred, .normal, n + 1⟩ ∈ es → ToldFirst W t c freed n) ∧
      (q.command = .freeAll c →
        es.calls = [] ∧ (∀ r, t.table.holder r ≠ some c) ∧ ∀ k ∈ t.pending, k.client ≠ c) := by
  intro s t freed
  have reliable : Reliable (s.docket none 0) := (run_asked W advisors sink w hs).1
  have last : t = (initial advisors sink w).run W (hs ++ [.step]) := by
    rw [run_append]
    rfl
  obtain ⟨served, es, journal, released, untaken⟩ :=
    released_step (W := W) reliable running next command
  refine ⟨es, journal, released, fun k waits lost ks reply => ?_, fun n told retry => ?_,
    fun all => ?_⟩
  · have cancelled : .cancelled k ∈ t.setting.journal :=
      journal ▸ List.mem_append_left _ (released.cancelled k waits lost)
    rw [last] at cancelled ⊢
    exact never_called W advisors sink w (hs ++ [.step]) cancelled ks reply
  · have journal : t.setting.journal = _ := journal
    rw [last] at journal ⊢
    exact told_first W advisors sink w (hs ++ [.step]) journal told retry untaken
  · obtain ⟨-, rfl⟩ := command.resolve_left (by simp [all])
    rw [served] at journal
    have order : (s.accept q rest).books.InOrder :=
      (reliable.sound.take ⟨running, rfl, rfl, next⟩).inOrder
    exact cleared_of_freeAll order (expanded_ne_empty W advisors sink w hs running) journal
      (released.toRelinquished.congr rfl rfl)

/-- Of two tentative grants one overlaps what is given up. -/
theorem one_grant_dropped :
    let x : ClientId := ⟨"x"⟩
    let a : ResourceSet := .ofList [⟨"a"⟩]
    let s := (initial [.outside 0 "slow"] .nowhere 0).run (World.steady .no)
      [asking "x" ["a"], .step, asking "x" ["b"], .step, freeing "x" ["a"]]
    let t := s.step (World.steady .no)
    s.phase = .running ∧
    (∃ q rest, s.setting.queue.take? = some (q, rest) ∧ q.command = .free x a) ∧
    ∃ first second, s.pending = [first, second] ∧ t.pending = [second] ∧
      (∀ ks reply, .called first reply ∉ (t.run (World.steady .no) ks).setting.journal) ∧
      t.table.holder ⟨"a"⟩ = none ∧ ∃ n, ToldFirst (World.steady .no) t x a n := by
  intro x a s t
  have running : s.phase = .running := by decide +kernel
  obtain ⟨q, rest, next, command⟩ :
      ∃ q rest, s.setting.queue.take? = some (q, rest) ∧ q.command = .free x a :=
    ⟨_, _, by rfl, by decide +kernel⟩
  have held : s.table.heldOf x a = a := by decide +kernel
  have something : a ≠ ∅ := by decide +kernel
  have going : t.phase ≠ .crashed := by decide +kernel
  obtain ⟨first, second, pending, left, overlaps⟩ : ∃ first second, s.pending = [first, second] ∧
      t.pending = [second] ∧ ∃ r ∈ first.expanded, r ∈ a :=
    ⟨_, _, by rfl, by decide +kernel, by decide +kernel⟩
  obtain ⟨es, -, released, never, told, -⟩ :=
    free_takes_effect (.steady .no) [.outside 0 "slow"] .nowhere 0 _ running next (.inl command)
  have dropped := never first (pending ▸ List.mem_cons_self) (held.symm ▸ overlaps)
  obtain ⟨last, before, rfl, follows, -⟩ := released.followed
  obtain ⟨n, rfl⟩ := follows.retry (held.symm ▸ something) going
  refine ⟨running, ⟨q, rest, next, command⟩, first, second, pending, left, dropped,
    released.vacated ⟨"a"⟩ (held.symm ▸ by decide +kernel), n, ?_⟩
  rw [← held]
  exact told n (by simp) (by simp)

end Allocator

end Allotment
