import Mathlib.Data.List.Count
import Allotment.Proofs.Serving

/-!
# No request is lost

A request that has come in is in exactly one place (`Place`). It may wait in the queue, among the
deferred requests or behind a tentative grant, and it may move between these. Once it is delivered,
withdrawn, cancelled or discarded, which the journal shows, it stays so.
-/

namespace Allotment

variable {σ : Type}

def Queued.request? : Queued → Option Request
  | ⟨.allocate c rs, p, n⟩ => some ⟨c, rs, p, n⟩
  | _ => none

def requests (qs : List Queued) : List Request := qs.filterMap Queued.request?

theorem Queued.request?_eq_some_iff {q : Queued} {r : Request} :
    q.request? = some r ↔ q = r.queued := by
  constructor
  · intro h
    obtain ⟨command, p, n⟩ := q
    cases command with
    | allocate c rs =>
      cases h
      rfl
    | _ => cases h
  · rintro rfl
    rfl

theorem Request.queued_injective : Function.Injective Request.queued := by
  intro r k h
  exact Option.some.inj ((Queued.request?_eq_some_iff.mpr h).symm.trans
    (Queued.request?_eq_some_iff.mpr rfl)).symm

theorem count_requests (qs : List Queued) (r : Request) :
    (requests qs).count r = qs.count r.queued := by
  induction qs with
  | nil => rfl
  | cons q qs ih =>
    rw [List.count_cons, ← ih]
    cases h : q.request? with
    | none =>
      have other : q ≠ r.queued := fun same => by
        rw [Queued.request?_eq_some_iff.mpr same] at h
        cases h
      simp [requests, h, other]
    | some k =>
      obtain rfl := Queued.request?_eq_some_iff.mp h
      have same : (k.queued == r.queued) = (k == r) := by
        simp [Request.queued_injective.eq_iff]
      simp [requests, h, List.count_cons, same]

/-! ### Places -/

/-- Where a request can be. -/
inductive Place
  | queued
  | deferred
  | tentative
  | delivered
  | withdrawn
  | cancelled
  | discarded
deriving DecidableEq

namespace Place

def isFinal : Place → Bool
  | queued | deferred | tentative => false
  | _ => true

theorem exists_only {f : Place → Nat}
    (h : f queued + f deferred + f tentative + f delivered + f withdrawn + f cancelled +
      f discarded = 1) : ∃ p, ∀ p', f p' = if p' = p then 1 else 0 := by
  obtain ⟨p, found⟩ : ∃ p, f p ≠ 0 := by
    by_contra none
    push Not at none
    simp [none] at h
  refine ⟨p, fun p' => ?_⟩
  cases p <;> cases p' <;> simp <;> omega

end Place

/-- The requests that an entry brings to a final place. -/
def Event.settles : Place → Event → List Request
  | .delivered, .called g _ => [g.request]
  | .withdrawn, .withdrawn r => [r]
  | .cancelled, .cancelled g => [g.request]
  | .discarded, .stopped waiting ds gs => requests waiting ++ ds ++ gs.map (·.request)
  | _, _ => []

namespace Journal

def settled (p : Place) (j : Journal) : List Request := j.flatMap (Event.settles p)

theorem settled_append (p : Place) (es j : Journal) :
    settled p (es ++ j) = settled p es ++ settled p j := List.flatMap_append

/-- How often a request has come to a final place. -/
def settlements (r : Request) (j : Journal) : Nat :=
  (settled .delivered j).count r + (settled .withdrawn j).count r +
    (settled .cancelled j).count r + (settled .discarded j).count r

/-- What has brought a request to a final place. -/
def Caused : Event → Journal → Prop
  | .withdrawn r, j => ∃ q, j.served? = some q ∧ q.command = .withdraw r.client.id
  | .cancelled g, j => ∃ es rs cause earlier, j = es ++ .freed g.client rs cause :: earlier ∧
      (∀ e ∈ es, ∃ k, e = .cancelled k) ∧
      ∃ r ∈ g.expanded, r ∈ rs ∧ holder earlier r = some g.client
  | .stopped .., j => ∃ q, j.served? = some q ∧ q.command = .shutdown
  | _, _ => True

theorem caused_of_remark {e : Event} (h : e.isRemark = true) (j : Journal) : Caused e j := by
  cases e <;> trivial

theorem settlements_append (r : Request) (es j : Journal) :
    settlements r (es ++ j) = settlements r es + settlements r j := by
  simp only [settlements, settled_append, List.count_append]
  omega

theorem settlements_remark {e : Event} (h : e.isRemark = true) (r : Request) :
    settlements r [e] = 0 := by
  cases e <;> first | rfl | cases h

/-- Each of some entries settles a request. -/
theorem settlements_map {α : Type} {f : α → Event} {g : α → Request} {r : Request}
    (h : ∀ a, settlements r [f a] = [g a].count r) (l : List α) :
    settlements r (l.map f).reverse = (l.map g).count r := by
  induction l with
  | nil => rfl
  | cons a l ih =>
    rw [List.map_cons, List.reverse_cons, settlements_append, ih, h, Nat.add_comm,
      ← List.count_append]
    rfl

end Journal

namespace Docket

open Journal

variable {W : World σ} {d e : Docket} {q : Queued} {rest : Queue}

def requestsAt (d : Docket) : Place → List Request
  | .queued => requests d.queue.waiting
  | .deferred => d.deferred
  | .tentative => d.pending.map (·.request)
  | p => settled p d.journal

/-- How often a request is found in a place that is not final. -/
def unsettled (r : Request) (d : Docket) : Nat :=
  d.hand.toList.count r.queued + d.queue.waiting.count r.queued + d.deferred.count r +
    (d.pending.map (·.request)).count r

def Conserved (d : Docket) : Prop :=
  ∀ r : Request, d.journal.entered.count r.queued = d.unsettled r + settlements r d.journal

theorem settlements_withdrawals (c : ClientId) (r : Request) (b : Books) :
    settlements r (b.withdrawals c) = (b.deferred.filter (·.client.id == c)).count r := by
  rw [Books.withdrawals, settlements_map (g := id) (fun k => ?_), List.map_id]
  simp [settlements, settled, Event.settles]

theorem settlements_losses (c : ClientId) (rs : ResourceSet) (cause : FreeCause) (r : Request)
    (b : Books) :
    settlements r (b.losses c rs cause) = ((b.orphans c rs).map (·.request)).count r := by
  rw [Books.losses, settlements_append, settlements_map (g := (·.request)) (fun g => ?_)]
  · rfl
  · simp [settlements, settled, Event.settles]

theorem Unasked.count_hand (h : d.Unasked) (r : Request) : d.hand.toList.count r.queued = 0 :=
  List.count_eq_zero.mpr fun m => h r (Option.mem_toList.mp m)

namespace Conserved

/-- Requests only move if the entries settle what is not found any more. -/
theorem move (h : d.Conserved) (es : Journal) (calm : ∀ x ∈ es, x.isTraffic = false)
    (journal : e.journal = es ++ d.journal)
    (moved : ∀ r, e.unsettled r + settlements r es = d.unsettled r) : e.Conserved := by
  intro r
  rw [journal, entered_append calm, settlements_append, h r, ← moved r, Nat.add_assoc]

theorem enter (x : Submission) (n : Nat) (h : d.Conserved) :
    Conserved { d.enter x with owed := n } := by
  intro r
  let q : Queued := ⟨x.command, x.priority, d.queue.nextSeq⟩
  have one (l : List Queued) : (q :: l).count r.queued = [q].count r.queued + l.count r.queued := by
    rw [← List.singleton_append, List.count_append]
  have before := h r
  have waiting : (d.queue.enter x.command x.priority).waiting.count r.queued =
      [q].count r.queued + d.queue.waiting.count r.queued :=
    ((Queue.waiting_enter ..).count_eq _).trans (one _)
  have settled : settlements r (.entered q :: d.journal) = settlements r d.journal :=
    (settlements_append r [.entered q] d.journal).trans (Nat.zero_add _)
  show (q :: d.journal.entered).count r.queued =
    d.hand.toList.count r.queued + (d.queue.enter x.command x.priority).waiting.count r.queued +
      d.deferred.count r + (d.pending.map (·.request)).count r +
      settlements r (.entered q :: d.journal)
  rw [one d.journal.entered, waiting, settled, before, unsettled]
  omega

theorem restore (opened : d.queue.closed = false) (unasked : d.Unasked) (h : d.Conserved) :
    d.restore.Conserved := by
  intro r
  have before := h r
  have none := unasked.count_hand r
  have back := (waiting_restore opened).count_eq r.queued
  rw [List.count_append, List.count_map_of_injective _ _ Request.queued_injective] at back
  have settled : settlements r d.restore.journal = settlements r d.journal :=
    (settlements_append r [.retried d.deferred] d.journal).trans (Nat.zero_add _)
  have unsettled : d.restore.unsettled r =
      d.restore.queue.waiting.count r.queued + (d.pending.map (·.request)).count r := by
    simp [unsettled, Docket.restore, note]
  show d.journal.entered.count r.queued = _
  rw [settled, unsettled, back, before, Docket.unsettled, none]
  omega

theorem act (act : Act W d e) (sound : d.Sound) (h : d.Conserved) : e.Conserved := by
  have asked {r : Request} (hand : d.hand = some r.queued) (k : Request) :
      d.hand.toList.count k.queued = [r].count k := by
    rw [hand, ← List.count_map_of_injective _ _ Request.queued_injective]
    rfl
  cases act with
  | remark x remark =>
    refine h.move [x] (by simpa using Event.traffic_of_remark remark) rfl fun r => ?_
    rw [settlements_remark remark]
    rfl
  | enter x => exact h.enter x d.owed
  | crash running => exact h
  | @lock g table hand =>
    refine h.move [.locked g] (by simp [Event.isTraffic]) rfl fun r => ?_
    have still : settlements r [.locked g] = 0 := rfl
    have none : (none : Option Queued).toList.count r.queued = 0 := rfl
    simp only [unsettled, note, asked hand, List.map_append, List.map_singleton, List.count_append]
    omega
  | defer r hand =>
    refine h.move [.deferred r] (by simp [Event.isTraffic]) rfl fun k => ?_
    have still : settlements k [.deferred r] = 0 := rfl
    have none : (none : Option Queued).toList.count k.queued = 0 := rfl
    simp only [unsettled, note, asked hand, List.count_append]
    omega
  | retry q hand command running =>
    refine h.restore (sound.regular.opened running) fun r same => ?_
    cases Option.some.inj (hand.symm.trans same)
    cases command
  | withdraw q c =>
    refine h.move _ (fun x hx => ?_) rfl fun k => ?_
    · obtain ⟨r, rfl⟩ := Books.mem_withdrawals hx
      rfl
    · have parts := (List.filter_append_perm (·.client.id == c) d.deferred).count_eq k
      rw [List.count_append] at parts
      have gone := settlements_withdrawals c k d.toBooks
      simp only [unsettled]
      omega
  | report q => exact h.move [_] (by simp [Event.isTraffic]) rfl fun r => rfl
  | stop q =>
    refine h.move [_] (by simp [Event.isTraffic]) rfl fun r => ?_
    simp only [unsettled, note, settlements, settled, List.flatMap_cons, List.flatMap_nil,
      Event.settles, Queue.waiting_close, List.append_nil, List.count_append, count_requests,
      List.count_nil, List.map_nil]
    omega
  | dismiss q hand unasked =>
    refine h.move [] (by simp) rfl fun r => ?_
    rw [unsettled, unsettled, unasked.count_hand r]
    rfl
  | @call before g after reply unasked ready =>
    refine h.move [.called g reply] (by simp [Event.isTraffic]) rfl fun r => ?_
    have split : (d.pending.map (·.request)).count r =
        ((before ++ after).map (·.request)).count r + [g.request].count r := by
      rw [ready.split, (List.perm_middle.map _).count_eq, List.map_cons, Nat.add_comm,
        ← List.count_append]
      rfl
    have gone : settlements r [.called g reply] = [g.request].count r := by
      simp [settlements, settled, Event.settles]
    simp only [unsettled, note]
    omega
  | strip c rs cause =>
    refine h.move _ (fun x hx => ?_) Books.journal_strip fun r => ?_
    · obtain ⟨g, -, rfl⟩ | rfl := Books.mem_losses.mp hx <;> rfl
    · -- Every tentative grant either stays or is an orphan, and each orphan is cancelled once.
      have split := List.filter_append_perm (Books.isOrphan (d.table.free c rs).2 c) d.pending
      have parts := (split.map (·.request)).count_eq r
      rw [List.map_append, List.count_append] at parts
      have gone := settlements_losses c rs cause r d.toBooks
      simp only [unsettled, Docket.strip, Books.strip] at gone ⊢
      rw [Books.orphans] at gone
      omega
  | notify n => exact h.enter _ n
  | forgo => exact h

theorem take (next : Next d q rest) (h : d.Conserved) : (d.take q rest).Conserved := by
  intro r
  have before := h r
  have waiting := (Queue.waiting_of_take? next.next).1.count_eq r.queued
  rw [← List.singleton_append, List.count_append] at waiting
  have settled : settlements r (d.take q rest).journal = settlements r d.journal :=
    (settlements_append r [.took q] d.journal).trans (Nat.zero_add _)
  show d.journal.entered.count r.queued = _
  simp only [unsettled, next.idle, Option.toList_none, List.count_nil] at before
  rw [settled]
  simp only [unsettled, Docket.take, note, Option.toList_some]
  omega

end Conserved

/-- All that can be found of a request between the steps. -/
theorem Conserved.count (h : d.Conserved) (idle : d.hand = none) (r : Request) :
    d.journal.entered.count r.queued =
      (d.requestsAt .queued).count r + (d.requestsAt .deferred).count r +
      (d.requestsAt .tentative).count r + (d.requestsAt .delivered).count r +
      (d.requestsAt .withdrawn).count r + (d.requestsAt .cancelled).count r +
      (d.requestsAt .discarded).count r := by
  have before := h r
  simp only [unsettled, settlements, idle, Option.toList_none, List.count_nil] at before
  simp only [requestsAt, count_requests]
  omega

theorem Conserved.entered_of_mem (h : d.Conserved) (idle : d.hand = none) {r : Request} {p : Place}
    (found : r ∈ d.requestsAt p) : r.queued ∈ d.journal.entered := by
  have some := List.count_pos_iff.mpr found
  have total := h.count idle r
  refine List.count_pos_iff.mp ?_
  cases p <;> omega

/-- A request that has come in is in one place, once. -/
theorem Conserved.exists_place (h : d.Conserved) (regular : d.Regular) (idle : d.hand = none)
    {r : Request} (entered : r.queued ∈ d.journal.entered) :
    ∃ p, ∀ p', (d.requestsAt p').filter (·.seq = r.seq) = if p' = p then [r] else [] := by
  have once := List.count_eq_one_of_mem regular.nodup_entered entered
  obtain ⟨p, only⟩ := Place.exists_only (f := fun p => (d.requestsAt p).count r)
    ((h.count idle r).symm.trans once)
  refine ⟨p, fun p' => ?_⟩
  have same : (d.requestsAt p').filter (·.seq = r.seq) = (d.requestsAt p').filter (· == r) := by
    refine List.filter_congr fun k hk => ?_
    have issued := h.entered_of_mem idle hk
    have one : k.seq = r.seq ↔ k = r :=
      ⟨fun number => Request.queued_injective (regular.eq_of_seq issued entered number),
        fun same => same ▸ rfl⟩
    simp [one, beq_eq_decide]
  rw [same, List.filter_beq, only p']
  split <;> rfl

/-! ### Why requests are given up -/

theorem Act.caused (act : Act W d e) (sound : d.Sound) (h : Always Caused d.journal) :
    Always Caused e.journal := by
  cases act with
  | remark x remark => exact ⟨caused_of_remark remark _, h⟩
  | crash | dismiss | forgo => exact h
  | enter | notify | lock | defer | retry | report | call => exact ⟨trivial, h⟩
  | withdraw q c hand command =>
    refine always_append_within (fun x hx es within => ?_) h
    obtain ⟨r, hr, rfl⟩ := List.mem_map.mp (List.mem_reverse.mp hx)
    refine ⟨q, ?_, ?_⟩
    · rw [served?_append fun y hy p same => ?_]
      · exact sound.regular.served q hand
      · obtain ⟨k, rfl⟩ := Books.mem_withdrawals (within y hy)
        cases same
    · rw [command, eq_of_beq (List.mem_filter.mp hr).2]
  | stop q hand command => exact ⟨⟨q, sound.regular.served q hand, command⟩, h⟩
  | strip c rs cause =>
    have freed : Always Caused (.freed c (d.table.heldOf c rs) cause :: d.journal) := ⟨trivial, h⟩
    refine always_append_within (fun x hx es within => ?_) freed
    obtain ⟨g, hg, rfl⟩ := List.mem_map.mp (List.mem_reverse.mp hx)
    obtain ⟨waits, rfl, r, hr, taken⟩ := sound.inOrder.mem_orphans.mp hg
    have held := sound.inOrder.covered g waits r hr
    refine ⟨es, d.table.heldOf g.client rs, cause, d.journal, rfl, fun y hy => ?_, r, hr, ?_, ?_⟩
    · obtain ⟨k, -, rfl⟩ := List.mem_map.mp (List.mem_reverse.mp (within y hy))
      exact ⟨k, rfl⟩
    · exact Table.mem_heldOf.mpr ⟨taken, held⟩
    · rw [← sound.inOrder.ledger]
      exact held

end Docket

namespace Allocator

open Journal Docket

variable {W : World σ}

/-- The requests that are in a place, between the steps. -/
def requestsAt (s : Allocator σ) (p : Place) : List Request := (s.docket none 0).requestsAt p

theorem requestsAt_of_final {p : Place} (h : p.isFinal = true) (s : Allocator σ) :
    s.requestsAt p = settled p s.setting.journal := by
  cases p <;> first | rfl | cases h

theorem run_grows (s : Allocator σ) (hs : List (Happening σ)) :
    ∃ es : Journal, (s.run W hs).setting.journal = es ++ s.setting.journal := by
  refine run_invariant (P := fun d => ∃ es : Journal, d.journal = es ++ s.setting.journal)
    (fun act => ?_) (fun _ => ?_) s hs ⟨[], rfl⟩
  · rintro ⟨es, same⟩
    obtain ⟨fs, -, more⟩ := act.untaken
    exact ⟨fs ++ es, by rw [more, same, List.append_assoc]⟩
  · rintro ⟨es, same⟩
    exact ⟨_ :: es, congrArg (_ :: ·) same⟩

/-- A request that has come in is in exactly one place, and there only once; nothing else is in any
place. What is delivered, withdrawn, cancelled or discarded stays so whatever happens. A request is
withdrawn while a withdrawal of its client is served, cancelled when its client has just been
stripped of a resource of its grant, and discarded by a shutdown. -/
theorem requests_conserved (W : World σ) (advisors : List Advisor) (sink : AuditSink) (w : σ)
    (hs : List (Happening σ)) :
    let s := (initial advisors sink w).run W hs
    let j := s.setting.journal
    (∀ r : Request, .entered r.queued ∈ j →
      ∃ p, ∀ p', (s.requestsAt p').filter (·.seq = r.seq) = if p' = p then [r] else []) ∧
    (∀ p, ∀ r ∈ s.requestsAt p, .entered r.queued ∈ j) ∧
    (∀ p, p.isFinal = true → ∀ ks, ∀ r ∈ s.requestsAt p, r ∈ (s.run W ks).requestsAt p) ∧
    ∀ later e earlier, j = later ++ e :: earlier → Caused e earlier := by
  intro s j
  obtain ⟨sound, conserved, caused⟩ := run_holds
    (P := fun d => d.Conserved ∧ Always Caused d.journal)
    (fun act sound h => ⟨h.1.act act sound, act.caused sound h.2⟩)
    (fun next _ h => ⟨h.1.take next, trivial, h.2⟩) advisors sink w hs ⟨fun _ => rfl, trivial⟩
  refine ⟨fun r entered => ?_, fun p r found => ?_, fun p final ks r found => ?_,
    fun later e earlier split => ?_⟩
  · exact conserved.exists_place sound.regular rfl (mem_entered.mpr entered)
  · exact mem_entered.mp (conserved.entered_of_mem rfl found)
  · obtain ⟨es, grown⟩ := run_grows (W := W) s ks
    rw [requestsAt_of_final final] at found ⊢
    rw [grown, settled_append]
    exact List.mem_append_right _ found
  · exact always_split (split ▸ caused : Always Caused (later ++ e :: earlier))

/-- Of four requests one is granted, one is withdrawn, one waits for its resource, and one has not
been served. -/
example :
    let s := (initial [] .nowhere 0).run (World.steady .yes)
      ([asking "x" ["a"], asking "y" ["a"], asking "z" ["a"]] ++ List.replicate 3 .step ++
        [.submit ⟨.withdraw ⟨"y"⟩, .normal⟩, .step, asking "y" ["a"]])
    ([.delivered, .withdrawn, .deferred, .queued] : List Place).map
      (fun p => (s.requestsAt p).map (·.seq)) = [[0], [1], [2], [4]] := by
  decide +kernel

end Allocator

end Allotment
