import Allotment.Proofs.Readiness

/-!
# Commands of one client leave the others alone

Serving a command can set off a cascade of deliveries, refusals and cancellations. All of it stays
with the client that the command names: the stake of anybody else is what it was
(`others_unaffected`).
-/

namespace Allotment

namespace Event

/-- A call of the client of a name. -/
def callsTo (d : ClientId) : Event → Bool
  | called g _ => g.client == d
  | _ => false

theorem uncalled_of_quiet {e : Event} (h : e.isQuiet = true) (d : ClientId) :
    e.callsTo d = false := by
  cases e <;> simp_all [isQuiet, callsTo]

theorem uncalled_of_entered {e : Event} (h : ∃ q, e = .entered q) (d : ClientId) :
    e.callsTo d = false := by
  obtain ⟨q, rfl⟩ := h
  rfl

end Event

/-- All that the books say of one client. -/
structure Stake where
  held : ResourceSet
  /-- Its tentative grants, in the order in which they were made. -/
  tentative : List Grant
  /-- Its deferred requests, longest waiting first. -/
  waiting : List Request
  /-- The calls it has had, the latest first. -/
  calls : Journal
deriving DecidableEq

namespace Books

variable {b : Books} {c d : ClientId}

def stake (d : ClientId) (b : Books) : Stake where
  held := b.table.allocationsOf d
  tentative := b.pending.filter (·.client == d)
  waiting := b.deferred.filter (·.client.id == d)
  calls := b.journal.filter (·.callsTo d)

theorem stake_write {es : List Event} (uncalled : ∀ e ∈ es, e.callsTo d = false) (b : Books) :
    (b.write es).stake d = b.stake d := by
  have none : es.filter (·.callsTo d) = [] := by
    rw [List.filter_eq_nil_iff]
    intro e he
    simp [uncalled e he]
  simp [stake, Books.write, List.filter_append, none]

theorem allocationsOf_congr {t u : Table} (same : ∀ r, u.holder r = some d ↔ t.holder r = some d) :
    u.allocationsOf d = t.allocationsOf d := by
  apply ResourceSet.ext
  intro r
  rw [Table.mem_allocationsOf, Table.mem_allocationsOf, same r]

theorem stake_strip (other : d ≠ c) (rs : ResourceSet) (cause : FreeCause) (b : Books) :
    (b.strip c rs cause).stake d = b.stake d := by
  have held : (b.strip c rs cause).table.allocationsOf d = b.table.allocationsOf d := by
    apply allocationsOf_congr
    intro r
    rw [holder_strip]
    split
    · rename_i taken
      simp [taken.2, Ne.symm other]
    · exact Iff.rfl
  have tentative : (b.strip c rs cause).pending.filter (·.client == d) =
      b.pending.filter (·.client == d) := by
    apply Grant.filter_others other
    intro g foreign
    simp [isOrphan, foreign]
  have calls : (b.strip c rs cause).journal.filter (·.callsTo d) =
      b.journal.filter (·.callsTo d) := by
    rw [journal_strip, List.filter_append]
    have none : (b.losses c rs cause).filter (·.callsTo d) = [] := by
      rw [List.filter_eq_nil_iff]
      intro e he
      obtain ⟨g, -, rfl⟩ | rfl := mem_losses.mp he <;> simp [Event.callsTo]
    rw [none, List.nil_append]
  unfold stake
  rw [held, tentative, calls]
  rfl

end Books

namespace Allocator

open Books

variable {σ : Type} {W : World σ} {s t : Allocator σ} {c d : ClientId}

/-! ### Asking and recording -/

theorem WritesQuietly.stake (h : WritesQuietly s t) : t.books.stake d = s.books.stake d := by
  obtain ⟨es, quiet, same⟩ := h
  rw [same]
  apply stake_write
  intro e he
  exact Event.uncalled_of_quiet (quiet e he) d

theorem stake_record (W : World σ) (k : Decision) (a : ClientId) (rs : ResourceSet)
    (detail : Option String) (s : Allocator σ) :
    (s.record W k a rs detail).books.stake d = s.books.stake d := by
  obtain ⟨es, phase, quiet, -, same⟩ := books_record W k a rs detail s
  rw [same]
  show (s.books.write es).stake d = _
  apply stake_write
  intro e he
  exact Event.uncalled_of_quiet (quiet e he) d

theorem stake_isReady (W : World σ) (earlier : List Grant) (g : Grant) (s : Allocator σ) :
    (s.isReady W earlier g).2.books.stake d = s.books.stake d := by
  rcases looked : s.isReady W earlier g with ⟨ready, t⟩
  cases ready with
  | false => exact (isReady_false looked).stake
  | true =>
    obtain ⟨-, es, background, same⟩ := isReady_true looked
    show t.books.stake d = _
    rw [same]
    apply stake_write
    intro e he
    rcases List.mem_append.mp he with he | he
    · rw [Grant.eq_prepared_of_approval he]
      rfl
    · exact Event.uncalled_of_quiet (Event.quiet_of_background (background e he)) d

/-! ### Delivering -/

theorem stake_firstReady (seen rest : List Grant) (s : Allocator σ) :
    (firstReady W c seen rest s).2.books.stake d = s.books.stake d := by
  induction rest generalizing seen s with
  | nil => rfl
  | cons g rest ih =>
    have asked := stake_isReady (d := d) W seen g s
    unfold firstReady
    split
    · dsimp only
      split
      · exact asked
      · rw [ih, asked]
    · exact ih ..

section

variable (other : d ≠ c)
include other

theorem stake_call {g : Grant} (own : g.client = c) (s : Allocator σ) :
    (s.call W g).2.books.stake d = s.books.stake d := by
  obtain ⟨es, entered, same⟩ := books_call W g s
  rw [same]
  apply stake_write
  intro e he
  rcases List.mem_append.mp he with he | he
  · exact Event.uncalled_of_entered (entered e he) d
  · rw [List.mem_singleton.mp he]
    simp [Event.callsTo, own, Ne.symm other]

/-- What a client loses, with the grants that go for it, was its own. -/
theorem stake_stripped (rs : ResourceSet) (cause : FreeCause) (s : Allocator σ) :
    ((s.take c rs cause).2.cancelOrphaned c).books.stake d = s.books.stake d := by
  rw [books_strip]
  exact stake_strip other rs cause s.books

theorem stake_refuseGrant {g : Grant} (own : g.client = c) (s : Allocator σ) :
    (s.refuseGrant W g).books.stake d = s.books.stake d := by
  subst own
  let freed := s.table.heldOf g.client g.expanded
  let stripped :=
    ((s.count .addRefusal).take g.client g.expanded .refused).2.cancelOrphaned g.client
  let recorded := (stripped.announceFreed W g.client freed).record W .refuse g.client g.requested
    (some (refusalDetail freed))
  have kept : stripped.books.stake d = s.books.stake d :=
    stake_stripped other g.expanded .refused (s.count .addRefusal)
  have told : recorded.books.stake d = s.books.stake d := by
    calc recorded.books.stake d
        = (stripped.announceFreed W g.client freed).books.stake d := stake_record ..
      _ = stripped.books.stake d := (writes_announceFreed W g.client freed stripped).stake
      _ = s.books.stake d := kept
  unfold refuseGrant
  dsimp only
  split
  · exact told
  · exact (writes_followUp [.retryDeferred] recorded).stake.trans told

theorem stake_deliver {g : Grant} (own : g.client = c) (s : Allocator σ) :
    (s.deliver W g).books.stake d = s.books.stake d := by
  have called := stake_call (W := W) other own s
  unfold deliver
  rcases answer : s.call W g with ⟨reply, t⟩
  rw [answer] at called
  refine Eq.trans ?_ called
  cases reply with
  | accept => exact stake_record W .grant g.client g.requested none (t.count .addGrant)
  | refuse => exact stake_refuseGrant other own t
  | breakOff => exact stake_refuseGrant other own t

/-- A grant is taken from between the others and delivered. -/
theorem stake_delivered {before after : List Grant} {g : Grant} (own : g.client = c)
    (split : t.pending = before ++ g :: after) :
    (deliver W g { t with pending := before ++ after }).books.stake d = t.books.stake d := by
  rw [stake_deliver other own]
  have gone : (before ++ after).filter (·.client == d) = t.pending.filter (·.client == d) := by
    rw [split]
    simp [own, Ne.symm other]
  unfold stake
  rw [show (books { t with pending := before ++ after }).pending = before ++ after from rfl, gone]
  rfl

theorem stake_releaseBlocked (s : Allocator σ) :
    (s.releaseBlocked W c).books.stake d = s.books.stake d := by
  fun_induction releaseBlocked W c s with
  | case1 s running t h =>
    have looked := stake_firstReady (W := W) (c := c) (d := d) [] s.pending s
    rwa [h] at looked
  | case2 s running before g after t h _ ih =>
    have looked := stake_firstReady (W := W) (c := c) (d := d) [] s.pending s
    have pending := pending_firstReady W c [] s.pending s
    rw [h] at looked pending
    have split : t.pending = before ++ g :: after :=
      Eq.trans pending (firstReady_append (congrArg Prod.fst h)).symm
    rw [ih, stake_delivered other (client_of_firstReady h) split]
    exact looked
  | case3 s => rfl

theorem stake_completeIfPrepared {i : Nat} (own : ∀ g, s.pending[i]? = some g → g.client = c) :
    (s.completeIfPrepared W i).books.stake d = s.books.stake d := by
  unfold completeIfPrepared
  split
  · rfl
  · rename_i g found
    have asked := stake_isReady (d := d) W (s.pending.take i) g s
    have pending := pending_isReady W (s.pending.take i) g s
    rcases looked : s.isReady W (s.pending.take i) g with ⟨ready, t⟩
    rw [looked] at asked pending
    cases ready with
    | false => exact asked
    | true =>
      obtain ⟨hi, rfl⟩ := List.getElem?_eq_some_iff.mp found
      have split : t.pending = t.pending.take i ++ s.pending[i] :: t.pending.drop (i + 1) := by
        rw [show t.pending = s.pending from pending]
        simp
      dsimp only
      rw [if_pos rfl, own _ found, stake_releaseBlocked other, List.eraseIdx_eq_take_drop_succ,
        stake_delivered other (own _ found) split]
      exact asked

/-! ### Serving a command -/

theorem stake_allocate {r : Request} (own : r.client.id = c) (s : Allocator σ) :
    (s.allocate W r).books.stake d = s.books.stake d := by
  unfold allocate
  rcases decided : s.tryAllocate W r.client.id r.resources with ⟨_ | ⟨expanded, claimed⟩, t⟩
  · have asked := (tryAllocate_none decided).quietly.stake (d := d)
    refine Eq.trans ?_ asked
    refine (stake_record W .defer r.client.id r.resources none _).trans ?_
    simp [stake, books, note, count, own, Ne.symm other, Event.callsTo]
  · obtain ⟨u, table, asks, rfl, available, claims, holders⟩ := tryAllocate_some decided
    have quiet := asks.quietly
    have held : table.allocationsOf d = u.table.allocationsOf d := by
      apply allocationsOf_congr
      intro a
      rw [holders, quiet.table]
      split
      · rename_i claimed
        -- What is claimed was free, and is the claimer's now.
        obtain ⟨within, foreign⟩ := (claims a).mp claimed
        have free := (available a within).resolve_right foreign
        simp [free, own, Ne.symm other]
      · exact Iff.rfl
    let g : Grant := ⟨r, expanded, claimed⟩
    have client : g.client = c := own
    have locked : (books (note (.locked g) { u with table, pending := u.pending ++ [g] })).stake d =
        u.books.stake d := by
      simp [stake, books, note, held, client, Ne.symm other, Event.callsTo]
    refine Eq.trans ?_ (locked.trans quiet.stake)
    apply stake_completeIfPrepared other
    intro k last
    have same : k = g := by simpa [note] using last.symm
    rw [same, client]

theorem stake_free (rs : ResourceSet) (s : Allocator σ) :
    (s.free W c rs).books.stake d = s.books.stake d := by
  let released := ((s.take c rs .asked).2.cancelOrphaned c).releaseBlocked W c
  have delivered : released.books.stake d = s.books.stake d :=
    (stake_releaseBlocked other _).trans (stake_stripped other rs .asked s)
  obtain ⟨-, quiet⟩ | ⟨-, -, told⟩ :=
    afterFree_cases W c (s.table.heldOf c rs) (s.take c rs .asked).2
  · rw [show s.free W c rs = released from quiet]
    exact delivered
  · rw [show s.free W c rs = _ from told, (writes_followUp _ _).stake, stake_record]
    exact delivered

theorem stake_withdraw (s : Allocator σ) :
    (s.withdraw W c).books.stake d = s.books.stake d := by
  obtain ⟨es, phase, quiet, -, same⟩ := books_withdraw W c s
  have uncalled : ∀ e ∈ es, e.callsTo d = false := by
    intro e he
    exact Event.uncalled_of_quiet (quiet e he) d
  have withdrawn : ∀ e ∈ s.books.withdrawals c, e.callsTo d = false := by
    intro e he
    obtain ⟨r, rfl⟩ := mem_withdrawals he
    rfl
  have waiting : (s.deferred.filter fun r => !(r.client.id == c)).filter (·.client.id == d) =
      s.deferred.filter (·.client.id == d) := by
    rw [List.filter_filter]
    apply List.filter_congr
    intro r _
    by_cases own : r.client.id = d <;> simp [own, other]
  let dropped : Books := { s.books.write (s.books.withdrawals c) with
    deferred := s.deferred.filter fun r => !(r.client.id == c) }
  have kept : dropped.stake d = s.books.stake d := by
    refine Eq.trans ?_ (stake_write withdrawn s.books)
    unfold stake
    rw [show dropped.deferred.filter _ = _ from waiting]
    rfl
  rw [same]
  exact (stake_write uncalled dropped).trans kept

end

theorem stake_process (W : World σ) {q : Queued} (named : q.command.clientId? = some c)
    (other : d ≠ c) (s : Allocator σ) :
    (s.process W q).books.stake d = s.books.stake d := by
  obtain ⟨command, priority, seq⟩ := q
  unfold process
  cases command with
  | allocate a rs =>
    exact stake_allocate (r := ⟨a, rs, priority, seq⟩) other (Option.some.inj named) s
  | released a rs => exact (writes_announce W a rs s).stake
  | checkPrepared a rs =>
    obtain rfl : a = c := Option.some.inj named
    show (s.checkPrepared W a rs).books.stake d = _
    unfold checkPrepared
    split
    · rfl
    · rename_i i found
      apply stake_completeIfPrepared other
      intro g at_
      obtain ⟨hi, named, -⟩ := List.findIdx?_eq_some_iff_getElem.mp found
      obtain ⟨-, rfl⟩ := List.getElem?_eq_some_iff.mp at_
      exact (Grant.isNamedBy_iff.mp named).1
  | free a rs => exact stake_free (Option.some.inj named ▸ other) rs s
  | freeAll a => exact stake_free (Option.some.inj named ▸ other) _ s
  | withdraw a => exact stake_withdraw (Option.some.inj named ▸ other) s
  | retryDeferred => cases named
  | snapshot => cases named
  | shutdown => cases named

theorem kept_of_retry_or_report (W : World σ) {q : Queued}
    (plain : q.command = .retryDeferred ∨ q.command = .snapshot) (s : Allocator σ) :
    (s.process W q).table = s.table ∧ (s.process W q).pending = s.pending := by
  unfold process
  obtain retry | report := plain
  · rw [retry]
    exact ⟨table_retryDeferred s, pending_retryDeferred s⟩
  · rw [report]
    exact ⟨rfl, rfl⟩

/-- In whatever state a command is served that names a client, everybody else holds what they held,
has the same tentative grants and deferred requests in the same order, and has not been called. A
retry and a report change no holder and no tentative grant of anybody. -/
theorem others_unaffected (W : World σ) (q : Queued) (s : Allocator σ) :
    (∀ c d, q.command.clientId? = some c → d ≠ c →
      (s.process W q).books.stake d = s.books.stake d) ∧
    (q.command = .retryDeferred ∨ q.command = .snapshot →
      (s.process W q).table = s.table ∧ (s.process W q).pending = s.pending) := by
  constructor
  · intro c d named other
    exact stake_process W named other s
  · intro plain
    exact kept_of_retry_or_report W plain s

/-- A client gives up part of a tentative grant, which drops that grant and delivers another of its
own. Somebody else has a grant and a request waiting all the while. -/
theorem other_waits_through_cascade :
    let W := World.steady .no
    let s := (initial [.outside 0 "slow"] .nowhere 0).run W [asking "x" ["a", "b"], .step,
      asking "x" ["b"], .step, asking "y" ["c"], .step, asking "y" ["a"], .step]
    let q : Queued := ⟨.free ⟨"x"⟩ (.ofList [⟨"a"⟩]), .normal, 4⟩
    let t := s.process W q
    let u := t.process W ⟨.retryDeferred, .normal, 5⟩
    q.command.clientId? = some ⟨"x"⟩ ∧ (⟨"y"⟩ : ClientId) ≠ ⟨"x"⟩ ∧
    t.books.stake ⟨"y"⟩ = s.books.stake ⟨"y"⟩ ∧
    (u.table = t.table ∧ u.pending = t.pending) ∧
    (s.books.stake ⟨"y"⟩).held = .ofList [⟨"c"⟩] ∧
    (s.books.stake ⟨"y"⟩).tentative.length = 1 ∧ (s.books.stake ⟨"y"⟩).waiting.length = 1 ∧
    (s.books.stake ⟨"x"⟩).tentative.length = 2 ∧ (s.books.stake ⟨"x"⟩).calls.length = 0 ∧
    (t.books.stake ⟨"x"⟩).tentative.length = 0 ∧ (t.books.stake ⟨"x"⟩).calls.length = 1 := by
  intro W s q t u
  have named : q.command.clientId? = some ⟨"x"⟩ := rfl
  have other : (⟨"y"⟩ : ClientId) ≠ ⟨"x"⟩ := by decide
  refine ⟨named, other, (others_unaffected W q s).1 _ _ named other,
    (others_unaffected W ⟨.retryDeferred, .normal, 5⟩ t).2 (.inl rfl), ?_⟩
  decide +kernel

end Allocator

end Allotment
