import Mathlib.Logic.Relation
import Allotment.Allocator.Basic
import Allotment.Proofs.Journal

/-!
# The books of an allocator

Who holds what, who waits, which grants are tentative, and the journal. A `Turn` is a change of the
books that is made as a whole. `InOrder` is what every turn preserves: the journal accounts for
every holder, tentative grants are covered by the table, and what a later one claims lies outside
the earlier ones of its client.
-/

namespace Allotment

namespace Grant

/-- The advisors have called the preparation of what the grant claims complete. -/
def prepared (g : Grant) : Event := .consulted .complete g.client g.claimed true

/-- What the advisors say before a delivery; a grant that claims nothing needs no leave. -/
def approval (g : Grant) : List Event := if g.claimed.isEmpty then [] else [g.prepared]

theorem eq_prepared_of_approval {g : Grant} {e : Event} (h : e ∈ g.approval) : e = g.prepared := by
  unfold approval at h
  split at h
  · cases h
  · exact List.mem_singleton.mp h

theorem claimed_eq_of_prepared {g k : Grant} (h : k.prepared = g.prepared) :
    k.claimed = g.claimed := by
  simp only [prepared, Event.consulted.injEq] at h
  exact h.2.2.1

theorem prepared_mem_approval {g : Grant} {r : ResourceId} (h : r ∈ g.claimed) :
    g.prepared ∈ g.approval := by
  unfold approval
  split
  · rename_i nothing
    rw [ResourceSet.isEmpty_iff.mp nothing] at h
    exact absurd h (ResourceSet.not_mem_empty r)
  · exact List.mem_singleton.mpr rfl

theorem still_of_approval (g : Grant) : ∀ e ∈ g.approval, e.isStill = true := by
  intro e he
  rw [eq_prepared_of_approval he]
  rfl

/-- What is written down when a grant is delivered. -/
def delivery (g : Grant) (reply : Reply) : List Event := .called g reply :: g.approval

theorem still_of_delivery (g : Grant) (reply : Reply) : ∀ e ∈ g.delivery reply, e.isStill = true :=
  List.forall_mem_cons.mpr ⟨rfl, g.still_of_approval⟩

end Grant

structure Books where
  table : Table := ∅
  deferred : List Request := []
  pending : List Grant := []
  phase : Phase := .running
  journal : Journal := []

namespace Books

def write (es : List Event) (b : Books) : Books := { b with journal := es ++ b.journal }

/-- A grant of `c` of which the table no longer shows everything with `c`. -/
def isOrphan (table : Table) (c : ClientId) (g : Grant) : Bool :=
  g.client == c && !g.expanded.all fun r => table.holder r == some g.client

/-- The tentative grants that go when `c` loses what it holds of a set. -/
def orphans (c : ClientId) (rs : ResourceSet) (b : Books) : List Grant :=
  b.pending.filter (isOrphan (b.table.free c rs).2 c)

/-- Takes from `c` what it holds of a set, and drops its tentative grants that lose by it. -/
def strip (c : ClientId) (rs : ResourceSet) (cause : FreeCause) (b : Books) : Books :=
  { b with
    table := (b.table.free c rs).2
    pending := b.pending.filter fun g => !isOrphan (b.table.free c rs).2 c g
    journal := ((b.orphans c rs).map .cancelled).reverse ++
      .freed c (b.table.heldOf c rs) cause :: b.journal }

/-- The deferred requests of `c` go. -/
def withdrawals (c : ClientId) (b : Books) : List Event :=
  ((b.deferred.filter (·.client.id == c)).map .withdrawn).reverse

theorem mem_withdrawals {c : ClientId} {b : Books} {e : Event} (h : e ∈ b.withdrawals c) :
    ∃ r, e = .withdrawn r := by
  obtain ⟨r, -, rfl⟩ := List.mem_map.mp (List.mem_reverse.mp h)
  exact ⟨r, rfl⟩

/-- Takes a grant from between others and calls its client. -/
def handOver (before : List Grant) (g : Grant) (after : List Grant) (reply : Reply)
    (b : Books) : Books :=
  { b with
    pending := before ++ after
    journal := g.delivery reply ++ b.journal }

/-- The grant can be delivered: no earlier one of its client holds it back. -/
structure Ready (b : Books) (before : List Grant) (g : Grant) (after : List Grant) : Prop where
  running : b.phase = .running
  split : b.pending = before ++ g :: after
  free : ∀ k ∈ before, k.holdsBack g = false

/-- A grant can be made that leads to the table: its client gets what of it was free. -/
structure Lockable (b : Books) (g : Grant) (table : Table) : Prop where
  running : b.phase = .running
  available : ∀ r ∈ g.expanded, b.table.holder r = none ∨ b.table.holder r = some g.client
  claimed : ∀ r, r ∈ g.claimed ↔ r ∈ g.expanded ∧ b.table.holder r ≠ some g.client
  holders : ∀ r, table.holder r = if r ∈ g.claimed then some g.client else b.table.holder r

theorem Lockable.free {b : Books} {g : Grant} {table : Table} (h : b.Lockable g table)
    {r : ResourceId} (hr : r ∈ g.claimed) : b.table.holder r = none := by
  obtain ⟨hx, other⟩ := (h.claimed r).mp hr
  exact (h.available r hx).resolve_right other

inductive Turn (b : Books) : Books → Prop
  | quiet (es : List Event) (phase : Phase) (quiet : ∀ e ∈ es, e.isQuiet = true)
      (kept : phase = b.phase ∨ phase = .crashed) : Turn b { b.write es with phase }
  | lock {g table} (lockable : b.Lockable g table) :
      Turn b { b.write [.locked g] with table, pending := b.pending ++ [g] }
  | accept {before g after} (ready : b.Ready before g after) :
      Turn b (b.handOver before g after .accept)
  | refuse {before g after} (reply : Reply) (es : List Event) (ready : b.Ready before g after)
      (refused : reply ≠ .accept) (entries : ∀ e ∈ es, ∃ q, e = .entered q) :
      Turn b (((b.handOver before g after reply).write es).strip g.client g.expanded .refused)
  | free (q : Queued) (c : ClientId) (rs : ResourceSet) (running : b.phase = .running)
      (command : q.command = .free c rs ∨
        q.command = .freeAll c ∧ rs = b.table.allocationsOf c) :
      Turn b ((b.write [.took q]).strip c rs .asked)
  | defer (r : Request) (running : b.phase = .running) :
      Turn b { b.write [.deferred r] with deferred := b.deferred ++ [r] }
  | retry (running : b.phase = .running) :
      Turn b { b.write [.retried b.deferred] with deferred := [] }
  | withdraw (c : ClientId) (running : b.phase = .running) :
      Turn b
        { b.write (b.withdrawals c) with
          deferred := b.deferred.filter fun r => !(r.client.id == c) }
  | stop (waiting : List Queued) (running : b.phase = .running) :
      Turn b
        { b.write [.stopped waiting b.deferred b.pending] with
          deferred := [], pending := [], phase := .terminated }

abbrev Turns : Books → Books → Prop := Relation.ReflTransGen Turn

theorem turns_quiet {b : Books} (es : List Event) (h : ∀ e ∈ es, e.isQuiet = true) :
    Turns b (b.write es) := .single (.quiet es b.phase h (.inl rfl))

theorem turns_invariant {P : Books → Prop} (step : ∀ {b b'}, Turn b b' → P b → P b') {b b' : Books}
    (h : Turns b b') (hb : P b) : P b' := by
  induction h with
  | refl => exact hb
  | tail _ turn ih => exact step turn ih

/-! ### Stripping a client -/

section
variable {b : Books} {c : ClientId} {rs : ResourceSet} {cause : FreeCause}

theorem holder_strip (r : ResourceId) :
    (b.strip c rs cause).table.holder r =
      if r ∈ rs ∧ b.table.holder r = some c then none else b.table.holder r :=
  Table.holder_free b.table c rs r

theorem held_of_strip {r : ResourceId} {d : ClientId}
    (h : (b.strip c rs cause).table.holder r = some d) : b.table.holder r = some d := by
  rw [holder_strip] at h
  split at h
  · cases h
  · exact h

theorem not_stripped {r : ResourceId} (h : (b.strip c rs cause).table.holder r = some c) :
    r ∉ rs := by
  intro hr
  have held := held_of_strip h
  rw [holder_strip, if_pos ⟨hr, held⟩] at h
  cases h

/-- What is written down when `c` is stripped. -/
def losses (c : ClientId) (rs : ResourceSet) (cause : FreeCause) (b : Books) : List Event :=
  ((b.orphans c rs).map .cancelled).reverse ++ [.freed c (b.table.heldOf c rs) cause]

theorem journal_strip :
    (b.strip c rs cause).journal = b.losses c rs cause ++ b.journal := List.append_cons ..

theorem mem_losses {e : Event} : e ∈ b.losses c rs cause ↔
    (∃ g ∈ b.orphans c rs, .cancelled g = e) ∨ e = .freed c (b.table.heldOf c rs) cause := by
  simp [losses]

theorem locks_losses {e : Event} (h : e ∈ b.losses c rs cause) (r : ResourceId) :
    e.locks r = false := by
  obtain ⟨g, -, rfl⟩ | rfl := mem_losses.mp h <;> rfl

theorem isOrphan_iff {table : Table} {g : Grant} :
    isOrphan table c g = true ↔ g.client = c ∧ ∃ r ∈ g.expanded, table.holder r ≠ some c := by
  simp only [isOrphan, Bool.and_eq_true, beq_iff_eq, Bool.not_eq_true', Bool.eq_false_iff, ne_eq,
    ResourceSet.all_iff, Classical.not_forall, exists_prop]
  refine and_congr_right fun hc => ?_
  simp [hc]

theorem mem_pending_strip {g : Grant} :
    g ∈ (b.strip c rs cause).pending ↔ g ∈ b.pending ∧ g ∉ b.orphans c rs := by
  simp only [strip, orphans, List.mem_filter, not_and, Bool.not_eq_true', Bool.not_eq_true]
  exact and_congr_right fun h => ⟨fun k _ => k, fun k => k h⟩

end

/-! ### What stays in order -/

structure InOrder (b : Books) : Prop where
  ledger : ∀ r, b.table.holder r = b.journal.holder r
  covered : ∀ g ∈ b.pending, ∀ r ∈ g.expanded, b.table.holder r = some g.client
  claims : ∀ g ∈ b.pending, ∀ r ∈ g.claimed, r ∈ g.expanded
  apart : b.pending.Pairwise fun g k => g.client = k.client → ∀ r ∈ k.claimed, r ∉ g.expanded

namespace InOrder

variable {b b' : Books} {c : ClientId} {rs : ResourceSet} {cause : FreeCause}

/-- A grant is an orphan just if something of it is taken. -/
theorem mem_orphans (h : b.InOrder) {g : Grant} :
    g ∈ b.orphans c rs ↔ g ∈ b.pending ∧ g.client = c ∧ ∃ r ∈ g.expanded, r ∈ rs := by
  rw [orphans, List.mem_filter, isOrphan_iff]
  refine and_congr_right fun hg => and_congr_right fun hc => exists_congr fun r =>
    and_congr_right fun hr => ?_
  have held := h.covered g hg r hr
  rw [hc] at held
  rw [Table.holder_free]
  by_cases k : r ∈ rs <;> simp [k, held]

theorem write (h : b.InOrder) {es : List Event} (still : ∀ e ∈ es, e.isStill = true) :
    (b.write es).InOrder where
  ledger r := (h.ledger r).trans (Journal.holder_append still _ r).symm
  covered := h.covered
  claims := h.claims
  apart := h.apart

theorem sublist_of_split {before after : List Grant} {g : Grant}
    (split : b.pending = before ++ g :: after) : (before ++ after).Sublist b.pending := by
  rw [split]
  exact (List.sublist_cons_self g after).append_left before

theorem handOver (h : b.InOrder) {before after : List Grant} {g : Grant} (reply : Reply)
    (split : b.pending = before ++ g :: after) : (b.handOver before g after reply).InOrder := by
  have rest := sublist_of_split split
  exact ⟨fun r => (h.ledger r).trans
      (Journal.holder_append (g.still_of_delivery reply) _ r).symm,
    fun k hk => h.covered k (rest.subset hk), fun k hk => h.claims k (rest.subset hk),
    h.apart.sublist rest⟩

theorem strip (h : b.InOrder) : (b.strip c rs cause).InOrder where
  ledger r := by
    have still : ∀ e ∈ ((b.orphans c rs).map Event.cancelled).reverse, e.isStill = true := by
      intro e he
      obtain ⟨g, -, rfl⟩ := List.mem_map.mp (List.mem_reverse.mp he)
      rfl
    show _ = Journal.holder (_ ++ _ :: b.journal) r
    rw [Journal.holder_append still, Journal.holder_cons, holder_strip, ← h.ledger]
    simp [Event.holds]
  covered g hg r hr := by
    obtain ⟨hg, kept⟩ := mem_pending_strip.mp hg
    have held := h.covered g hg r hr
    rw [holder_strip, if_neg, held]
    rintro ⟨hrs, hc⟩
    exact kept (h.mem_orphans.mpr ⟨hg, Option.some.inj (held.symm.trans hc), r, hr, hrs⟩)
  claims g hg := h.claims g (mem_pending_strip.mp hg).1
  apart := h.apart.filter _

theorem lock (h : b.InOrder) {g : Grant} {table : Table} (lockable : b.Lockable g table) :
    InOrder { b.write [.locked g] with table, pending := b.pending ++ [g] } where
  ledger r := by
    show table.holder r = Event.holds r (.locked g) (b.journal.holder r)
    rw [lockable.holders, ← h.ledger]
    rfl
  covered k hk r hr := by
    show table.holder r = _
    rw [lockable.holders]
    rcases List.mem_append.mp hk with hk | hk
    · have held := h.covered k hk r hr
      split
      · rename_i hc
        rw [lockable.free hc] at held
        cases held
      · exact held
    · obtain rfl := List.mem_singleton.mp hk
      split
      · rfl
      · rename_i hc
        exact Classical.not_not.mp fun other => hc ((lockable.claimed r).mpr ⟨hr, other⟩)
  claims k hk r hr := by
    rcases List.mem_append.mp hk with hk | hk
    · exact h.claims k hk r hr
    · obtain rfl := List.mem_singleton.mp hk
      exact ((lockable.claimed r).mp hr).1
  apart := by
    refine List.pairwise_append.mpr ⟨h.apart, List.pairwise_singleton _ _, fun k hk g' hg' => ?_⟩
    obtain rfl := List.mem_singleton.mp hg'
    intro same r hr hx
    exact ((lockable.claimed r).mp hr).2 (same ▸ h.covered k hk r hx)

end InOrder

theorem initial_inOrder : InOrder {} := by
  refine ⟨fun r => rfl, ?_, ?_, List.Pairwise.nil⟩ <;> intro g hg <;> cases hg

theorem Turn.inOrder {b b' : Books} (turn : Turn b b') (h : b.InOrder) : b'.InOrder := by
  cases turn with
  | quiet es phase quiet =>
    obtain ⟨ledger, covered, claims, apart⟩ :=
      h.write fun e he => Event.still_of_quiet (quiet e he)
    exact ⟨ledger, covered, claims, apart⟩
  | lock lockable => exact h.lock lockable
  | accept ready => exact h.handOver .accept ready.split
  | refuse reply es ready _ entries =>
    refine ((h.handOver reply ready.split).write fun e he => ?_).strip
    exact Event.still_of_entered (entries e he)
  | free q c rs => exact (h.write (by simp [Event.isStill])).strip
  | defer r => exact ⟨h.ledger, h.covered, h.claims, h.apart⟩
  | retry => exact ⟨h.ledger, h.covered, h.claims, h.apart⟩
  | withdraw c =>
    have still : ∀ e ∈ b.withdrawals c, e.isStill = true := by
      intro e he
      obtain ⟨r, rfl⟩ := mem_withdrawals he
      rfl
    obtain ⟨ledger, covered, claims, apart⟩ := h.write still
    exact ⟨ledger, covered, claims, apart⟩
  | stop waiting =>
    refine ⟨h.ledger, ?_, ?_, List.Pairwise.nil⟩ <;> intro g hg <;> cases hg

end Books

namespace Allocator

variable {σ : Type}

def books (s : Allocator σ) : Books where
  table := s.table
  deferred := s.deferred
  pending := s.pending
  phase := s.phase
  journal := s.setting.journal

end Allocator

end Allotment
