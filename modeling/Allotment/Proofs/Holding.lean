import Allotment.Proofs.Moves

/-!
# Clients are called over what they hold

`Lawful` says what the journal shows before a lock, a call and a release. Every turn keeps it
(`Turn.lawful`), and a journal that is lawful throughout leaves a resource with its holder up to the
first release of it (`holder_of_unfreed`).
-/

namespace Allotment

namespace Journal

/-- Why `c` may be made to give up resources: it has just asked for it, or just refused a grant of
them. -/
def Grounds (c : ClientId) (rs : ResourceSet) (j : Journal) : FreeCause → Prop
  | .asked => ∃ q earlier, j = .took q :: earlier ∧
      (q.command = .freeAll c ∨ ∃ all, q.command = .free c all ∧ ∀ r ∈ rs, r ∈ all)
  | .refused => ∃ es g reply earlier, j = es ++ .called g reply :: earlier ∧
      (∀ e ∈ es, ∃ q, e = .entered q) ∧ reply ≠ .accept ∧ g.client = c ∧
      ∀ r ∈ rs, r ∈ g.expanded

/-- What the entries before one show. -/
def Lawful : Event → Journal → Prop
  | .locked g, j => ∀ r ∈ g.claimed, j.holder r = none
  | .called g _, j => ∀ r ∈ g.expanded, j.holder r = some g.client
  | .freed c rs cause, j => (∀ r ∈ rs, j.holder r = some c) ∧ Grounds c rs j cause
  | _, _ => True

theorem lawful_of_quiet {e : Event} (h : e.isQuiet = true) (j : Journal) : Lawful e j := by
  cases e <;> simp_all [Event.isQuiet, Lawful]

theorem lawful_of_entered {e : Event} (h : ∃ q, e = .entered q) (j : Journal) : Lawful e j := by
  obtain ⟨q, rfl⟩ := h
  trivial

theorem lawful_of_approval {g : Grant} {e : Event} (h : e ∈ g.approval) (j : Journal) :
    Lawful e j := by
  rw [Grant.eq_prepared_of_approval h]
  trivial

section
variable {r : ResourceId} {c : ClientId}

/-- Nobody can take over a resource that is held and not freed. -/
theorem holds_of_lawful {e : Event} {j : Journal} (lawful : Lawful e j)
    (unfreed : e.frees r = false) (held : j.holder r = some c) :
    e.holds r (j.holder r) = some c := by
  cases e with
  | locked g =>
    have : r ∉ g.claimed := fun h => by
      have none := lawful r h
      rw [held] at none
      cases none
    simpa [Event.holds, this] using held
  | freed d rs cause =>
    have : r ∉ rs := by simpa [Event.frees] using unfreed
    simpa [Event.holds, this] using held
  | _ => exact held

theorem holder_of_unfreed {es : List Event} {j : Journal} (lawful : Always Lawful (es ++ j))
    (unfreed : ∀ e ∈ es, e.frees r = false) (held : j.holder r = some c) :
    holder (es ++ j) r = some c := by
  induction es with
  | nil => exact held
  | cons e es ih =>
    obtain ⟨he, unfreed⟩ := List.forall_mem_cons.mp unfreed
    exact holds_of_lawful lawful.1 he (ih lawful.2 unfreed)

/-- Until it is freed, nobody but its holder is called over it. -/
theorem client_of_unfreed {es : List Event} {j : Journal} (lawful : Always Lawful (es ++ j))
    (unfreed : ∀ e ∈ es, e.frees r = false) (held : j.holder r = some c) {g : Grant} {reply : Reply}
    (called : .called g reply ∈ es) (hr : r ∈ g.expanded) : g.client = c := by
  obtain ⟨later, earlier, rfl⟩ := List.append_of_mem called
  have split : (later ++ Event.called g reply :: earlier) ++ j =
      later ++ Event.called g reply :: (earlier ++ j) := by simp
  rw [split] at lawful
  have own : holder (earlier ++ j) r = some g.client := always_split lawful r hr
  have still : holder (earlier ++ j) r = some c := by
    refine holder_of_unfreed (always_tail lawful).2 (fun e he => unfreed e ?_) held
    exact List.mem_append_right _ (List.mem_cons_of_mem _ he)
  exact Option.some.inj (own.symm.trans still)

end

end Journal

namespace Books

open Journal

variable {b b' : Books}

theorem InOrder.called_lawful (h : b.InOrder) {before after : List Grant} {g : Grant}
    (reply : Reply) (split : b.pending = before ++ g :: after)
    (lawful : Always Lawful b.journal) :
    Always Lawful (b.handOver before g after reply).journal := by
  refine ⟨fun r hr => ?_, always_append (fun e he => lawful_of_approval he) lawful⟩
  have hg : g ∈ b.pending := by simp [split]
  show Journal.holder (g.approval ++ b.journal) r = some g.client
  rw [holder_append g.still_of_approval, ← h.ledger]
  exact h.covered g hg r hr

theorem InOrder.strip_lawful (h : b.InOrder) {c : ClientId} {rs : ResourceSet} {cause : FreeCause}
    (grounds : Grounds c (b.table.heldOf c rs) b.journal cause)
    (lawful : Always Lawful b.journal) : Always Lawful (b.strip c rs cause).journal := by
  have freed : Always Lawful (.freed c (b.table.heldOf c rs) cause :: b.journal) := by
    refine ⟨⟨fun r hr => ?_, grounds⟩, lawful⟩
    rw [← h.ledger]
    exact (Table.mem_heldOf.mp hr).2
  refine always_append (fun e he k => ?_) freed
  obtain ⟨g, -, rfl⟩ := List.mem_map.mp (List.mem_reverse.mp he)
  trivial

theorem Turn.lawful (turn : Turn b b') (h : b.InOrder) (lawful : Always Lawful b.journal) :
    Always Lawful b'.journal := by
  cases turn with
  | quiet es phase quiet => exact always_append (fun e he => lawful_of_quiet (quiet e he)) lawful
  | lock lockable => exact ⟨fun r hr => (h.ledger r).symm.trans (lockable.free hr), lawful⟩
  | accept ready => exact h.called_lawful .accept ready.split lawful
  | @refuse before g after reply es ready refused entries =>
    have called := h.called_lawful reply ready.split lawful
    have order := (h.handOver reply ready.split).write fun e he =>
      Event.still_of_entered (entries e he)
    refine order.strip_lawful ?_ (always_append (fun e he => ?_) called)
    · exact ⟨es, g, reply, _, rfl, entries, refused, rfl, fun r hr => (Table.mem_heldOf.mp hr).1⟩
    · exact lawful_of_entered (entries e he)
  | free q c rs _ command =>
    have order : (b.write [.took q]).InOrder := h.write (by simp [Event.isStill])
    refine order.strip_lawful ⟨q, b.journal, rfl, ?_⟩ ⟨trivial, lawful⟩
    rcases command with command | ⟨command, -⟩
    · exact .inr ⟨rs, command, fun r hr => (Table.mem_heldOf.mp hr).1⟩
    · exact .inl command
  | defer r => exact ⟨trivial, lawful⟩
  | retry => exact ⟨trivial, lawful⟩
  | withdraw c =>
    refine always_append (fun e he k => ?_) lawful
    obtain ⟨r, rfl⟩ := mem_withdrawals he
    trivial
  | stop waiting => exact ⟨trivial, lawful⟩

end Books

namespace Allocator

open Journal

variable {σ : Type}

theorem run_lawful (W : World σ) (advisors : List Advisor) (sink : AuditSink) (w : σ)
    (hs : List (Happening σ)) :
    ((initial advisors sink w).run W hs).books.InOrder ∧
      Always Lawful ((initial advisors sink w).run W hs).setting.journal :=
  Books.turns_invariant (P := fun b => b.InOrder ∧ Always Lawful b.journal)
    (fun turn h => ⟨turn.inOrder h.1, turn.lawful h.1 h.2⟩) (run_moves W _ hs).turns
    ⟨Books.initial_inOrder, trivial⟩

/-- The reservation table is what the journal says. A client is called over resources that are all
its own. Those of a grant that it accepts stay with it, and nobody else is called over them, up to
the first release of them, which it has asked for or which follows from a refusal of its own. -/
theorem called_over_own_resources (W : World σ) (advisors : List Advisor) (sink : AuditSink) (w : σ)
    (hs : List (Happening σ)) :
    let s := (initial advisors sink w).run W hs
    let j := s.setting.journal
    (∀ r, s.table.holder r = j.holder r) ∧
    (∀ later g reply earlier, j = later ++ .called g reply :: earlier →
      ∀ r ∈ g.expanded, Journal.holder earlier r = some g.client) ∧
    (∀ later mid g earlier r, j = later ++ (mid ++ .called g .accept :: earlier) →
      r ∈ g.expanded → (∀ e ∈ mid, e.frees r = false) →
      Journal.holder (mid ++ .called g .accept :: earlier) r = some g.client ∧
      ∀ k reply, .called k reply ∈ mid → r ∈ k.expanded → k.client = g.client) ∧
    ∀ later c rs cause earlier, j = later ++ .freed c rs cause :: earlier →
      (∀ r ∈ rs, Journal.holder earlier r = some c) ∧ Grounds c rs earlier cause := by
  intro s j
  obtain ⟨order, lawful⟩ := run_lawful W advisors sink w hs
  refine ⟨order.ledger, fun later g reply earlier split => ?_,
    fun later mid g earlier r split hr unfreed => ?_, fun later c rs cause earlier split => ?_⟩
  · exact always_split (split ▸ lawful : Always Lawful (later ++ .called g reply :: earlier))
  · have lawful : Always Lawful (mid ++ .called g .accept :: earlier) :=
      always_tail (split ▸ lawful : Always Lawful (later ++ (mid ++ .called g .accept :: earlier)))
    have held : Journal.holder (.called g .accept :: earlier) r = some g.client :=
      always_split lawful r hr
    exact ⟨holder_of_unfreed lawful unfreed held,
      fun k reply called hk => client_of_unfreed lawful unfreed held called hk⟩
  · exact always_split (split ▸ lawful : Always Lawful (later ++ .freed c rs cause :: earlier))

end Allocator

end Allotment
