import Allotment.Proofs.Holding
import Allotment.Proofs.Serving

/-!
# Tentative grants are backed by the table

What is locked for a tentative grant is held by its client, and no two tentative grants have claimed
the same resource (`Backed`). A report shows a state that the allocator has been in.
-/

namespace Allotment

variable {σ : Type}

structure Backed (t : Table) (gs : List Grant) : Prop where
  covered : ∀ g ∈ gs, ∀ r ∈ g.expanded, t.holder r = some g.client
  claims : ∀ g ∈ gs, ∀ r ∈ g.claimed, r ∈ g.expanded
  apart : gs.Pairwise fun g k => g.client = k.client → ∀ r ∈ k.claimed, r ∉ g.expanded
  separate : gs.Pairwise fun g k => ∀ r ∈ g.claimed, r ∉ k.claimed

/-- Clients of different identity hold nothing in common, and the later grants of one client claim
nothing that its earlier ones cover. -/
theorem Books.InOrder.backed {b : Books} (h : b.InOrder) : Backed b.table b.pending where
  covered := h.covered
  claims := h.claims
  apart := h.apart
  separate := by
    refine h.apart.imp_of_mem fun {g k} hg hk apart r hr claimed => ?_
    have mine := h.covered g hg r (h.claims g hg r hr)
    have own := mine.symm.trans (h.covered k hk r (h.claims k hk r claimed))
    exact apart (Option.some.inj own) r claimed (h.claims g hg r hr)

namespace Docket

variable {W : World σ} {d e : Docket}

/-- The command in hand does not ask for a report. -/
def Silent (d : Docket) : Prop := ∀ q, d.hand = some q → q.command ≠ .snapshot

theorem Act.silent (act : Act W d e) (h : d.Silent) : e.Silent := by
  intro q hand
  rcases act.hand with none | same
  · cases none.symm.trans hand
  · exact h q (same ▸ hand)

theorem Act.reported (act : Act W d e) {n : Nat} {snap : Snapshot}
    (reported : .reported n snap ∈ e.journal) :
    .reported n snap ∈ d.journal ∨ ∃ q, d.hand = some q ∧ q.command = .snapshot := by
  have other {x : Event} (mine : .reported n snap ∈ x :: d.journal)
      (kind : ∀ n snap, x ≠ .reported n snap) : .reported n snap ∈ d.journal :=
    (List.mem_cons.mp mine).resolve_left fun same => kind n snap same.symm
  cases act with
  | remark x remark =>
    refine .inl (other reported fun n snap same => ?_)
    rw [same] at remark
    cases remark
  | crash | dismiss | forgo => exact .inl reported
  | enter | notify | lock | defer | retry | stop | call => exact .inl (other reported (by simp))
  | report q hand command => exact .inr ⟨q, hand, command⟩
  | withdraw q c =>
    refine .inl ((List.mem_append.mp reported).resolve_left fun mine => ?_)
    obtain ⟨r, same⟩ := Books.mem_withdrawals mine
    cases same
  | strip c rs cause =>
    rw [show (d.strip c rs cause).journal = _ from Books.journal_strip] at reported
    refine .inl ((List.mem_append.mp reported).resolve_left fun mine => ?_)
    obtain ⟨g, -, same⟩ | same := Books.mem_losses.mp mine <;> cases same

end Docket

namespace Allocator

open Docket

variable {W : World σ} {n : Nat} {snap : Snapshot}

/-- Nothing is reported unless the command in hand asks for it. -/
theorem acts_reported {d e : Docket} (acts : Acts W d e) (silent : d.Silent)
    (reported : .reported n snap ∈ e.journal) : .reported n snap ∈ d.journal := by
  refine (acts_invariant (P := fun f => f.Silent ∧
    (.reported n snap ∈ f.journal → .reported n snap ∈ d.journal))
    (fun act h => ⟨act.silent h.1, fun reported => ?_⟩) acts ⟨silent, id⟩).2 reported
  obtain earlier | ⟨q, hand, command⟩ := act.reported reported
  · exact h.2 earlier
  · exact absurd command (h.1 q hand)

theorem apply_reported (s : Allocator σ) (h : Happening σ)
    (reported : .reported n snap ∈ (s.apply W h).setting.journal) :
    .reported n snap ∈ s.setting.journal ∨ h = .step ∧ snap = s.snapshot := by
  have idle : (s.docket none 0).Silent := by simp [Silent, docket]
  cases h with
  | submit x => exact .inl (acts_reported (acts_submit W x s) idle reported)
  | poll number task o => exact .inl (acts_reported (acts_poll W number task o s) idle reported)
  | shift w => exact .inl reported
  | step =>
    obtain same | ⟨running, q, rest, -, served⟩ := step_cases W s
    · exact .inl (same ▸ reported)
    · rw [show s.apply W .step = _ from served] at reported
      by_cases command : q.command = .snapshot
      · have shown : (s.accept q rest).process W q =
            (s.accept q rest).note (.reported q.seq s.snapshot) := by
          unfold process
          rw [command]
          rfl
        rw [shown] at reported
        rcases List.mem_cons.mp reported with same | reported
        · exact .inr ⟨rfl, (Event.reported.inj same).2⟩
        · exact .inl ((List.mem_cons.mp reported).resolve_left (by simp))
      · have silent : ((s.docket none 0).take q rest).Silent :=
          fun p hand => Option.some.inj hand ▸ command
        have before := acts_reported (acts_served running) silent reported
        exact .inl ((List.mem_cons.mp before).resolve_left (by simp))

/-- A report is of the state before the step in which it was made. -/
theorem run_reported (s : Allocator σ) (hs : List (Happening σ))
    (reported : .reported n snap ∈ (s.run W hs).setting.journal) :
    .reported n snap ∈ s.setting.journal ∨
      ∃ ks ls, hs = ks ++ .step :: ls ∧ snap = (s.run W ks).snapshot := by
  induction hs generalizing s with
  | nil => exact .inl reported
  | cons h hs ih =>
    obtain earlier | ⟨ks, ls, rfl, same⟩ := ih (s.apply W h) reported
    · obtain earlier | ⟨rfl, same⟩ := apply_reported s h earlier
      · exact .inl earlier
      · exact .inr ⟨[], hs, rfl, same⟩
    · exact .inr ⟨h :: ks, ls, rfl, same⟩

/-- In every state what is locked for a tentative grant is held by its client, and no claim of one
is covered by an earlier one of its client or claimed by another. A report is the view of such a
state, in which everything that is shown as locked for a client is shown as held by it. -/
theorem tentative_backed (W : World σ) (advisors : List Advisor) (sink : AuditSink) (w : σ)
    (hs : List (Happening σ)) :
    let s := (initial advisors sink w).run W hs
    Backed s.table s.pending ∧
    ∀ n snap, .reported n snap ∈ s.setting.journal → ∃ ks ls, hs = ks ++ .step :: ls ∧
      let t := (initial advisors sink w).run W ks
      snap = t.snapshot ∧ Backed t.table t.pending ∧
      ∀ p ∈ snap.pendingPreparations, ∀ r ∈ p.resources, snap.holder r = some p.client := by
  have backed (ks : List (Happening σ)) :
      Backed ((initial advisors sink w).run W ks).table
        ((initial advisors sink w).run W ks).pending :=
    (run_lawful W advisors sink w ks).1.backed
  refine ⟨backed hs, fun n snap reported => ?_⟩
  obtain none | ⟨ks, ls, split, rfl⟩ := run_reported _ hs reported
  · cases none
  · refine ⟨ks, ls, split, rfl, backed ks, fun p hp r hr => ?_⟩
    obtain ⟨g, hg, rfl⟩ := List.mem_map.mp hp
    exact (backed ks).covered g hg r hr

end Allocator

end Allotment
