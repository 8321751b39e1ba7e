import Mathlib.Logic.Function.Iterate
import Mathlib.Data.List.Perm.Subperm
import Allotment.Proofs.Refusals

/-!
# Scanning the tentative grants of a client

`releaseBlocked` goes through a list that shrinks under it, by position and from the start again
after each delivery. Said position by position, the scan ends, never looks where no grant stands,
and stops only after one pass in which it finds no grant of its client ready.
-/

namespace Allotment

variable {σ : Type} {W : World σ} {c : ClientId}

/-- How far a scan has come. -/
inductive Scan (σ : Type)
  /-- About to look at a position. -/
  | looking (i : Nat) (s : Allocator σ)
  | ended (s : Allocator σ)
  /-- A position at which no grant stands was looked at. -/
  | outside

open Allocator

namespace Scan

/-- One round: a ready grant of the client is delivered and the scan starts again, any other one is
passed over. An allocator that has broken down goes no further. -/
def turn (W : World σ) (c : ClientId) : Scan σ → Scan σ
  | looking i s =>
    if s.isRunning && i < s.pending.length then
      match s.pending[i]? with
      | none => outside
      | some g =>
        if g.client = c then
          match s.isReady W (s.pending.take i) g with
          | (false, t) => looking (i + 1) t
          | (true, t) =>
            match t.pending[i]? with
            | none => outside
            | some g => looking 0 ({ t with pending := t.pending.eraseIdx i }.deliver W g)
        else looking (i + 1) s
    else ended s
  | ended s => ended s
  | outside => outside

theorem turns_ended (k : Nat) (s : Allocator σ) : (turn W c)^[k] (ended s) = ended s :=
  Function.iterate_fixed rfl k

theorem turns_outside (k : Nat) : (turn W c)^[k] (outside : Scan σ) = outside :=
  Function.iterate_fixed rfl k

section
variable {s t : Allocator σ} {before after : List Grant} {g : Grant}

theorem turn_past {i : Nat} (past : s.isRunning = false ∨ s.pending.length ≤ i) :
    turn W c (looking i s) = ended s := by
  have stop : ¬ (s.isRunning && i < s.pending.length) = true := by
    rcases past with broken | past
    · simp [broken]
    · simp [Nat.not_lt.mpr past]
  rw [turn, if_neg stop]

theorem turn_within (running : s.isRunning = true) (split : s.pending = before ++ g :: after) :
    turn W c (looking before.length s) =
      if g.client = c then
        match s.isReady W before g with
        | (false, t) => looking (before.length + 1) t
        | (true, t) => looking 0 ({ t with pending := before ++ after }.deliver W g)
      else looking (before.length + 1) s := by
  have inside : (s.isRunning && before.length < s.pending.length) = true := by
    simp [running, split]
  have here : s.pending[before.length]? = some g := by simp [split]
  have earlier : s.pending.take before.length = before := by simp [split]
  rw [turn, if_pos inside]
  simp only [here, earlier]
  rcases looked : s.isReady W before g with ⟨_ | _, t⟩
  · rfl
  · -- The list is the same after the question, so the grant is still where it was.
    have kept : t.pending = before ++ g :: after := (kept_of_isReady looked).2.trans split
    have still : t.pending[before.length]? = some g := by simp [kept]
    have left : t.pending.eraseIdx before.length = before ++ after := by
      rw [kept, List.eraseIdx_append_of_length_le (Nat.le_refl _), Nat.sub_self,
        List.eraseIdx_cons_zero]
    simp only [still, left]

end

end Scan

namespace Allocator

/-! ### A pass that delivers nothing -/

/-- From `s` to `t` a scan goes past the grants of a list, the first of them after `seen`: those of
its client are looked at in turn and none is ready. -/
inductive PassesOver (W : World σ) (c : ClientId) :
    List Grant → List Grant → Allocator σ → Allocator σ → Prop
  | done (seen : List Grant) (s : Allocator σ) : PassesOver W c seen [] s s
  | other {seen rest : List Grant} {g : Grant} {s t : Allocator σ} (other : g.client ≠ c)
      (next : PassesOver W c (seen ++ [g]) rest s t) : PassesOver W c seen (g :: rest) s t
  | unready {seen rest : List Grant} {g : Grant} {s t u : Allocator σ} (own : g.client = c)
      (unready : s.isReady W seen g = (false, u)) (next : PassesOver W c (seen ++ [g]) rest u t) :
      PassesOver W c seen (g :: rest) s t

variable {s t : Allocator σ} {seen rest before after : List Grant} {g : Grant}

theorem isRunning_of_isReady {ready : Bool} (looked : s.isReady W seen g = (ready, t)) :
    t.isRunning = s.isRunning := by
  rw [isRunning, isRunning, (kept_of_isReady looked).1]

theorem PassesOver.kept (h : PassesOver W c seen rest s t) :
    t.isRunning = s.isRunning ∧ t.pending = s.pending := by
  induction h with
  | done => exact ⟨rfl, rfl⟩
  | other _ _ ih => exact ih
  | unready _ unready _ ih =>
    exact ⟨ih.1.trans (isRunning_of_isReady unready), ih.2.trans (kept_of_isReady unready).2⟩

/-- A look for the first ready grant either passes over all of them, or over those before it. -/
theorem firstReady_passes {found : Option (List Grant × Grant × List Grant)}
    (h : firstReady W c seen rest s = (found, t)) :
    (found = none → PassesOver W c seen rest s t) ∧
      ∀ before g after, found = some (before, g, after) → ∃ passed u, rest = passed ++ g :: after ∧
        before = seen ++ passed ∧ PassesOver W c seen passed s u ∧ g.client = c ∧
        u.isReady W before g = (true, t) := by
  induction rest generalizing seen s with
  | nil =>
    cases h
    exact ⟨fun _ => .done .., fun _ _ _ e => by cases e⟩
  | cons k rest ih =>
    unfold firstReady at h
    split at h
    · rename_i own
      rcases looked : s.isReady W seen k with ⟨ready, u⟩
      simp only [looked] at h
      cases ready with
      | true =>
        cases h
        refine ⟨fun e => (by cases e), fun _ _ _ e => ?_⟩
        cases e
        exact ⟨[], s, rfl, (List.append_nil _).symm, .done seen s, own, looked⟩
      | false =>
        obtain ⟨passes, finds⟩ := ih h
        refine ⟨fun e => .unready own looked (passes e), fun before g after e => ?_⟩
        obtain ⟨passed, v, split, ahead, passes, rest⟩ := finds before g after e
        exact ⟨k :: passed, v, by rw [split]; rfl, by simpa using ahead,
          .unready own looked passes, rest⟩
    · rename_i other
      obtain ⟨passes, finds⟩ := ih h
      refine ⟨fun e => .other other (passes e), fun before g after e => ?_⟩
      obtain ⟨passed, v, split, ahead, passes, rest⟩ := finds before g after e
      exact ⟨k :: passed, v, by rw [split]; rfl, by simpa using ahead, .other other passes, rest⟩

/-- Position by position a pass takes one round for each grant, whatever stands behind them. -/
theorem PassesOver.turns (h : PassesOver W c seen rest s t) (running : s.isRunning = true)
    (after : List Grant) (split : s.pending = seen ++ rest ++ after) :
    (Scan.turn W c)^[rest.length] (.looking seen.length s) =
      .looking (seen ++ rest).length t := by
  induction h with
  | done seen s => simp
  | @other seen rest g s t other next ih =>
    have here : s.pending = seen ++ g :: (rest ++ after) := by simpa using split
    have moved : Scan.turn W c (.looking seen.length s) = .looking (seen ++ [g]).length s := by
      rw [Scan.turn_within running here, if_neg other, List.length_append]
      rfl
    rw [List.length_cons, Function.iterate_succ_apply, moved, ih running (by simpa using split)]
    simp
  | @unready seen rest g s t u own unready next ih =>
    have here : s.pending = seen ++ g :: (rest ++ after) := by simpa using split
    have going : u.isRunning = true := (isRunning_of_isReady unready).trans running
    have pending : u.pending = s.pending := (kept_of_isReady unready).2
    have moved : Scan.turn W c (.looking seen.length s) = .looking (seen ++ [g]).length u := by
      rw [Scan.turn_within running here, if_pos own, unready, List.length_append]
      rfl
    rw [List.length_cons, Function.iterate_succ_apply, moved,
      ih going (by simpa [pending] using split)]
    simp

/-! ### The scan position by position -/

/-- Position by position, the scan reaches what `releaseBlocked` does, after at most as many rounds
for each grant as there are grants, and one more pass. -/
theorem turns_releaseBlocked (W : World σ) (c : ClientId) (s : Allocator σ) :
    let t := s.releaseBlocked W c
    ∃ k ≤ s.pending.length * s.pending.length, ∃ u,
      (Scan.turn W c)^[k] (.looking 0 s) = .looking 0 u ∧
      (Scan.turn W c)^[k + t.pending.length + 1] (.looking 0 s) = .ended t ∧
      (t.isRunning = true → PassesOver W c [] t.pending u t) := by
  fun_induction releaseBlocked W c s with
  | case1 s running t found =>
    have passes := (firstReady_passes found).1 rfl
    obtain ⟨-, kept⟩ := passes.kept
    have passed := passes.turns running [] (by simp)
    refine ⟨0, Nat.zero_le _, s, rfl, ?_, fun _ => kept ▸ passes⟩
    rw [Nat.zero_add, Function.iterate_succ_apply', kept]
    refine (congrArg (Scan.turn W c) passed).trans (Scan.turn_past (.inr ?_))
    rw [kept, List.nil_append]
  | case2 s running before g after t found fewer ih =>
    let v := deliver W g { t with pending := before ++ after }
    obtain ⟨passed, u, split, ahead, passes, own, ready⟩ :=
      (firstReady_passes found).2 before g after rfl
    obtain rfl : before = passed := by simpa using ahead
    obtain ⟨going, kept⟩ := passes.kept
    have reached := passes.turns running (g :: after) split
    have delivered : Scan.turn W c (.looking before.length u) = .looking 0 v := by
      rw [Scan.turn_within (going.trans running) (kept.trans split), if_pos own, ready]
    have restarted : (Scan.turn W c)^[before.length + 1] (.looking 0 s) = .looking 0 v := by
      rw [Function.iterate_succ_apply', ← delivered]
      exact congrArg (Scan.turn W c) reached
    obtain ⟨k, bound, w, pass, ended, last⟩ := ih
    refine ⟨k + (before.length + 1), ?_, w, ?_, ?_, last⟩
    · have inside : before.length + 1 ≤ s.pending.length := by simp [split]
      calc k + (before.length + 1)
          ≤ v.pending.length * v.pending.length + s.pending.length := Nat.add_le_add bound inside
        _ ≤ s.pending.length * v.pending.length + s.pending.length :=
          Nat.add_le_add_right (Nat.mul_le_mul_right _ (Nat.le_of_lt fewer)) _
        _ = s.pending.length * (v.pending.length + 1) := (Nat.mul_succ ..).symm
        _ ≤ s.pending.length * s.pending.length := Nat.mul_le_mul_left _ fewer
    · rw [Function.iterate_add_apply, restarted, pass]
    · have order (l : Nat) : k + (before.length + 1) + l + 1 = k + l + 1 + (before.length + 1) := by
        omega
      rw [order, Function.iterate_add_apply, restarted, ended]
  | case3 s stopped =>
    have ended : Scan.turn W c (.looking 0 s) = .ended s :=
      Scan.turn_past (.inl (by simpa using stopped))
    refine ⟨0, Nat.zero_le _, s, rfl, ?_, fun running => absurd running stopped⟩
    rw [Function.iterate_succ_apply, ended, Scan.turns_ended]

/-! ### What is delivered on the way -/

theorem uncalled_record (W : World σ) (d : Decision) (c : ClientId) (rs : ResourceSet)
    (detail : Option String) (s : Allocator σ) : Uncalled s (s.record W d c rs detail) :=
  (effect_record W d c rs detail s).uncalled rfl

theorem uncalled_refuseGrant (W : World σ) (g : Grant) (s : Allocator σ) :
    Uncalled s (s.refuseGrant W g) := by
  let freed := s.table.heldOf g.client g.expanded
  have stripped : Plainly (s.count .addRefusal)
      ((((s.count .addRefusal).take g.client g.expanded .refused).2.cancelOrphaned
        g.client).announceFreed W g.client freed) :=
    ((plainly_take ..).trans (plainly_cancelOrphaned ..)).trans (plainly_announceFreed ..)
  have ruled := stripped.uncalled.trans (uncalled_record W .refuse g.client g.requested
    (some (refusalDetail freed)) _)
  unfold refuseGrant
  dsimp only
  split
  · exact ruled
  · exact ruled.trans (plainly_followUp _ _).uncalled

/-- A delivery calls one client, for the grant that is delivered. -/
theorem calls_deliver (W : World σ) (g : Grant) (s : Allocator σ) :
    ∃ es reply, (s.deliver W g).setting.journal = es ++ s.setting.journal ∧
      Journal.calls es = [(g, reply)] := by
  obtain ⟨es, entered, books⟩ := books_call W g s
  have journal : (s.call W g).2.setting.journal =
      es ++ .called g (s.call W g).1 :: s.setting.journal :=
    (congrArg Books.journal books).trans (List.append_assoc ..)
  have silent : Journal.calls es = [] := Journal.calls_quiet fun e he =>
    Event.quiet_of_background (Event.background_of_entered (entered e he))
  have after (u : Allocator σ) (h : Uncalled (s.call W g).2 u) :
      ∃ es reply, u.setting.journal = es ++ s.setting.journal ∧
        Journal.calls es = [(g, reply)] := by
    obtain ⟨fs, further, nobody⟩ := h
    refine ⟨fs ++ es ++ [.called g (s.call W g).1], (s.call W g).1, ?_, ?_⟩
    · rw [further, journal]
      simp
    · rw [Journal.calls_append, Journal.calls_append, nobody, silent]
      rfl
  unfold deliver
  split <;> rename_i u answer <;> rw [answer] at after
  · exact after _ (uncalled_record W .grant g.client g.requested none (u.count .addGrant))
  · exact after _ (uncalled_refuseGrant W g u)
  · exact after _ (uncalled_refuseGrant W g u)

/-- Grants are taken from the tentative ones: clients are called for some of them, for none more
often than it is there, and those that remain are others and in their order. -/
structure Draws (s t : Allocator σ) : Prop where
  once : ∃ es, t.setting.journal = es ++ s.setting.journal ∧
    (t.pending ++ (Journal.calls es).map Prod.fst).Subperm s.pending
  order : t.pending.Sublist s.pending

theorem draws_of_uncalled (uncalled : Uncalled s t) (kept : t.pending = s.pending) :
    Draws s t := by
  obtain ⟨es, journal, nobody⟩ := uncalled
  refine ⟨⟨es, journal, ?_⟩, kept ▸ .refl _⟩
  rw [nobody, kept, List.map_nil, List.append_nil]

theorem Draws.trans {u : Allocator σ} (h : Draws s t) (k : Draws t u) : Draws s u := by
  obtain ⟨⟨es, journal, once⟩, order⟩ := h
  obtain ⟨⟨fs, further, again⟩, follows⟩ := k
  refine ⟨⟨fs ++ es, by rw [further, journal, List.append_assoc], ?_⟩, follows.trans order⟩
  rw [Journal.calls_append, List.map_append, ← List.append_assoc]
  exact ((List.subperm_append_right _).mpr again).trans once

theorem draws_deliver (W : World σ) (g : Grant) (split : s.pending = before ++ g :: after) :
    Draws s ({ s with pending := before ++ after }.deliver W g) := by
  obtain ⟨es, reply, journal, called⟩ := calls_deliver W g { s with pending := before ++ after }
  obtain ⟨p, left, -⟩ := pending_deliver W g { s with pending := before ++ after }
  have fewer : (deliver W g { s with pending := before ++ after }).pending.Sublist
      (before ++ after) := left ▸ List.filter_sublist
  refine ⟨⟨es, journal, ?_⟩, split ▸ fewer.trans ?_⟩
  · rw [called, split]
    exact (fewer.subperm.append (.refl [g])).trans
      (List.perm_append_singleton g (before ++ after) |>.trans List.perm_middle.symm).subperm
  · exact (List.sublist_cons_self g after).append_left before

theorem Delivery.draws (h : Delivery W s t) : Draws s t := by
  have looked (before : List Grant) (g : Grant) : Draws s (s.isReady W before g).2 :=
    draws_of_uncalled (plainly_isReady W before g s).uncalled (pending_isReady W before g s)
  cases h with
  | wait before g after t running split unready =>
    have asked := looked before g
    rwa [unready] at asked
  | deliver before g after t running split ready =>
    have asked := looked before g
    rw [ready] at asked
    exact asked.trans (draws_deliver W g ((kept_of_isReady ready).2.trans split))

theorem Deliveries.draws (h : Deliveries W s t) : Draws s t := by
  induction h with
  | refl => exact draws_of_uncalled ⟨[], rfl, rfl⟩ rfl
  | tail _ delivery ih => exact ih.trans delivery.draws

/-- The scan ends and misses nothing, whatever the state and whatever advisors and clients answer.
It ends after finitely many rounds and never looks where no grant stands. No client is called
more than once for a grant, those that remain keep their order, and before it ends it passes over
all of them, finding none of its client ready and delivering nothing. -/
theorem scan_ends_and_misses_nothing (W : World σ) (c : ClientId) (s : Allocator σ) :
    let t := s.releaseBlocked W c
    let turns := fun k => (Scan.turn W c)^[k] (.looking 0 s)
    (∀ k, s.pending.length * s.pending.length + s.pending.length + 1 ≤ k → turns k = .ended t) ∧
    (∀ k, turns k ≠ .outside) ∧
    (∃ es, t.setting.journal = es ++ s.setting.journal ∧
      (t.pending ++ (Journal.calls es).map Prod.fst).Subperm s.pending) ∧
    t.pending.Sublist s.pending ∧
    (t.isRunning = true → ∃ k u, turns k = .looking 0 u ∧
      turns (k + t.pending.length) = .looking t.pending.length t ∧
      PassesOver W c [] t.pending u t) := by
  intro t turns
  obtain ⟨once, order⟩ := (releaseBlocked_deliveries W c s).draws
  obtain ⟨k, bound, u, pass, ended, last⟩ := turns_releaseBlocked W c s
  have fewer : t.pending.length ≤ s.pending.length := order.length_le
  have finished (n : Nat) (late : k + t.pending.length + 1 ≤ n) : turns n = .ended t := by
    obtain ⟨more, rfl⟩ := Nat.exists_eq_add_of_le' late
    exact (Function.iterate_add_apply ..).trans ((congrArg _ ended).trans (Scan.turns_ended more t))
  refine ⟨fun n late => finished n (by omega), fun n astray => ?_, once, order, fun running => ?_⟩
  · -- A scan that has gone astray stays so, but every scan ends some time.
    have later : turns (k + t.pending.length + 1 + n) = .outside :=
      (Function.iterate_add_apply ..).trans ((congrArg _ astray).trans (Scan.turns_outside _))
    cases later.symm.trans (finished _ (Nat.le_add_right _ n))
  · have passes := last running
    obtain ⟨going, kept⟩ := passes.kept
    have passed := passes.turns (going ▸ running) [] (by simp [← kept])
    refine ⟨k, u, pass, ?_, passes⟩
    rw [Nat.add_comm]
    exact (Function.iterate_add_apply ..).trans ((congrArg _ pass).trans passed)

end Allocator

end Allotment
