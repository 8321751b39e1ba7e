import Allotment.Proofs.Operations

/-!
# Moves of an allocator

Serving a command is a chain of moves, each of which is made as a whole: between two of them the
allocator's promises hold. `run_moves` says that a history consists of moves, so what every move
preserves holds of every history (`moves_invariant`).
-/

namespace Allotment.Allocator

variable {σ : Type}

inductive Move (W : World σ) (s : Allocator σ) : Allocator σ → Prop
  -- What happens outside.
  | submit (x : Submission) : Move W s (s.submit x)
  | poll (number task : Nat) (o : Option GateOutcome) : Move W s (s.poll number task o).2
  | shift (w : σ) : Move W s { s with setting := { s.setting with world := w } }
  -- Taking a command from the queue; a release of resources is one move with it.
  | serve (q : Queued) (rest : Queue) (running : s.phase = .running)
      (next : s.setting.queue.take? = some (q, rest)) (plain : q.command.isFree = false)
      (silent : ∀ c rs, q.command ≠ .released c rs) : Move W s (s.accept q rest)
  | release (q : Queued) (rest : Queue) (c : ClientId) (rs : ResourceSet)
      (running : s.phase = .running) (next : s.setting.queue.take? = some (q, rest))
      (command : q.command = .released c rs) : Move W s ((s.accept q rest).announce W c rs)
  | free (q : Queued) (rest : Queue) (c : ClientId) (rs : ResourceSet)
      (running : s.phase = .running) (next : s.setting.queue.take? = some (q, rest))
      (command : q.command = .free c rs ∨
        q.command = .freeAll c ∧ rs = s.table.allocationsOf c) :
      Move W s (((s.accept q rest).take c rs .asked).2.cancelOrphaned c)
  | tell (c : ClientId) (freed : ResourceSet) (running : s.phase = .running) :
      Move W s (((s.count .addFree).record W .free c freed none).followUp
        [.released c freed, .retryDeferred])
  -- Allocating.
  | lock (g : Grant) (t : Allocator σ) (running : s.phase = .running)
      (obtained : s.tryAllocate W g.client g.requested = (some (g.expanded, g.claimed), t)) :
      Move W s ({ t with pending := t.pending ++ [g] }.note (.locked g))
  | defer (r : Request) (t : Allocator σ) (running : s.phase = .running)
      (failed : s.tryAllocate W r.client.id r.resources = (none, t)) : Move W s (t.defer W r)
  | wait (before : List Grant) (g : Grant) (after : List Grant) (t : Allocator σ)
      (running : s.phase = .running) (split : s.pending = before ++ g :: after)
      (unready : s.isReady W before g = (false, t)) : Move W s t
  | deliver (before : List Grant) (g : Grant) (after : List Grant) (t : Allocator σ)
      (running : s.phase = .running) (split : s.pending = before ++ g :: after)
      (ready : s.isReady W before g = (true, t)) :
      Move W s ({ t with pending := before ++ after }.deliver W g)
  -- The rest.
  | retry (running : s.phase = .running) : Move W s s.retryDeferred
  | withdraw (c : ClientId) (running : s.phase = .running) : Move W s (s.withdraw W c)
  | report (seq : Nat) (running : s.phase = .running) :
      Move W s (s.note (.reported seq s.snapshot))
  | stop (running : s.phase = .running) : Move W s s.terminate

abbrev Moves (W : World σ) : Allocator σ → Allocator σ → Prop := Relation.ReflTransGen (Move W)

theorem isRunning_iff {s : Allocator σ} : s.isRunning = true ↔ s.phase = .running := by
  simp [isRunning]

theorem phase_isReady (W : World σ) (earlier : List Grant) (g : Grant) (s : Allocator σ) :
    (s.isReady W earlier g).2.phase = s.phase := by
  unfold isReady
  split
  · rfl
  · split <;> rfl

theorem kept_of_isReady {W : World σ} {earlier : List Grant} {g : Grant} {s t : Allocator σ}
    {ready : Bool} (looked : s.isReady W earlier g = (ready, t)) :
    t.phase = s.phase ∧ t.pending = s.pending := by
  rw [← phase_isReady W earlier g s, ← pending_isReady W earlier g s, looked]
  exact ⟨rfl, rfl⟩

theorem phase_tryAllocate (W : World σ) (c : ClientId) (rs : ResourceSet) (s : Allocator σ) :
    (s.tryAllocate W c rs).2.phase = s.phase := by
  rcases h : s.tryAllocate W c rs with ⟨_ | ⟨expanded, claimed⟩, t⟩
  · exact (tryAllocate_none h).quietly.phase
  · obtain ⟨u, table, asks, rfl, -⟩ := tryAllocate_some h
    exact asks.quietly.phase

/-! ### Commands consist of moves -/

variable {W : World σ}

/-- Looking at a tentative grant, and delivering it if it is ready. -/
inductive Delivery (W : World σ) (s : Allocator σ) : Allocator σ → Prop
  | wait (before : List Grant) (g : Grant) (after : List Grant) (t : Allocator σ)
      (running : s.phase = .running) (split : s.pending = before ++ g :: after)
      (unready : s.isReady W before g = (false, t)) : Delivery W s t
  | deliver (before : List Grant) (g : Grant) (after : List Grant) (t : Allocator σ)
      (running : s.phase = .running) (split : s.pending = before ++ g :: after)
      (ready : s.isReady W before g = (true, t)) :
      Delivery W s ({ t with pending := before ++ after }.deliver W g)

abbrev Deliveries (W : World σ) : Allocator σ → Allocator σ → Prop :=
  Relation.ReflTransGen (Delivery W)

theorem Delivery.move {s t : Allocator σ} (h : Delivery W s t) : Move W s t := by
  cases h with
  | wait before g after t running split unready =>
    exact .wait before g after t running split unready
  | deliver before g after t running split ready =>
    exact .deliver before g after t running split ready

theorem Deliveries.moves {s t : Allocator σ} (h : Deliveries W s t) : Moves W s t := by
  induction h with
  | refl => exact .refl
  | tail _ delivery ih => exact ih.tail delivery.move

theorem firstReady_deliveries {c : ClientId} {seen rest : List Grant} {s t : Allocator σ}
    {found : Option (List Grant × Grant × List Grant)} (running : s.phase = .running)
    (split : s.pending = seen ++ rest) (h : firstReady W c seen rest s = (found, t)) :
    (found = none → Deliveries W s t) ∧
      ∀ before g after, found = some (before, g, after) → ∃ u, Deliveries W s u ∧
        u.phase = .running ∧ u.pending = before ++ g :: after ∧
        u.isReady W before g = (true, t) := by
  induction rest generalizing seen s with
  | nil =>
    cases h
    exact ⟨fun _ => .refl, fun _ _ _ e => by cases e⟩
  | cons g rest ih =>
    have next : s.pending = (seen ++ [g]) ++ rest := by simpa using split
    unfold firstReady at h
    split at h
    · rcases hu : s.isReady W seen g with ⟨ready, u⟩
      obtain ⟨phase, pending⟩ := kept_of_isReady hu
      simp only [hu] at h
      cases ready with
      | true =>
        cases h
        refine ⟨fun e => (by cases e), fun _ _ _ e => ?_⟩
        cases e
        exact ⟨s, .refl, running, split, hu⟩
      | false =>
        have wait : Delivery W s u := .wait seen g rest u running split hu
        obtain ⟨waits, finds⟩ := ih (phase.trans running) (pending.trans next) h
        refine ⟨fun e => .head wait (waits e), fun before k after e => ?_⟩
        obtain ⟨v, looked, ready⟩ := finds before k after e
        exact ⟨v, .head wait looked, ready⟩
    · exact ih running next h

theorem releaseBlocked_deliveries (W : World σ) (c : ClientId) (s : Allocator σ) :
    Deliveries W s (s.releaseBlocked W c) := by
  fun_induction releaseBlocked W c s with
  | case1 s running t h =>
    exact (firstReady_deliveries (by simpa [isRunning] using running) rfl h).1 rfl
  | case2 s running before g after t h _ ih =>
    obtain ⟨u, looked, going, split, ready⟩ :=
      (firstReady_deliveries (by simpa [isRunning] using running) rfl h).2 before g after rfl
    exact (looked.tail (.deliver before g after t going split ready)).trans ih
  | case3 s => exact .refl

theorem completeIfPrepared_deliveries (W : World σ) (i : Nat) {s : Allocator σ}
    (running : s.phase = .running) : Deliveries W s (s.completeIfPrepared W i) := by
  unfold completeIfPrepared
  split
  · exact .refl
  · rename_i g hg
    obtain ⟨hi, rfl⟩ := List.getElem?_eq_some_iff.mp hg
    have split : s.pending = s.pending.take i ++ s.pending[i] :: s.pending.drop (i + 1) := by
      simp
    rcases h : s.isReady W (s.pending.take i) s.pending[i] with ⟨ready, t⟩
    obtain ⟨-, pending⟩ := kept_of_isReady h
    cases ready with
    | false => exact .single (.wait _ _ _ t running split h)
    | true =>
      have deliver := Delivery.deliver _ _ _ t running split h
      rw [← List.eraseIdx_eq_take_drop_succ] at deliver
      dsimp only
      rw [pending]
      exact .head deliver (releaseBlocked_deliveries W _ _)

theorem checkPrepared_deliveries (W : World σ) (c : ClientId) (rs : ResourceSet) {s : Allocator σ}
    (running : s.phase = .running) : Deliveries W s (s.checkPrepared W c rs) := by
  unfold checkPrepared
  split
  · exact .refl
  · exact completeIfPrepared_deliveries W _ running

theorem allocate_moves (W : World σ) (r : Request) {s : Allocator σ}
    (running : s.phase = .running) : Moves W s (s.allocate W r) := by
  unfold allocate
  have phase := phase_tryAllocate W r.client.id r.resources s
  rcases h : s.tryAllocate W r.client.id r.resources with ⟨_ | ⟨expanded, claimed⟩, t⟩
  · exact .single (.defer r t running h)
  · rw [h] at phase
    refine .head (.lock ⟨r, expanded, claimed⟩ t running h) (Deliveries.moves ?_)
    exact completeIfPrepared_deliveries W _ (phase.trans running)

/-- What is freed is told, unless it is nothing or the allocator has stopped over it. -/
theorem afterFree_cases (W : World σ) (c : ClientId) (freed : ResourceSet) (s : Allocator σ) :
    let released := (s.cancelOrphaned c).releaseBlocked W c
    ((freed.isEmpty = true ∨ released.phase ≠ .running) ∧ s.afterFree W c freed = released) ∨
    (freed.isEmpty = false ∧ released.phase = .running ∧
      s.afterFree W c freed = ((released.count .addFree).record W .free c freed none).followUp
        [.released c freed, .retryDeferred]) := by
  unfold afterFree
  dsimp only
  split
  · rename_i moot
    refine .inl ⟨((Bool.or_eq_true _ _).mp moot).imp_right fun stopped running => ?_, rfl⟩
    rw [isRunning_iff.mpr running] at stopped
    cases stopped
  · rename_i going
    simp only [Bool.or_eq_true, not_or, Bool.not_eq_true', Bool.not_eq_false,
      Bool.not_eq_true] at going
    exact .inr ⟨going.1, isRunning_iff.mp going.2, rfl⟩

theorem afterFree_moves (W : World σ) (c : ClientId) (freed : ResourceSet) (s : Allocator σ) :
    Moves W (s.cancelOrphaned c) (s.afterFree W c freed) := by
  have release := (releaseBlocked_deliveries W c (s.cancelOrphaned c)).moves
  obtain ⟨-, quiet⟩ | ⟨-, going, told⟩ := afterFree_cases W c freed s
  · rw [quiet]
    exact release
  · rw [told]
    exact release.tail (.tell c freed going)

theorem process_moves (W : World σ) {q : Queued} {rest : Queue} {s : Allocator σ}
    (running : s.phase = .running) (next : s.setting.queue.take? = some (q, rest)) :
    Moves W s ((s.accept q rest).process W q) := by
  have serve (plain : q.command.isFree = false) (silent : ∀ c rs, q.command ≠ .released c rs) :=
    Move.serve (W := W) q rest running next plain silent
  have going : (s.accept q rest).phase = .running := running
  unfold process
  cases hq : q.command with
  | allocate c rs =>
    rw [hq] at serve
    exact .head (serve rfl (by simp)) (allocate_moves W _ going)
  | released c rs => exact .single (.release q rest c rs running next hq)
  | checkPrepared c rs =>
    rw [hq] at serve
    exact .head (serve rfl (by simp)) (checkPrepared_deliveries W c rs going).moves
  | retryDeferred =>
    rw [hq] at serve
    exact .head (serve rfl (by simp)) (.single (.retry going))
  | free c rs =>
    refine .head (.free q rest c rs running next (.inl hq)) ?_
    exact afterFree_moves W c _ _
  | freeAll c =>
    refine .head (.free q rest c _ running next (.inr ⟨hq, rfl⟩)) ?_
    exact afterFree_moves W c _ _
  | withdraw c =>
    rw [hq] at serve
    exact .head (serve rfl (by simp)) (.single (.withdraw c going))
  | snapshot =>
    rw [hq] at serve
    exact .head (serve rfl (by simp)) (.single (.report q.seq going))
  | shutdown =>
    rw [hq] at serve
    exact .head (serve rfl (by simp)) (.single (.stop going))

theorem step_moves (W : World σ) (s : Allocator σ) : Moves W s (s.step W) := by
  unfold step
  split
  · rename_i running
    split
    · exact .refl
    · rename_i q rest next
      exact process_moves W (by simpa [isRunning] using running) next
  · exact .refl

theorem run_moves (W : World σ) (s : Allocator σ) (hs : List (Happening σ)) :
    Moves W s (s.run W hs) := by
  induction hs generalizing s with
  | nil => exact .refl
  | cons h hs ih =>
    have first : Moves W s (s.apply W h) := by
      cases h with
      | submit x => exact .single (.submit x)
      | step => exact step_moves W s
      | poll number task o => exact .single (.poll number task o)
      | shift w => exact .single (.shift w)
    exact first.trans (ih _)

theorem moves_invariant {P : Allocator σ → Prop} (step : ∀ {s t}, Move W s t → P s → P t)
    {s t : Allocator σ} (h : Moves W s t) (hs : P s) : P t := by
  induction h with
  | refl => exact hs
  | tail _ move ih => exact step move ih

/-! ### What moves write in the books -/

theorem Move.turns {s t : Allocator σ} (h : Move W s t) : Books.Turns s.books t.books := by
  cases h with
  | submit x => exact (writes_submit x s).turns
  | poll number task o => exact (writes_poll number task o s).turns
  | shift w => exact .refl
  | serve q rest running next plain =>
    exact Books.turns_quiet [.took q] (by simp [Event.isQuiet, plain])
  | release q rest c rs running next command =>
    have took : Books.Turns s.books (s.accept q rest).books :=
      Books.turns_quiet [.took q] (by simp [Event.isQuiet, command, Command.isFree])
    exact took.trans (writes_announce W c rs _).turns
  | free q rest c rs running next command =>
    rw [books_strip]
    exact .single (.free q c rs running command)
  | tell c freed running =>
    exact (turns_record W _ _ _ _ (s.count .addFree)).trans (writes_followUp _ _).turns
  | lock g t running obtained => exact turns_locked running obtained
  | defer r t running failed => exact turns_defer running failed
  | wait before g after t running split unready => exact (isReady_false unready).turns
  | deliver before g after t running split ready => exact turns_deliver running split ready
  | retry running => exact turns_retryDeferred running
  | withdraw c running => exact turns_withdraw c running
  | report seq running =>
    exact Books.turns_quiet [.reported seq s.snapshot] (by simp [Event.isQuiet])
  | stop running => exact .single (.stop s.setting.queue.waiting running)

theorem Moves.turns {s t : Allocator σ} (h : Moves W s t) : Books.Turns s.books t.books := by
  induction h with
  | refl => exact .refl
  | tail _ move ih => exact ih.trans move.turns

end Allotment.Allocator
