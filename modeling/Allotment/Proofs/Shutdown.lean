import Allotment.Proofs.Conservation
import Allotment.Proofs.Quiescence
import Allotment.Scheduler

/-!
# A shutdown is final

The queue of an allocator is closed when the allocator stops, and only then (`Act.closed`). From
then on nothing comes in and nothing is done (`still_run`): what the shutdown discards is never
heard of again.
-/

namespace Allotment

variable {σ : Type} {W : World σ}

namespace Setting

variable {x : Setting σ}

theorem submitAll_of_closed (closed : x.queue.closed = true) (ss : List Submission) :
    x.submitAll ss = x := by
  induction ss with
  | nil => rfl
  | cons s ss ih =>
    have same : x.submit s = x := if_pos closed
    rwa [submitAll, List.foldl_cons, same]

/-- While the queue is closed nothing but the polls themselves is written down. -/
theorem poll_of_closed (closed : x.queue.closed = true) (number : Nat) (g : Gates) (i : Nat)
    (o : Option GateOutcome) :
    (Advisor.poll number g i o x).2.2.queue = x.queue ∧
      Grows (fun e => e.isPoll = true) x (Advisor.poll number g i o x).2.2 := by
  obtain ⟨y, queue, -, grows, same⟩ := poll_cases number g i o x
  rw [same]
  dsimp only
  rw [submitAll_of_closed (queue ▸ closed)]
  exact ⟨queue, grows⟩

theorem pollGates_of_closed (closed : x.queue.closed = true) (number i : Nat)
    (o : Option GateOutcome) (as : List Advisor) :
    (Allocator.pollGates number i o as x).2.2.queue = x.queue ∧
      Grows (fun e => e.isPoll = true) x (Allocator.pollGates number i o as x).2.2 := by
  obtain same | ⟨n, g, same⟩ := pollGates_cases number i o as x <;> rw [same]
  · exact ⟨rfl, grows_refl x⟩
  · exact poll_of_closed closed n g i o

end Setting

namespace Docket

variable {d e : Docket} {q : Queued} {rest : Queue}

/-- The queue is closed by a stop and by nothing else. -/
theorem Act.closed (act : Act W d e) (h : d.queue.closed = true ↔ d.phase = .terminated) :
    e.queue.closed = true ↔ e.phase = .terminated := by
  cases act with
  | crash running =>
    rw [running] at h
    simpa using h
  | retry q hand command running =>
    have same : d.restore.queue.closed = d.queue.closed := by
      unfold restore Queue.requeue
      split <;> rfl
    rw [same]
    exact h
  | stop => exact iff_of_true rfl rfl
  | remark | enter | lock | defer | withdraw | report | dismiss | call | strip | notify | forgo =>
    exact h

theorem Conserved.undelivered (h : d.Conserved) (regular : d.Regular) (idle : d.hand = none)
    {r : Request} (discarded : r ∈ d.journal.settled .discarded) :
    r ∉ d.journal.settled .delivered := by
  intro delivered
  have total := h.count idle r
  have once := List.nodup_iff_count_le_one.mp regular.nodup_entered r.queued
  have one := List.count_pos_iff.mpr discarded
  have other := List.count_pos_iff.mpr delivered
  simp only [requestsAt] at total
  omega

end Docket

namespace Allocator

open Docket

variable {s t u : Allocator σ}

theorem run_closed (W : World σ) (advisors : List Advisor) (sink : AuditSink) (w : σ)
    (hs : List (Happening σ)) :
    let s := (initial advisors sink w).run W hs
    s.setting.queue.closed = true ↔ s.phase = .terminated :=
  run_invariant (P := fun d => d.queue.closed = true ↔ d.phase = .terminated) Act.closed
    (fun {d q rest} next _ => by
      have opened : rest.closed = false := (Queue.waiting_of_take? next.next).2.2.2
      have running : (d.take q rest).phase = .running := next.running
      show rest.closed = true ↔ (d.take q rest).phase = .terminated
      simp [opened, running]) _ hs (by simp [initial, docket, books, Queue.empty])

/-- An allocator whose sink has not broken it runs as long as its queue is open. -/
theorem run_running (W : World σ) (advisors : List Advisor) (sink : AuditSink) (w : σ)
    (hs : List (Happening σ)) :
    let s := (initial advisors sink w).run W hs
    (s.phase = .running ↔ s.setting.queue.closed = false) ∨
      s.phase = .crashed ∧ ∃ e w, (W.audit e w).1 = false := by
  intro s
  have closed : s.setting.queue.closed = true ↔ s.phase = .terminated :=
    run_closed W advisors sink w hs
  by_cases survives : ∀ e w, (W.audit e w).1 = true
  · have whole : s.phase ≠ .crashed := moves_invariant (P := fun s => s.phase ≠ .crashed)
      (fun move => move.unbroken survives) (run_moves W _ hs) (by simp [initial])
    left
    cases phase : s.phase with
    | crashed => exact absurd phase whole
    | running | terminated => simp_all
  · cases phase : s.phase with
    | crashed => exact .inr ⟨rfl, by simpa using survives⟩
    | running | terminated =>
      left
      simp_all

/-- Nothing has happened but that tasks have asked their gates. -/
structure Still (s t : Allocator σ) : Prop where
  table : t.table = s.table
  deferred : t.deferred = s.deferred
  pending : t.pending = s.pending
  counters : t.counters = s.counters
  phase : t.phase = s.phase
  sink : t.sink = s.sink
  queue : t.setting.queue = s.setting.queue
  polls : s.setting.Grows (fun e => e.isPoll = true) t.setting

theorem Still.refl (s : Allocator σ) : Still s s :=
  ⟨rfl, rfl, rfl, rfl, rfl, rfl, rfl, Setting.grows_refl _⟩

theorem Still.trans (h : Still s t) (k : Still t u) : Still s u where
  table := k.table.trans h.table
  deferred := k.deferred.trans h.deferred
  pending := k.pending.trans h.pending
  counters := k.counters.trans h.counters
  phase := k.phase.trans h.phase
  sink := k.sink.trans h.sink
  queue := k.queue.trans h.queue
  polls := h.polls.trans k.polls

theorem submit_of_closed (closed : s.setting.queue.closed = true) (x : Submission) :
    s.submit x = s := by
  unfold submit Setting.submit
  rw [if_pos closed]

theorem host_of_closed {host : Scheduler σ} (closed : host.allocator.setting.queue.closed = true)
    (x : Submission) : host.submit x = (.error .terminated, host) := by
  unfold Scheduler.submit Scheduler.isClosed
  rw [if_pos closed, submit_of_closed closed]

theorem still_apply (W : World σ) (stopped : s.phase = .terminated)
    (closed : s.setting.queue.closed = true) (h : Happening σ) : Still s (s.apply W h) := by
  cases h with
  | submit x =>
    rw [show s.apply W (.submit x) = s from submit_of_closed closed x]
    exact .refl s
  | step =>
    have same : s.step W = s := if_neg (by simp [isRunning, stopped])
    rw [show s.apply W .step = s from same]
    exact .refl s
  | poll number task o =>
    obtain ⟨queue, polls⟩ := Setting.pollGates_of_closed closed number task o s.advisors
    exact ⟨rfl, rfl, rfl, rfl, rfl, rfl, queue, polls⟩
  | shift w => exact ⟨rfl, rfl, rfl, rfl, rfl, rfl, rfl, Setting.grows_of_journal rfl⟩

theorem still_run (W : World σ) (stopped : s.phase = .terminated)
    (closed : s.setting.queue.closed = true) (hs : List (Happening σ)) : Still s (s.run W hs) := by
  induction hs generalizing s with
  | nil => exact .refl s
  | cons h hs ih =>
    have first := still_apply W stopped closed h
    exact first.trans (ih (first.phase.trans stopped) (first.queue ▸ closed))

theorem step_shutdown {q : Queued} {rest : Queue} (running : s.phase = .running)
    (next : s.setting.queue.take? = some (q, rest)) (command : q.command = .shutdown) :
    s.step W = (s.accept q rest).terminate := by
  unfold step
  rw [if_pos (isRunning_iff.mpr running), next]
  simp only [process, command]

/-- What a shutdown that is served in `s` leaves, `rest` being what waits behind it. -/
structure ShutDown (s : Allocator σ) (q : Queued) (rest : Queue) (t : Allocator σ) : Prop where
  terminated : t.phase = .terminated
  closed : t.setting.queue.closed = true
  emptied : t.setting.queue.waiting = [] ∧ t.deferred = [] ∧ t.pending = []
  table : t.table = s.table
  counters : t.counters = s.counters.addProcessed
  sink : t.sink = s.sink
  refuses : ∀ x, t.submit x = t ∧ t.setting.queue.push x.command x.priority = .error .terminated ∧
    ∀ host : Scheduler σ, host.allocator = t → host.submit x = (.error .terminated, host)
  journal : ∃ polls : List Event, (∀ e ∈ polls, e.isPoll = true) ∧ t.setting.journal =
    polls ++ .stopped rest.waiting s.deferred s.pending :: .took q :: s.setting.journal
  uncalled : ∀ g reply, .called g reply ∈ t.setting.journal →
    g.request.queued ∉ rest.waiting ∧ g.request ∉ s.deferred ∧ g ∉ s.pending

/-- What a stop discards has not been called back, and never is. -/
theorem run_uncalled (W : World σ) (advisors : List Advisor) (sink : AuditSink) (w : σ)
    (hs : List (Happening σ)) {waiting : List Queued} {deferred : List Request}
    {pending : List Grant} {g : Grant} {reply : Reply} :
    let j := ((initial advisors sink w).run W hs).setting.journal
    .stopped waiting deferred pending ∈ j → .called g reply ∈ j →
      g.request.queued ∉ waiting ∧ g.request ∉ deferred ∧ g ∉ pending := by
  intro j stop called
  obtain ⟨sound, conserved⟩ := run_holds (P := Docket.Conserved)
    (fun act sound h => h.act act sound) (fun next _ h => h.take next) advisors sink w hs
    fun _ => rfl
  have delivered : g.request ∈ Journal.settled .delivered j :=
    List.mem_flatMap.mpr ⟨_, called, List.mem_singleton.mpr rfl⟩
  have undiscarded : g.request ∉ Journal.settled .discarded j :=
    fun discarded => conserved.undelivered sound.regular rfl discarded delivered
  have kept : g.request ∉ requests waiting ++ deferred ++ pending.map (·.request) :=
    fun among => undiscarded (List.mem_flatMap.mpr ⟨_, stop, among⟩)
  simp only [List.mem_append, not_or] at kept
  obtain ⟨⟨unqueued, undeferred⟩, untentative⟩ := kept
  refine ⟨fun waits => unqueued ?_, undeferred, fun waits => ?_⟩
  · exact List.mem_filterMap.mpr ⟨_, waits, rfl⟩
  · exact untentative (List.mem_map_of_mem waits)

/-- The queue of an allocator is closed just if the allocator has stopped, and open just if it is
running, unless its sink broke it. A shutdown that is served empties the queue and drops what is
deferred and tentative. From then on everything submitted is turned away, and nothing is called,
asked, recorded, counted or moved any more: the journal has no entry but those of tasks that ask
their gates. No request that was discarded is ever called back. -/
theorem shutdown_is_final (W : World σ) (advisors : List Advisor) (sink : AuditSink) (w : σ)
    (hs : List (Happening σ)) :
    let state := fun ks => (initial advisors sink w).run W ks
    ((state hs).setting.queue.closed = true ↔ (state hs).phase = .terminated) ∧
    (((state hs).phase = .running ↔ (state hs).setting.queue.closed = false) ∨
      (state hs).phase = .crashed ∧ ∃ e w, (W.audit e w).1 = false) ∧
    ∀ ks ls q rest, hs = ks ++ .step :: ls → (state ks).phase = .running →
      (state ks).setting.queue.take? = some (q, rest) → q.command = .shutdown →
      ShutDown (state ks) q rest (state hs) := by
  intro state
  refine ⟨run_closed W advisors sink w hs, run_running W advisors sink w hs,
    fun ks ls q rest split running next command => ?_⟩
  have stopped : (state (ks ++ [.step])) = ((state ks).accept q rest).terminate := by
    show run W _ _ = _
    rw [run_append]
    exact step_shutdown running next command
  have still : Still ((state ks).accept q rest).terminate (state hs) := by
    have later : state hs = (state (ks ++ [.step])).run W ls := by
      show run W _ hs = run W (run W _ _) ls
      rw [split, ← run_append, List.append_assoc]
      rfl
    rw [later, stopped]
    exact still_run W rfl rfl ls
  have closed : (state hs).setting.queue.closed = true := still.queue ▸ rfl
  obtain ⟨polls, kind, journal⟩ := still.polls
  refine ⟨still.phase, closed, ⟨?_, still.deferred, still.pending⟩, still.table, still.counters,
    still.sink, fun x => ⟨submit_of_closed closed x, if_pos closed, fun host same => ?_⟩,
    ⟨polls, kind, journal⟩, fun g reply called => ?_⟩
  · rw [still.queue]
    rfl
  · exact host_of_closed (same ▸ closed) x
  · refine run_uncalled W advisors sink w hs ?_ called
    rw [show ((initial advisors sink w).run W hs).setting.journal = _ from journal]
    exact List.mem_append_right _ List.mem_cons_self

/-- One request is granted, one is deferred and one is still queued when a shutdown overtakes it;
a later one is turned away. -/
example :
    let s := (initial [] .nowhere 0).run (.steady .yes)
      [asking "x" ["a"], .step, asking "y" ["a"], .step, asking "z" ["b"],
        .submit ⟨.shutdown, .high⟩, .step, asking "u" ["c"], .step]
    s.phase = .terminated ∧ s.setting.queue.closed = true ∧
      (s.requestsAt .delivered).map (·.seq) = [0] ∧
      (s.requestsAt .discarded).map (·.seq) = [2, 1] := by
  decide +kernel

end Allocator

end Allotment
