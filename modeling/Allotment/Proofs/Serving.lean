import Allotment.Proofs.Docket
import Allotment.Proofs.Moves

/-!
# Serving a command, act by act

Whatever an allocator does is a chain of acts on its docket, and after a step nothing is in hand and
no retry is owed (`acts_served`). So what acts keep, and the taking of a command, holds of every
history (`run_holds`).
-/

namespace Allotment.Allocator

open Docket

variable {σ : Type} {W : World σ} {s t : Allocator σ} {i : Option Queued} {k : Nat}

/-! ### Asking the outside -/

/-- A closed queue takes nothing in. -/
theorem docket_submit (x : Submission) (s : Allocator σ) :
    (s.setting.queue.closed = true ∧ (s.submit x).docket i k = s.docket i k) ∨
    (s.setting.queue.closed = false ∧ (s.submit x).docket i k = (s.docket i k).enter x) := by
  unfold submit Setting.submit
  cases h : s.setting.queue.closed with
  | true => exact .inl ⟨rfl, rfl⟩
  | false => exact .inr ⟨rfl, rfl⟩

theorem acts_submit (W : World σ) (x : Submission) (s : Allocator σ) :
    Acts W (s.docket i k) ((s.submit x).docket i k) := by
  obtain ⟨-, same⟩ | ⟨opened, same⟩ := docket_submit x s <;> rw [same]
  exact .single (.enter x opened)

theorem acts_stirs {x y : Setting σ} (h : x.Stirs (fun _ => True) y) (s : Allocator σ) :
    Acts W (docket i k { s with setting := x })
      (docket i k { s with setting := y }) := by
  induction h with
  | refl => exact .refl
  | @tail y z _ stir ih =>
    cases stir with
    | turn w => exact ih
    | note e _ remark => exact ih.tail (.remark e remark)
    | submit x => exact ih.trans (acts_submit W x { s with setting := y })

theorem length_consult (W : World σ) (h : Hook) (c : ClientId) (rs : ResourceSet)
    (as : List Advisor) (x : Setting σ) :
    (Chain.consult (Advisor.ask W h c rs) as x).2.1.length = as.length := by
  induction as generalizing x with
  | nil => rfl
  | cons a as ih =>
    unfold Chain.consult
    dsimp only
    split
    · exact congrArg Nat.succ (ih _)
    · rfl

theorem length_notify (W : World σ) (h : Hook) (c : ClientId) (rs : ResourceSet)
    (as : List Advisor) (x : Setting σ) :
    (Chain.notify (Advisor.ask W h c rs) as x).1.length = as.length := by
  induction as generalizing x with
  | nil => rfl
  | cons a as ih => exact congrArg Nat.succ (ih _)

theorem length_pollGates (number i : Nat) (o : Option GateOutcome) (as : List Advisor)
    (x : Setting σ) : (pollGates number i o as x).2.1.length = as.length := by
  induction as generalizing x with
  | nil => rfl
  | cons a as ih =>
    cases a with
    | zones z => exact congrArg Nat.succ (ih x)
    | outside n name => exact congrArg Nat.succ (ih x)
    | gates n g =>
      unfold pollGates
      split
      · rfl
      · exact congrArg Nat.succ (ih x)

theorem acts_question (W : World σ) (h : Hook) (c : ClientId) (rs : ResourceSet)
    (s : Allocator σ) :
    Acts W (s.docket i k) ((s.question W h c rs).2.docket i k) := by
  have asked := acts_stirs (W := W) (i := i) (k := k)
    (Setting.stirs_consult W.submits_any h c rs s.advisors s.setting) s
  have length : (s.question W h c rs).2.advisors.length = s.advisors.length :=
    length_consult W h c rs s.advisors s.setting
  unfold docket at asked ⊢
  rw [length]
  exact asked.tail (.remark (.consulted h c rs (s.question W h c rs).1) rfl)

theorem acts_announce (W : World σ) (c : ClientId) (rs : ResourceSet) (s : Allocator σ) :
    Acts W (s.docket i k) ((s.announce W c rs).docket i k) := by
  have told := acts_stirs (W := W) (i := i) (k := k)
    (Setting.stirs_notify W.submits_any .released c rs s.advisors s.setting) s
  have length : (s.announce W c rs).advisors.length = s.advisors.length :=
    length_notify W .released c rs s.advisors s.setting
  unfold docket at told ⊢
  rw [length]
  exact told.tail (.remark (.consulted .released c rs true) rfl)

theorem acts_poll (W : World σ) (number task : Nat) (o : Option GateOutcome) (s : Allocator σ) :
    Acts W (s.docket i k) ((s.poll number task o).2.docket i k) := by
  have polled := acts_stirs (W := W) (i := i) (k := k)
    (Setting.stirs_pollGates W.submits_any.checks number task o s.advisors s.setting) s
  have length : (s.poll number task o).2.advisors.length = s.advisors.length :=
    length_pollGates number task o s.advisors s.setting
  unfold docket at polled ⊢
  rw [length]
  exact polled

theorem acts_record (W : World σ) (d : Decision) (c : ClientId) (rs : ResourceSet)
    (detail : Option String) (running : s.phase = .running) :
    Acts W (s.docket i k) ((s.record W d c rs detail).docket i k) := by
  have decided := Act.remark (W := W) (d := s.docket i k) (.decided d c rs detail) rfl
  unfold record recordEvent
  dsimp only
  split
  · exact .single decided
  · exact .single decided
  · have audited := (Relation.ReflTransGen.single decided).tail
      (.remark (.audited (.build (W.stamp s.setting.world).1 c d.name rs detail)) rfl)
    split
    · exact audited
    · exact audited.tail (.crash running)

/-! ### Deciding a request -/

theorem acts_isReady (W : World σ) (earlier : List Grant) (g : Grant) (s : Allocator σ) :
    Acts W (s.docket i k) ((s.isReady W earlier g).2.docket i k) := by
  unfold isReady
  split
  · exact .refl
  · split
    · exact .refl
    · exact acts_question ..

theorem Asks.acts (h : Asks W s t) : Acts W (s.docket i k) (t.docket i k) := by
  induction h with
  | refl => exact .refl
  | tail _ ask ih =>
    cases ask with
    | expand rs => exact ih.tail (.remark (.expanding rs) rfl)
    | question h c rs _ => exact ih.trans (acts_question W h c rs _)
    | announce c rs => exact ih.trans (acts_announce W c rs _)

theorem Asks.length (h : Asks W s t) : t.advisors.length = s.advisors.length := by
  induction h with
  | refl => rfl
  | @tail u v _ ask ih =>
    refine Eq.trans ?_ ih
    cases ask with
    | expand rs => rfl
    | question h c rs _ => exact length_consult W h c rs u.advisors u.setting
    | announce c rs => exact length_notify W .released c rs u.advisors u.setting

theorem acts_lock {g : Grant} (running : s.phase = .running)
    (h : s.tryAllocate W g.client g.requested = (some (g.expanded, g.claimed), t)) :
    Acts W (s.docket (some g.request.queued) k)
      (docket none k (note (.locked g) { t with pending := t.pending ++ [g] })) := by
  obtain ⟨u, table, asks, rfl, available, claimed, holders⟩ := tryAllocate_some h
  have quiet := asks.quietly
  have same : u.table = s.table := quiet.table
  rw [← same] at available claimed holders
  exact asks.acts.tail (.lock rfl ⟨quiet.phase.trans running, available, claimed, holders⟩)

theorem acts_defer {r : Request} (running : s.phase = .running)
    (h : s.tryAllocate W r.client.id r.resources = (none, t)) :
    Acts W (s.docket (some r.queued) k) ((t.defer W r).docket none k) := by
  have asks := tryAllocate_none h
  have going : t.phase = .running := asks.quietly.phase.trans running
  have objected : Objected W t.advisors.length t.table r :=
    ⟨s, t, asks.quietly.table.symm, asks.length.symm, h⟩
  refine (asks.acts.tail (.defer r rfl going objected)).trans ?_
  exact acts_record W .defer r.client.id r.resources none
    (s := note (.deferred r) { t.count .addDeferral with deferred := t.deferred ++ [r] }) going

/-! ### Taking and giving -/

theorem docket_noteAll (es : List Event) (s : Allocator σ) :
    (s.noteAll es).docket i k =
      { s.docket i k with journal := es.reverse ++ s.setting.journal } := by
  induction es generalizing s with
  | nil => rfl
  | cons e es ih =>
    refine (ih (s.note e)).trans ?_
    simp [docket, books, note]

theorem act_strip (c : ClientId) (rs : ResourceSet) (cause : FreeCause)
    (unasked : (s.docket i k).Unasked) (running : s.phase = .running) :
    Act W (s.docket i k) (((s.take c rs cause).2.cancelOrphaned c).docket i
      (if (s.table.heldOf c rs).isEmpty then k else k + 1)) := by
  unfold cancelOrphaned
  rw [docket_noteAll]
  exact .strip c rs cause unasked running

theorem act_notify (W : World σ) (s : Allocator σ) :
    Act W (s.docket i (k + 1)) ((s.submit ⟨.retryDeferred, .normal⟩).docket i k) := by
  obtain ⟨closed, same⟩ | ⟨opened, same⟩ := docket_submit ⟨.retryDeferred, .normal⟩ s <;> rw [same]
  · exact .forgo k rfl fun _ => closed
  · exact .notify k rfl opened

/-- A retry that is owed is submitted, unless the allocator has stopped. -/
theorem acts_followUp (cs : List Command) (s : Allocator σ) :
    Acts W (s.docket i (k + 1)) ((s.followUp (cs ++ [.retryDeferred])).docket i k) := by
  unfold followUp
  split
  · have submitted := acts_stirs (W := W) (i := i) (k := k + 1)
      (Setting.stirs_submitAll (fun x (_ : x ∈ cs.map fun c => ⟨c, .normal⟩) => trivial) s.setting) s
    rw [List.map_append, Setting.submitAll, List.foldl_append]
    exact submitted.tail (act_notify W _)
  · rename_i stopped
    exact .single (.forgo k rfl fun running => absurd (isRunning_iff.mpr running) stopped)

/-! ### Delivering -/

theorem acts_call {before after : List Grant} {g : Grant} (ready : s.books.Ready before g after) :
    Acts W (s.docket none k)
      ((call W g { s with pending := before ++ after }).2.docket none k) := by
  unfold call
  rcases W.call g.request.client g.requested s.setting.world with ⟨reply, submissions, w⟩
  refine .head (.call reply (by simp [Unasked, docket]) ready) ?_
  exact acts_stirs (Setting.stirs_submitAll (fun _ _ => trivial)
    (({ s.setting with world := w } : Setting σ).note (.called g reply)))
    { s with pending := before ++ after }

theorem acts_announceFreed (W : World σ) (c : ClientId) (freed : ResourceSet) (s : Allocator σ) :
    Acts W (s.docket i k) ((s.announceFreed W c freed).docket i k) := by
  unfold announceFreed
  split
  · exact .refl
  · exact acts_announce ..

theorem acts_refuseGrant (W : World σ) (g : Grant) (running : s.phase = .running) :
    Acts W (s.docket none k) ((s.refuseGrant W g).docket none k) := by
  let freed := s.table.heldOf g.client g.expanded
  let stripped :=
    ((s.count .addRefusal).take g.client g.expanded .refused).2.cancelOrphaned g.client
  have strip : Act W (s.docket none k)
      (stripped.docket none (if freed.isEmpty then k else k + 1)) :=
    act_strip (s := s.count .addRefusal) g.client g.expanded .refused
      (by simp [Unasked, docket]) running
  have going : stripped.phase = .running :=
    (congrArg Books.phase (books_strip _ _ _ (s.count .addRefusal))).trans running
  let recorded := (stripped.announceFreed W g.client freed).record W .refuse g.client g.requested
    (some (refusalDetail freed))
  have told (n : Nat) : Acts W (stripped.docket none n) (recorded.docket none n) :=
    (acts_announceFreed W g.client freed stripped).trans (acts_record W _ _ _ _
      ((writes_announceFreed W g.client freed stripped).phase.trans going))
  by_cases nothing : freed.isEmpty = true
  · have quiet : s.refuseGrant W g = recorded := if_pos nothing
    rw [if_pos nothing] at strip
    rw [quiet]
    exact .head strip (told k)
  · have retried : s.refuseGrant W g = recorded.followUp [.retryDeferred] := if_neg nothing
    rw [if_neg nothing] at strip
    rw [retried]
    exact (Relation.ReflTransGen.head strip (told (k + 1))).trans (acts_followUp [] recorded)

theorem acts_deliver {before after : List Grant} {g : Grant} (running : s.phase = .running)
    (split : s.pending = before ++ g :: after) (h : s.isReady W before g = (true, t)) :
    Acts W (s.docket none k)
      ((deliver W g { t with pending := before ++ after }).docket none k) := by
  have asked := acts_isReady (i := none) (k := k) W before g s
  obtain ⟨phase, pending⟩ := kept_of_isReady h
  rw [h] at asked
  have going : t.phase = .running := phase.trans running
  have ready : t.books.Ready before g after :=
    ⟨going, pending.trans split, (isReady_true h).1⟩
  have called := asked.trans (acts_call (W := W) ready)
  refine called.trans ?_
  unfold deliver
  have kept : (call W g { t with pending := before ++ after }).2.phase = .running := going
  rcases answer : call W g { t with pending := before ++ after } with ⟨reply, u⟩
  rw [answer] at kept
  cases reply with
  | accept => exact acts_record W .grant g.client g.requested none (s := u.count .addGrant) kept
  | refuse => exact acts_refuseGrant W g kept
  | breakOff => exact acts_refuseGrant W g kept

theorem Deliveries.acts (h : Deliveries W s t) :
    Acts W (s.docket none k) (t.docket none k) := by
  induction h with
  | refl => exact .refl
  | @tail u v _ delivery ih =>
    refine ih.trans ?_
    cases delivery with
    | wait before g after _ running split unready =>
      have asked := acts_isReady (i := none) (k := k) W before g u
      rwa [unready] at asked
    | deliver before g after _ running split ready => exact acts_deliver running split ready

/-! ### Serving a command -/

theorem unasked_of_command {q : Queued} (other : ∀ c rs, q.command ≠ .allocate c rs) :
    (s.docket (some q) k).Unasked := by
  intro r e
  have same : q = r.queued := Option.some.inj e
  exact other r.client r.resources (same ▸ rfl)

theorem act_dismiss {q : Queued} (other : ∀ c rs, q.command ≠ .allocate c rs)
    (moot : q.command = .retryDeferred → s.deferred = []) :
    Act W (s.docket (some q) k) (s.docket none k) :=
  .dismiss q rfl (unasked_of_command other) moot

theorem acts_free (rs : ResourceSet) {q : Queued} {c : ClientId}
    (other : ∀ c rs, q.command ≠ .allocate c rs) (retry : q.command ≠ .retryDeferred)
    (running : s.phase = .running) :
    Acts W (s.docket (some q) k) ((s.free W c rs).docket none k) := by
  let freed := s.table.heldOf c rs
  let stripped := (s.take c rs .asked).2.cancelOrphaned c
  let released := stripped.releaseBlocked W c
  have strip : Act W (s.docket (some q) k)
      (stripped.docket (some q) (if freed.isEmpty then k else k + 1)) :=
    act_strip c rs .asked (unasked_of_command other) running
  have delivered (n : Nat) : Acts W (stripped.docket (some q) n) (released.docket none n) :=
    .head (act_dismiss other fun e => absurd e retry) (releaseBlocked_deliveries W c stripped).acts
  obtain ⟨moot, quiet⟩ | ⟨something, going, told⟩ :=
    afterFree_cases W c freed (s.take c rs .asked).2
  · rw [show s.free W c rs = released from quiet]
    rcases moot with nothing | stopped
    · rw [if_pos nothing] at strip
      exact .head strip (delivered k)
    · refine .head strip ?_
      split
      · exact delivered k
      · exact (delivered (k + 1)).tail (.forgo k rfl fun running => absurd running stopped)
  · rw [if_neg (by simpa using something)] at strip
    rw [show s.free W c rs = _ from told]
    refine (Relation.ReflTransGen.head strip (delivered (k + 1))).trans ?_
    exact (acts_record W .free c freed none (s := released.count .addFree) going).trans
      (acts_followUp [.released c freed] _)

theorem acts_retryDeferred {q : Queued} (command : q.command = .retryDeferred)
    (running : s.phase = .running) :
    Acts W (s.docket (some q) k) (s.retryDeferred.docket none k) := by
  have other : ∀ c rs, q.command ≠ .allocate c rs := by simp [command]
  unfold retryDeferred
  split
  · rename_i none
    exact .single (act_dismiss other fun _ => List.isEmpty_iff.mp none)
  · exact .single (.retry q rfl command running)

theorem acts_withdraw (c : ClientId) {q : Queued} (command : q.command = .withdraw c)
    (running : s.phase = .running) :
    Acts W (s.docket (some q) k) ((s.withdraw W c).docket none k) := by
  let gone := s.deferred.filter (·.client.id == c)
  let left := { s with deferred := s.deferred.filter fun r => !(r.client.id == c) }
  have dropped : Act W (s.docket (some q) k)
      ((left.noteAll (gone.map .withdrawn)).docket (some q) k) := by
    rw [docket_noteAll]
    exact .withdraw q c rfl command running
  have going : (left.noteAll (gone.map .withdrawn)).phase = .running := by
    have phase := congrArg (fun d => d.phase) (docket_noteAll (i := none) (k := 0)
      (gone.map .withdrawn) left)
    exact phase.trans running
  refine .head dropped (.head (act_dismiss (by simp [command]) (by simp [command])) ?_)
  unfold withdraw
  dsimp only
  split
  · exact .refl
  · exact acts_record W _ _ _ _ going

theorem acts_terminate {q : Queued} (command : q.command = .shutdown)
    (running : s.phase = .running) :
    Acts W (s.docket (some q) k) (s.terminate.docket none k) := by
  refine .head (.stop q rfl command running) (.single ?_)
  exact act_dismiss (s := s.terminate) (by simp [command]) (by simp [command])

theorem acts_process (W : World σ) (q : Queued) (running : s.phase = .running) :
    Acts W (s.docket (some q) k) ((s.process W q).docket none k) := by
  obtain ⟨command, priority, seq⟩ := q
  unfold process
  cases command with
  | allocate c rs =>
    dsimp only
    unfold allocate
    rcases h : s.tryAllocate W c.id rs with ⟨_ | ⟨expanded, claimed⟩, t⟩
    · exact acts_defer (r := ⟨c, rs, priority, seq⟩) running h
    · have locked := acts_lock (g := ⟨⟨c, rs, priority, seq⟩, expanded, claimed⟩) (k := k)
        running h
      have going : t.phase = .running := by
        have phase := phase_tryAllocate W c.id rs s
        rw [h] at phase
        exact phase.trans running
      exact locked.trans (completeIfPrepared_deliveries W _ (by exact going)).acts
  | released c rs =>
    exact .head (act_dismiss (by simp) (by simp)) (acts_announce W c rs s)
  | checkPrepared c rs =>
    exact .head (act_dismiss (by simp) (by simp)) (checkPrepared_deliveries W c rs running).acts
  | retryDeferred => exact acts_retryDeferred rfl running
  | free c rs => exact acts_free rs (by simp) (by simp) running
  | freeAll c => exact acts_free _ (by simp) (by simp) running
  | withdraw c => exact acts_withdraw c rfl running
  | snapshot =>
    refine .head (.report ⟨.snapshot, priority, seq⟩ rfl rfl) (.single ?_)
    exact act_dismiss (s := s.note (.reported seq s.snapshot)) (by simp) (by simp)
  | shutdown => exact acts_terminate rfl running

/-! ### Histories -/

theorem step_cases (W : World σ) (s : Allocator σ) :
    s.step W = s ∨ s.phase = .running ∧ ∃ q rest, s.setting.queue.take? = some (q, rest) ∧
      s.step W = (s.accept q rest).process W q := by
  by_cases running : s.phase = .running
  · cases next : s.setting.queue.take? with
    | none => exact .inl (by simp only [step, isRunning_iff.mpr running, if_true, next])
    | some found =>
      refine .inr ⟨running, found.1, found.2, rfl, ?_⟩
      simp only [step, isRunning_iff.mpr running, if_true, next]
  · exact .inl (if_neg (mt isRunning_iff.mp running))

theorem acts_served {q : Queued} {rest : Queue} (running : s.phase = .running) :
    Acts W ((s.docket none 0).take q rest) (((s.accept q rest).process W q).docket none 0) :=
  acts_process W q (s := s.accept q rest) running

theorem acts_invariant {P : Docket → Prop} (act : ∀ {d e}, Act W d e → P d → P e) {d e : Docket}
    (h : Acts W d e) (start : P d) : P e := by
  induction h with
  | refl => exact start
  | tail _ next ih => exact act next ih

theorem run_invariant {P : Docket → Prop} (act : ∀ {d e}, Act W d e → P d → P e)
    (take : ∀ {d q rest}, Next d q rest → P d → P (d.take q rest)) (s : Allocator σ)
    (hs : List (Happening σ)) (start : P (s.docket none 0)) : P ((s.run W hs).docket none 0) := by
  induction hs generalizing s with
  | nil => exact start
  | cons h hs ih =>
    refine ih (s.apply W h) ?_
    cases h with
    | submit x => exact acts_invariant act (acts_submit W x s) start
    | poll number task o => exact acts_invariant act (acts_poll W number task o s) start
    | shift w => exact start
    | step =>
      show P ((s.step W).docket none 0)
      obtain idle | ⟨running, q, rest, next, served⟩ := step_cases W s
      · rwa [idle]
      · rw [served]
        exact acts_invariant act (acts_served running) (take ⟨running, rfl, rfl, next⟩ start)

/-- What acts and the taking of commands keep holds of every history. -/
theorem run_holds {P : Docket → Prop} (act : ∀ {d e}, Act W d e → d.Sound → P d → P e)
    (take : ∀ {d q rest}, Next d q rest → d.Sound → P d → P (d.take q rest))
    (advisors : List Advisor) (sink : AuditSink) (w : σ) (hs : List (Happening σ))
    (start : P ((initial advisors sink w).docket none 0)) :
    (((initial advisors sink w).run W hs).docket none 0).Sound ∧
      P (((initial advisors sink w).run W hs).docket none 0) := by
  refine run_invariant (P := fun d => d.Sound ∧ P d) (fun h k => ⟨k.1.act h, act h k.1 k.2⟩)
    (fun h k => ⟨k.1.take h, take h k.1 k.2⟩) _ hs ⟨⟨⟨fun _ => rfl, rfl, .refl _, ?_⟩, ?_⟩, start⟩
  · exact fun _ h => by cases h
  · exact Books.initial_inOrder

/-! ### Commands wait until they are served -/

theorem acts_untaken {d e : Docket} (h : Acts W d e) :
    ∃ es : Journal, (∀ x ∈ es, ∀ q, x ≠ .took q) ∧ e.journal = es ++ d.journal := by
  induction h with
  | refl => exact ⟨[], by simp, rfl⟩
  | tail _ act ih =>
    obtain ⟨es, he, journal⟩ := ih
    obtain ⟨fs, hf, further⟩ := act.untaken
    refine ⟨fs ++ es, fun x hx => ?_, by rw [further, journal, List.append_assoc]⟩
    exact (List.mem_append.mp hx).elim (hf x) (he x)

end Allotment.Allocator

namespace Allotment

variable {σ : Type} {W : World σ}

/-- A command that is taken has come in. -/
def Journal.Arrived : Event → Journal → Prop
  | .took q, j => .entered q ∈ j
  | _, _ => True

namespace Docket

open Journal

variable {d e : Docket}

structure Filed (d : Docket) : Prop where
  arrived : Always Arrived d.journal
  kept : d.phase = .running →
    ∀ q, .entered q ∈ d.journal → .took q ∈ d.journal ∨ q ∈ d.queue.waiting

theorem Filed.act (act : Act W d e) (sound : d.Sound) (h : d.Filed) : e.Filed := by
  have arrived : Always Arrived e.journal := by
    obtain ⟨es, untaken, journal⟩ := act.untaken
    rw [journal]
    refine always_append (fun x hx k => ?_) h.arrived
    cases x with
    | took q => exact absurd rfl (untaken _ hx q)
    | _ => trivial
  refine ⟨arrived, fun running q entered => ?_⟩
  rcases act.traffic with calm | ⟨x, n, -, rfl⟩ | ⟨going, rfl⟩
  · obtain ⟨es, he, journal⟩ := calm.entries
    rw [journal] at entered ⊢
    rw [calm.queue.resolve_right fun closed => closed.2 running]
    refine (h.kept (calm.phase running) q ?_).imp_left (List.mem_append_right _)
    refine (List.mem_append.mp entered).resolve_left fun m => ?_
    exact absurd (he _ m) (by simp [Event.isTraffic])
  · have waiting := (Queue.waiting_enter d.queue x.command x.priority).mem_iff (a := q)
    rcases List.mem_cons.mp entered with same | entered
    · obtain rfl := Event.entered.inj same
      exact .inr (waiting.mpr List.mem_cons_self)
    · exact (h.kept running q entered).imp (List.mem_cons_of_mem _)
        fun waits => waiting.mpr (List.mem_cons_of_mem _ waits)
  · have waiting := (waiting_restore (sound.regular.opened going)).mem_iff (a := q)
    rcases List.mem_cons.mp entered with same | entered
    · cases same
    · exact (h.kept going q entered).imp (List.mem_cons_of_mem _)
        fun waits => waiting.mpr (List.mem_append_right _ waits)

theorem Filed.take {q : Queued} {rest : Queue} (next : d.Next q rest) (sound : d.Sound)
    (h : d.Filed) : (d.take q rest).Filed := by
  have perm := (Queue.waiting_of_take? next.next).1
  have waits : q ∈ d.circulating :=
    List.mem_append_left _ (perm.mem_iff.mpr List.mem_cons_self)
  refine ⟨⟨mem_entered.mp (sound.regular.issued.subset waits), h.arrived⟩, fun _ p entered => ?_⟩
  have entered := (List.mem_cons.mp entered).resolve_left (by simp)
  rcases h.kept next.running p entered with took | waits
  · exact .inl (List.mem_cons_of_mem _ took)
  · rcases List.mem_cons.mp (perm.mem_iff.mp waits) with rfl | waits
    · exact .inl List.mem_cons_self
    · exact .inr waits

theorem Filed.entered_of_took {q : Queued} (h : d.Filed) (took : .took q ∈ d.journal) :
    .entered q ∈ d.journal := mem_of_always h.arrived took fun _ => id

end Docket

theorem Allocator.run_filed (W : World σ) (advisors : List Advisor) (sink : AuditSink) (w : σ)
    (hs : List (Happening σ)) : (((initial advisors sink w).run W hs).docket none 0).Filed :=
  (run_holds Docket.Filed.act Docket.Filed.take advisors sink w hs
    ⟨trivial, fun _ _ entered => absurd entered List.not_mem_nil⟩).2

end Allotment
