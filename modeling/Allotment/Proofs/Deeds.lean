import Allotment.Proofs.Releases

/-!
# What a command does where nobody advises

Without advisors every grant is delivered at once, so nothing is tentative between two commands
(`settled_run`). What a request, a free or a free of everything does then is its `Deed`, read off
the table and what its client says: which resources change hands, what is added to the books and
the records, and what is submitted (`does_serve`).
-/

namespace Allotment

variable {σ : Type} {W : World σ} {E : ResourceSet → ResourceSet}

/-! ### Sums -/

namespace Counters

def plus (a b : Counters) : Counters where
  processed := a.processed + b.processed
  grants := a.grants + b.grants
  deferrals := a.deferrals + b.deferrals
  refusals := a.refusals + b.refusals
  frees := a.frees + b.frees

theorem plus_assoc (a b c : Counters) : (a.plus b).plus c = a.plus (b.plus c) := by
  simp [plus, Nat.add_assoc]

theorem plus_right_comm (a b c : Counters) : (a.plus b).plus c = (a.plus c).plus b := by
  simp [plus, Nat.add_right_comm]

end Counters

/-- What waits in the queue, without the numbers that were given to it. -/
def Queue.submissions (q : Queue) : List Submission :=
  q.waiting.map fun x => ⟨x.command, x.priority⟩

namespace Setting

theorem submissions_submit {x : Setting σ} (opened : x.queue.closed = false) (s : Submission) :
    (x.submit s).queue.submissions.Perm (s :: x.queue.submissions) := by
  rw [submit, opened, if_neg Bool.false_ne_true]
  exact (Queue.waiting_enter x.queue s.command s.priority).map _

theorem submissions_submitAll {x : Setting σ} (opened : x.queue.closed = false)
    (ss : List Submission) :
    (x.submitAll ss).queue.submissions.Perm (ss ++ x.queue.submissions) := by
  induction ss generalizing x with
  | nil => exact .refl _
  | cons s ss ih =>
    have rest := ih ((closed_submit x s).trans opened)
    have first := (submissions_submit opened s).append_left ss
    exact (rest.trans first).trans List.perm_middle

theorem calls_submitAll (x : Setting σ) (ss : List Submission) :
    (x.submitAll ss).journal.calls = x.journal.calls := by
  obtain ⟨es, entries, journal⟩ := grows_submitAll x ss
  rw [journal, Journal.calls_append, Journal.calls_quiet, List.nil_append]
  intro e he
  obtain ⟨q, rfl⟩ := entries e he
  rfl

end Setting

/-! ### Clients that heed nobody -/

/-- What a client says to a grant, and what it submits meanwhile. -/
def World.answer (W : World σ) (d : Client) (rs : ResourceSet) (w : σ) : Reply × List Submission :=
  ((W.call d rs w).1, (W.call d rs w).2.1)

/-- What a client says is changed by nothing but its own calls. -/
structure World.Unswayed (W : World σ) : Prop where
  expand : ∀ d rs ps w, W.answer d rs (W.expand ps w).2 = W.answer d rs w
  call : ∀ d rs e ps w, d.id ≠ e.id → W.answer d rs (W.call e ps w).2.2 = W.answer d rs w
  audit : ∀ d rs e w, W.answer d rs (W.audit e w).2 = W.answer d rs w
  stamp : ∀ d rs w, W.answer d rs (W.stamp w).2 = W.answer d rs w

/-! ### What is added -/

/-- What an allocator adds to its books and its records, and what is submitted meanwhile. -/
structure Yield where
  deferred : List Request := []
  tally : Counters := {}
  /-- The latest call comes first. -/
  calls : List (Grant × Reply) := []
  submissions : List Submission := []

def Yield.andThen (x y : Yield) : Yield where
  deferred := x.deferred ++ y.deferred
  tally := x.tally.plus y.tally
  calls := y.calls ++ x.calls
  submissions := y.submissions ++ x.submissions

theorem Yield.andThen_nil (x : Yield) : x.andThen {} = x := by
  simp [andThen, Counters.plus]

theorem Yield.nil_andThen (x : Yield) : andThen {} x = x := by
  simp [andThen, Counters.plus]

namespace Allocator

/-- This is what is added from `s` to `t`. Who is not called answers as before. -/
structure Yields (W : World σ) (x : Yield) (s t : Allocator σ) : Prop where
  advisors : t.advisors = s.advisors
  pending : t.pending = s.pending
  closed : t.setting.queue.closed = s.setting.queue.closed
  deferred : t.deferred = s.deferred ++ x.deferred
  counters : t.counters = s.counters.plus x.tally
  calls : t.setting.journal.calls = x.calls ++ s.setting.journal.calls
  submissions : s.setting.queue.closed = false →
    t.setting.queue.submissions.Perm (x.submissions ++ s.setting.queue.submissions)
  answers : ∀ d rs, (∀ k ∈ x.calls, d.id ≠ k.1.client) →
    W.answer d rs t.setting.world = W.answer d rs s.setting.world

variable {s t u : Allocator σ} {x y : Yield}

theorem Yields.trans (h : Yields W x s t) (k : Yields W y t u) :
    Yields W (x.andThen y) s u where
  advisors := k.advisors.trans h.advisors
  pending := k.pending.trans h.pending
  closed := k.closed.trans h.closed
  deferred := by
    rw [k.deferred, h.deferred, List.append_assoc]
    rfl
  counters := by
    rw [k.counters, h.counters, Counters.plus_assoc]
    rfl
  calls := by
    rw [k.calls, h.calls, ← List.append_assoc]
    rfl
  submissions opened := by
    have later := k.submissions (h.closed.trans opened)
    have all := later.trans ((h.submissions opened).append_left y.submissions)
    rwa [← List.append_assoc] at all
  answers d rs other := by
    obtain ⟨later, earlier⟩ := List.forall_mem_append.mp other
    exact (k.answers d rs later).trans (h.answers d rs earlier)

theorem Yields.quietly (h : Yields W x s t) (k : Yields W {} t u) : Yields W x s u :=
  x.andThen_nil ▸ h.trans k

/-- Nothing is seen of what changes in the table and around the allocator. -/
theorem yields_unseen {table : Table} {phase : Phase} {sink : AuditSink} {z : Setting σ}
    (queue : z.queue = s.setting.queue) (calls : z.journal.calls = s.setting.journal.calls)
    (answers : ∀ d rs, W.answer d rs z.world = W.answer d rs s.setting.world) :
    Yields W {} s { s with table, phase, sink, setting := z } where
  advisors := rfl
  pending := rfl
  closed := congrArg Queue.closed queue
  deferred := (List.append_nil _).symm
  counters := rfl
  calls := calls
  submissions _ := .of_eq (congrArg Queue.submissions queue)
  answers d rs _ := answers d rs

theorem Yields.refl (W : World σ) (s : Allocator σ) : Yields W {} s s :=
  yields_unseen rfl rfl fun _ _ => rfl

theorem yields_note {e : Event} (uncalled : Journal.calls [e] = []) (W : World σ)
    (s : Allocator σ) : Yields W {} s (s.note e) := by
  refine yields_unseen rfl ?_ fun _ _ => rfl
  show Journal.calls ([e] ++ s.setting.journal) = _
  rw [Journal.calls_append, uncalled, List.nil_append]

theorem yields_noteAll {es : List Event} (uncalled : ∀ e ∈ es, Journal.calls [e] = [])
    (s : Allocator σ) : Yields W {} s (s.noteAll es) := by
  induction es generalizing s with
  | nil => exact .refl W s
  | cons e es ih =>
    obtain ⟨first, rest⟩ := List.forall_mem_cons.mp uncalled
    exact (yields_note first W s).quietly (ih rest _)

theorem yields_count {f : Counters → Counters} {tally : Counters}
    (adds : f s.counters = s.counters.plus tally) : Yields W { tally } s (s.count f) :=
  ⟨rfl, rfl, rfl, (List.append_nil _).symm, adds, rfl, fun _ => .refl _, fun _ _ _ => rfl⟩

theorem yields_submitAll (ss : List Submission) :
    Yields W { submissions := ss } s { s with setting := s.setting.submitAll ss } where
  advisors := rfl
  pending := rfl
  closed := Setting.closed_submitAll ..
  deferred := (List.append_nil _).symm
  counters := rfl
  calls := Setting.calls_submitAll ..
  submissions opened := Setting.submissions_submitAll opened ss
  answers d rs _ := by rw [Setting.world_submitAll]

theorem yields_followUp (running : s.phase = .running) (cs : List Command) :
    Yields W { submissions := cs.map fun k => ⟨k, .normal⟩ } s (s.followUp cs) := by
  rw [followUp, if_pos (isRunning_iff.mpr running)]
  exact yields_submitAll _

theorem yields_call (unswayed : W.Unswayed) {g : Grant} {reply : Reply} {ss : List Submission}
    (answer : W.answer g.request.client g.requested s.setting.world = (reply, ss)) :
    (s.call W g).1 = reply ∧
      Yields W { calls := [(g, reply)], submissions := ss } s (s.call W g).2 := by
  rcases called : W.call g.request.client g.requested s.setting.world with ⟨a, more, w⟩
  rw [World.answer, called] at answer
  cases answer
  have noted : Yields W { calls := [(g, a)] } s
      { s with setting := { s.setting with world := w }.note (.called g a) } := by
    refine ⟨rfl, rfl, rfl, (List.append_nil _).symm, rfl, rfl, fun _ => .refl _, ?_⟩
    intro d rs other
    have same := unswayed.call d rs g.request.client g.requested s.setting.world
      (other (g, a) (List.mem_singleton_self _))
    rwa [called] at same
  have both := noted.trans (yields_submitAll more)
  rw [call, called]
  exact ⟨rfl, by simpa [Yield.andThen, Counters.plus] using both⟩

theorem yields_record (unswayed : W.Unswayed) (d : Decision) (e : ClientId) (rs : ResourceSet)
    (detail : Option String) (s : Allocator σ) : Yields W {} s (s.record W d e rs detail) := by
  unfold record recordEvent
  dsimp only
  split
  · exact yields_unseen rfl rfl fun k ps => unswayed.stamp k ps s.setting.world
  · exact yields_unseen rfl rfl fun k ps => unswayed.stamp k ps s.setting.world
  · refine yields_unseen rfl rfl ?_
    intro k ps
    exact (unswayed.audit ..).trans (unswayed.stamp ..)

/-- The sink has broken. -/
def Broken (W : World σ) (t : Allocator σ) : Prop :=
  t.phase = .crashed ∧ ∃ e w, (W.audit e w).1 = false

theorem record_survives (W : World σ) (d : Decision) (e : ClientId) (rs : ResourceSet)
    (detail : Option String) (s : Allocator σ) :
    (s.record W d e rs detail).phase = s.phase ∨ (s.record W d e rs detail).Broken W := by
  unfold record recordEvent
  dsimp only
  split
  · exact .inl rfl
  · exact .inl rfl
  · cases answer : (W.audit _ _).1 with
    | true => exact .inl rfl
    | false => exact .inr ⟨rfl, _, _, answer⟩

/-! ### Nobody advises -/

theorem question_nobody (alone : s.advisors = []) (W : World σ) (h : Hook) (c : ClientId)
    (rs : ResourceSet) : s.question W h c rs = (true, s.note (.consulted h c rs true)) := by
  cases s
  cases alone
  rfl

theorem announce_nobody (alone : s.advisors = []) (W : World σ) (c : ClientId)
    (rs : ResourceSet) : s.announce W c rs = s.note (.consulted .released c rs true) := by
  cases s
  cases alone
  rfl

theorem cancelOrphaned_idle (idle : s.pending = []) (c : ClientId) : s.cancelOrphaned c = s := by
  cases s
  cases idle
  rfl

theorem releaseBlocked_idle (idle : s.pending = []) (W : World σ) (c : ClientId) :
    s.releaseBlocked W c = s := by
  apply releaseBlocked_absent
  simp [idle]

theorem yields_asks (unswayed : W.Unswayed) (alone : s.advisors = []) (asks : Asks W s t) :
    Yields W {} s t := by
  induction asks with
  | refl => exact .refl W s
  | @tail u v _ ask ih =>
    have still : u.advisors = [] := ih.advisors.trans alone
    refine ih.quietly ?_
    cases ask with
    | expand rs =>
      exact yields_unseen rfl rfl fun d ps => unswayed.expand d ps rs u.setting.world
    | question h d rs =>
      rw [question_nobody still]
      exact yields_note rfl W u
    | announce d rs =>
      rw [announce_nobody still]
      exact yields_note rfl W u

end Allocator

/-! ### Deeds -/

/-- Some resources go to an heir, or to nobody, and this is added. -/
structure Deed where
  area : ResourceSet := ∅
  heir : Option ClientId := none
  yield : Yield := {}

namespace Deed

/-- Who does not want a grant gives up all that was locked for it. -/
def ofReply (g : Grant) : Reply × List Submission → Deed
  | (.accept, ss) =>
    { area := g.expanded
      heir := g.client
      yield := { tally := { grants := 1 }, calls := [(g, .accept)], submissions := ss } }
  | (reply, ss) =>
    { area := g.expanded
      yield :=
        { tally := { refusals := 1 }
          calls := [(g, reply)]
          submissions := (lossCommands g.expanded).map (⟨·, .normal⟩) ++ ss } }

def ofFree (c : ClientId) (freed : ResourceSet) : Deed where
  area := freed
  yield :=
    if freed.isEmpty then {}
    else
      { tally := { frees := 1 }
        submissions := [⟨.released c freed, .normal⟩, ⟨.retryDeferred, .normal⟩] }

def ofDeferral (r : Request) : Deed where
  yield := { deferred := [r], tally := { deferrals := 1 } }

/-- The command that led to it is counted, too. -/
def served (x : Deed) : Deed := { x with yield := .andThen { tally := { processed := 1 } } x.yield }

theorem area_ofReply (g : Grant) (p : Reply × List Submission) :
    (ofReply g p).area = g.expanded := by
  obtain ⟨reply, ss⟩ := p
  cases reply <;> rfl

end Deed

namespace Allocator

variable {s t u : Allocator σ} {c : ClientId} {x y : Deed}

/-- What a request, a free or a free of everything does if no advisor objects. -/
def deed (W : World σ) (E : ResourceSet → ResourceSet) (q : Queued) (s : Allocator σ) : Deed :=
  match q.command with
  | .allocate d rs =>
    if s.table.isAvailableFor (E rs) d.id then
      .ofReply ⟨⟨d, rs, q.priority, q.seq⟩, E rs, s.unclaimed d.id (E rs)⟩
        (W.answer d rs s.setting.world)
    else .ofDeferral ⟨d, rs, q.priority, q.seq⟩
  | .free c rs => .ofFree c (s.table.heldOf c rs)
  | .freeAll c => .ofFree c (s.table.allocationsOf c)
  | _ => {}

/-- This is what is done from `s` to `t`. -/
structure Does (W : World σ) (x : Deed) (s t : Allocator σ) : Prop where
  phase : t.phase = s.phase
  holder : ∀ r, t.table.holder r = if r ∈ x.area then x.heir else s.table.holder r
  yields : Yields W x.yield s t

theorem Broken.followUp (broken : s.Broken W) (cs : List Command) : (s.followUp cs).Broken W :=
  ⟨(writes_followUp cs s).phase.trans broken.1, broken.2⟩

theorem Does.unseen (h : Does W x s t) (phase : u.phase = t.phase) (table : u.table = t.table)
    (quiet : Yields W {} t u) : Does W x s u :=
  ⟨phase.trans h.phase, table ▸ h.holder, h.yields.quietly quiet⟩

/-- Recording a decision either breaks the sink or is not seen. -/
theorem Does.record (unswayed : W.Unswayed) (h : Does W x s t) (d : Decision) (e : ClientId)
    (rs : ResourceSet) (detail : Option String) :
    (t.record W d e rs detail).Broken W ∨ Does W x s (t.record W d e rs detail) := by
  obtain phase | broken := record_survives W d e rs detail t
  · exact .inr (h.unseen phase (table_record ..) (yields_record unswayed ..))
  · exact .inl broken

theorem Does.followUp (h : Does W x s t) (running : s.phase = .running) (cs : List Command) :
    Does W { x with yield := x.yield.andThen { submissions := cs.map (⟨·, .normal⟩) } } s
      (t.followUp cs) where
  phase := (writes_followUp cs t).phase.trans h.phase
  holder := by
    rw [(writes_followUp cs t).table]
    exact h.holder
  yields := h.yields.trans (yields_followUp (h.phase.trans running) cs)

theorem Does.count {f : Counters → Counters} (h : Does W x s t) (tally : Counters)
    (adds : f t.counters = t.counters.plus tally) :
    Does W { x with yield := x.yield.andThen { tally } } s (t.count f) :=
  ⟨h.phase, h.holder, h.yields.trans (yields_count adds)⟩

theorem does_free (unswayed : W.Unswayed) (running : s.phase = .running)
    (idle : s.pending = []) (rs : ResourceSet) :
    (s.free W c rs).Broken W ∨ Does W (.ofFree c (s.table.heldOf c rs)) s (s.free W c rs) := by
  let freed := s.table.heldOf c rs
  let u := (s.take c rs .asked).2
  have taken : Does W { area := freed } s u := by
    refine ⟨rfl, Table.holder_clear s.table freed, ?_⟩
    exact (yields_unseen rfl rfl fun _ _ => rfl).trans (yields_note rfl W _)
  have same : s.free W c rs = if freed.isEmpty || !u.isRunning then u
      else ((u.count .addFree).record W .free c freed none).followUp
        [.released c freed, .retryDeferred] := by
    show u.afterFree W c freed = _
    have idle : u.pending = [] := idle
    rw [afterFree, cancelOrphaned_idle idle, releaseBlocked_idle idle]
  rw [same, show u.isRunning = true from isRunning_iff.mpr running]
  show _ ∨ Does W (.ofFree c freed) s _
  unfold Deed.ofFree
  split
  · rename_i nothing
    rw [if_pos (by simpa using nothing)]
    exact .inr taken
  · rename_i something
    rw [if_neg (by simpa using something)]
    obtain broken | told := (taken.count (f := .addFree) { frees := 1 } rfl).record
      unswayed .free c freed none
    · exact .inl (broken.followUp _)
    · exact .inr (told.followUp running [.released c freed, .retryDeferred])

/-! ### Grants and their replies -/

/-- What is done to `t` comes to the same from `s`, if they agree on all that is not touched. -/
theorem Does.since {y : Yield} (h : Does W x t u) (before : Yields W y s t)
    (phase : t.phase = s.phase)
    (outside : ∀ r, r ∉ x.area → t.table.holder r = s.table.holder r) :
    Does W { x with yield := y.andThen x.yield } s u := by
  refine ⟨h.phase.trans phase, ?_, before.trans h.yields⟩
  intro r
  rw [h.holder]
  split
  · rfl
  · exact outside r ‹_›

theorem Does.since_unseen (h : Does W x t u) (before : Yields W {} s t)
    (phase : t.phase = s.phase)
    (outside : ∀ r, r ∉ x.area → t.table.holder r = s.table.holder r) : Does W x s u := by
  have done := h.since before phase outside
  rwa [Yield.nil_andThen] at done

theorem does_refuse (unswayed : W.Unswayed) {g : Grant} (running : s.phase = .running)
    (alone : s.advisors = []) (idle : s.pending = [])
    (covered : ∀ r ∈ g.expanded, s.table.holder r = some g.client) :
    (s.refuseGrant W g).Broken W ∨
      Does W
        { area := g.expanded
          yield :=
            { tally := { refusals := 1 }
              submissions := (lossCommands g.expanded).map (⟨·, .normal⟩) } } s
        (s.refuseGrant W g) := by
  let u := ((s.count .addRefusal).take g.client g.expanded .refused).2
  let x : Deed := { area := g.expanded, yield := { tally := { refusals := 1 } } }
  have freed : s.table.heldOf g.client g.expanded = g.expanded := heldOf_covered covered
  have taken : Does W x s u := by
    refine ⟨rfl, ?_, ?_⟩
    · intro r
      show (s.table.clear (s.table.heldOf g.client g.expanded)).holder r = _
      rw [freed, Table.holder_clear]
    · have counted : Yields W { tally := { refusals := 1 } } s (s.count .addRefusal) :=
        yields_count rfl
      exact (counted.quietly (yields_unseen rfl rfl fun _ _ => rfl)).quietly
        (yields_note rfl W _)
  have told : Does W x s
      ((u.cancelOrphaned g.client).announceFreed W g.client g.expanded) := by
    rw [cancelOrphaned_idle (show u.pending = [] from idle)]
    unfold announceFreed
    split
    · exact taken
    · rw [announce_nobody (show u.advisors = [] from alone)]
      exact taken.unseen rfl rfl (yields_note rfl W u)
  have lost : ((s.count .addRefusal).take g.client g.expanded .refused).1 = g.expanded := freed
  unfold refuseGrant
  dsimp only
  rw [lost]
  obtain broken | ruled := told.record unswayed .refuse g.client g.requested
    (some (refusalDetail g.expanded))
  · split
    · exact .inl broken
    · exact .inl (broken.followUp _)
  · unfold lossCommands
    split
    · exact .inr ruled
    · exact .inr (ruled.followUp running [.retryDeferred])

theorem does_deliver (unswayed : W.Unswayed) {g : Grant} (running : s.phase = .running)
    (alone : s.advisors = []) (idle : s.pending = [])
    (covered : ∀ r ∈ g.expanded, s.table.holder r = some g.client) :
    (s.deliver W g).Broken W ∨
      Does W (.ofReply g (W.answer g.request.client g.requested s.setting.world)) s
        (s.deliver W g) := by
  rcases answer : W.answer g.request.client g.requested s.setting.world with ⟨reply, ss⟩
  obtain ⟨replied, yields⟩ := yields_call unswayed answer
  have called : s.call W g = (reply, (s.call W g).2) := Prod.ext replied rfl
  have refused := does_refuse unswayed (s := (s.call W g).2) running alone idle covered
  unfold deliver
  rw [called]
  cases reply with
  | accept =>
    have kept : Does W
        { area := g.expanded
          heir := g.client
          yield := { calls := [(g, .accept)], submissions := ss } } s (s.call W g).2 := by
      refine ⟨rfl, ?_, yields⟩
      intro r
      split
      · exact covered r ‹_›
      · rfl
    exact (kept.count (f := .addGrant) { grants := 1 } rfl).record unswayed .grant
      g.client g.requested none
  | refuse | breakOff => exact refused.imp_right fun done => done.since yields rfl fun _ _ => rfl

theorem pending_deliver_idle (idle : s.pending = []) (W : World σ) (g : Grant) :
    (s.deliver W g).pending = [] := by
  have bound := length_pending_deliver_le W g s
  rw [idle] at bound
  exact List.length_eq_zero_iff.mp (Nat.le_zero.mp bound)

/-- Without advisors, and with nothing before it, a grant is ready at once. -/
theorem grant_nobody (alone : s.advisors = []) (idle : s.pending = []) (W : World σ) (g : Grant) :
    s.grant W g = (s.noteAll (.locked g :: g.approval)).deliver W g := by
  let u := { s with pending := [g] }.note (.locked g)
  have ready : u.isReady W [] g = (true, u.noteAll g.approval) := by
    unfold isReady Grant.approval
    cases nothing : g.claimed.isEmpty with
    | true => simp [noteAll]
    | false =>
      simp only [List.any_nil, Bool.false_eq_true, if_false]
      exact question_nobody (s := u) alone W .complete g.client g.claimed
  have rest : ({ u.noteAll g.approval with pending := u.pending.eraseIdx 0 } : Allocator σ) =
      s.noteAll (.locked g :: g.approval) := by
    unfold Grant.approval
    cases s
    cases idle
    split <;> rfl
  have idle' : (s.noteAll (.locked g :: g.approval)).pending = [] := by
    rw [pending_noteAll, idle]
  have step : s.grant W g = u.completeIfPrepared W 0 := by
    rw [grant, idle]
    rfl
  have found : u.pending[0]? = some g := rfl
  rw [step, completeIfPrepared, found]
  dsimp only
  rw [List.take_zero, ready]
  dsimp only
  rw [if_pos rfl, pending_noteAll, rest]
  exact releaseBlocked_idle (pending_deliver_idle idle' W g) W g.client

/-! ### Requests -/

theorem expanded_whole (pure : ∀ rs w, (W.expand rs w).1 = some (E rs)) {c : ClientId}
    {rs expanded claimed : ResourceSet}
    (tried : s.tryAllocate W c rs = (some (expanded, claimed), t)) : expanded = E rs := by
  have found : (s.expand W rs).1 = some (E rs) := pure rs s.setting.world
  obtain ⟨none, -⟩ | ⟨xs, ys, same, -, -, ⟨answer, -⟩ | ⟨locked, -, answer⟩⟩ :=
    tryAllocate_expanded tried
  · cases none
  · cases answer
    exact Option.some.inj (same.symm.trans found)
  · cases locked <;> cases answer
    exact Option.some.inj (same.symm.trans found)

theorem tryAllocate_free (pure : ∀ rs w, (W.expand rs w).1 = some (E rs)) (unswayed : W.Unswayed)
    (alone : s.advisors = []) {c : ClientId} {rs : ResourceSet}
    (available : s.table.isAvailableFor (E rs) c = true) :
    ∃ t, s.tryAllocate W c rs = (some (E rs, s.unclaimed c (E rs)), t) ∧ t.phase = s.phase ∧
      Yields W {} s t ∧
      ∀ r, t.table.holder r = if r ∈ E rs then some c else s.table.holder r := by
  rcases tried : s.tryAllocate W c rs with ⟨_ | ⟨expanded, claimed⟩, t⟩
  · have found : (s.expand W rs).1 = some (E rs) := pure rs s.setting.world
    have free := Table.isAvailableFor_iff.mp available
    exact absurd (congrArg Prod.fst tried) (tryAllocate_alone alone found free)
  · obtain rfl := expanded_whole pure tried
    obtain ⟨u, table, asks, rfl, -, claims, holders⟩ := tryAllocate_some tried
    have lacked : claimed = s.unclaimed c (E rs) := by
      apply ResourceSet.ext
      intro r
      simp [claims, unclaimed]
    refine ⟨{ u with table }, by rw [lacked], asks.quietly.phase, ?_, ?_⟩
    · exact (yields_asks unswayed alone asks).quietly (yields_unseen rfl rfl fun _ _ => rfl)
    · intro r
      simp only [holders, claims]
      by_cases member : r ∈ E rs
      · by_cases own : s.table.holder r = some c <;> simp [member, own]
      · simp [member]

theorem tryAllocate_taken (pure : ∀ rs w, (W.expand rs w).1 = some (E rs)) {c : ClientId}
    {rs : ResourceSet} (unavailable : s.table.isAvailableFor (E rs) c = false) :
    (s.tryAllocate W c rs).1 = none := by
  rcases tried : s.tryAllocate W c rs with ⟨_ | ⟨expanded, claimed⟩, t⟩
  · rfl
  · obtain rfl := expanded_whole pure tried
    obtain ⟨-, -, -, -, available, -⟩ := tryAllocate_some tried
    cases unavailable.symm.trans (Table.isAvailableFor_iff.mpr available)

theorem does_grant (unswayed : W.Unswayed) {g : Grant} (running : s.phase = .running)
    (alone : s.advisors = []) (idle : s.pending = [])
    (covered : ∀ r ∈ g.expanded, s.table.holder r = some g.client) :
    (s.grant W g).Broken W ∨
      Does W (.ofReply g (W.answer g.request.client g.requested s.setting.world)) s
        (s.grant W g) := by
  let es := .locked g :: g.approval
  have noted : Yields W {} s (s.noteAll es) := by
    apply yields_noteAll
    intro e he
    rcases List.mem_cons.mp he with rfl | he
    · rfl
    · rw [Grant.eq_prepared_of_approval he]
      rfl
  have table : (s.noteAll es).table = s.table := table_noteAll es s
  have phase : (s.noteAll es).phase = s.phase := congrArg Books.phase (journal_noteAll es s)
  rw [grant_nobody alone idle, ← noted.answers g.request.client g.requested (by simp)]
  obtain broken | done := does_deliver unswayed (phase.trans running)
    (noted.advisors.trans alone) (noted.pending.trans idle) (table ▸ covered)
  · exact .inl broken
  · exact .inr (done.since_unseen noted phase fun r _ => congrArg (·.holder r) table)

theorem does_defer (unswayed : W.Unswayed) (r : Request) (s : Allocator σ) :
    (s.defer W r).Broken W ∨ Does W (.ofDeferral r) s (s.defer W r) := by
  have counted : Yields W { tally := { deferrals := 1 } } s (s.count .addDeferral) :=
    yields_count rfl
  have queued (t : Allocator σ) :
      Yields W { deferred := [r] } t { t with deferred := t.deferred ++ [r] } :=
    ⟨rfl, rfl, rfl, rfl, rfl, rfl, fun _ => .refl _, fun _ _ _ => rfl⟩
  have waits : Does W (.ofDeferral r) s
      ({ s.count .addDeferral with deferred := s.deferred ++ [r] }.note (.deferred r)) := by
    refine ⟨rfl, ?_, (counted.trans (queued _)).quietly (yields_note rfl W _)⟩
    intro a
    exact (if_neg (ResourceSet.not_mem_empty a)).symm
  exact waits.record unswayed .defer r.client.id r.resources none

theorem does_allocate (pure : ∀ rs w, (W.expand rs w).1 = some (E rs)) (unswayed : W.Unswayed)
    (running : s.phase = .running) (alone : s.advisors = []) (idle : s.pending = []) {q : Queued}
    {d : Client} {rs : ResourceSet} (command : q.command = .allocate d rs) :
    (s.process W q).Broken W ∨ Does W (s.deed W E q) s (s.process W q) := by
  unfold process deed
  rw [command]
  dsimp only [allocate]
  cases available : s.table.isAvailableFor (E rs) d.id with
  | false =>
    have refused := tryAllocate_taken pure available
    rcases tried : s.tryAllocate W d.id rs with ⟨answer, t⟩
    rw [tried] at refused
    obtain rfl : answer = none := refused
    have asks := tryAllocate_none tried
    have quiet := asks.quietly
    obtain broken | done := does_defer unswayed ⟨d, rs, q.priority, q.seq⟩ t
    · exact .inl broken
    · refine .inr (done.since_unseen (yields_asks unswayed alone asks) quiet.phase ?_)
      intro r _
      rw [quiet.table]
  | true =>
    obtain ⟨t, tried, phase, yields, holders⟩ :=
      tryAllocate_free pure unswayed alone available
    rw [tried]
    dsimp only
    have covered : ∀ r ∈ E rs, t.table.holder r = some d.id := by
      intro r member
      rw [holders, if_pos member]
    let g : Grant := ⟨⟨d, rs, q.priority, q.seq⟩, E rs, s.unclaimed d.id (E rs)⟩
    obtain broken | done := does_grant (g := g) unswayed (phase.trans running)
      (yields.advisors.trans alone) (yields.pending.trans idle) covered
    · exact .inl broken
    · rw [yields.answers g.request.client g.requested (by simp)] at done
      refine .inr (done.since_unseen yields phase ?_)
      intro r outside
      rw [Deed.area_ofReply] at outside
      rw [holders, if_neg outside]

/-- The resources that a request, a free or a free of everything is about. -/
def footprint (E : ResourceSet → ResourceSet) (s : Allocator σ) : Command → Option ResourceSet
  | .allocate _ rs => some (E rs)
  | .free c rs => some (s.table.heldOf c rs)
  | .freeAll c => some (s.table.allocationsOf c)
  | _ => none

theorem does_process (pure : ∀ rs w, (W.expand rs w).1 = some (E rs)) (unswayed : W.Unswayed)
    (running : s.phase = .running) (alone : s.advisors = []) (idle : s.pending = []) {q : Queued}
    {xs : ResourceSet} (about : s.footprint E q.command = some xs) :
    (s.process W q).Broken W ∨ Does W (s.deed W E q) s (s.process W q) := by
  cases command : q.command with
  | allocate d rs => exact does_allocate pure unswayed running alone idle command
  | free c rs =>
    unfold process deed
    rw [command]
    exact does_free unswayed running idle rs
  | freeAll c =>
    have all : s.table.heldOf c (s.table.allocationsOf c) = s.table.allocationsOf c := by
      apply ResourceSet.ext
      intro r
      simp
    have done := does_free (c := c) unswayed running idle (s.table.allocationsOf c)
    rw [all] at done
    unfold process deed
    rw [command]
    exact done
  | _ =>
    rw [command] at about
    cases about

/-- The allocator serves a command that it has at hand, as a step serves the one it takes. -/
def serve (W : World σ) (q : Queued) (s : Allocator σ) : Allocator σ :=
  if s.isRunning then (s.accept q s.setting.queue).process W q else s

/-- Unless the sink breaks under it, what a command does is its deed. -/
theorem does_serve (pure : ∀ rs w, (W.expand rs w).1 = some (E rs)) (unswayed : W.Unswayed)
    (running : s.phase = .running) (alone : s.advisors = []) (idle : s.pending = []) {q : Queued}
    {xs : ResourceSet} (about : s.footprint E q.command = some xs) :
    (s.serve W q).Broken W ∨ Does W (s.deed W E q).served s (s.serve W q) := by
  have counted : Yields W { tally := { processed := 1 } } s (s.count .addProcessed) :=
    yields_count rfl
  have taken := counted.quietly (yields_note (e := .took q) rfl W _)
  rw [serve, if_pos (isRunning_iff.mpr running)]
  obtain broken | done := does_process (s := s.accept q s.setting.queue) pure unswayed running
    alone idle about
  · exact .inl broken
  · exact .inr (done.since taken rfl fun _ _ => rfl)

/-! ### Between two commands -/

theorem pending_process_idle (alone : s.advisors = []) (idle : s.pending = []) (W : World σ)
    (q : Queued) : (s.process W q).pending = [] := by
  have freed (c : ClientId) (rs : ResourceSet) : (s.free W c rs).pending = [] := by
    have kept : (s.take c rs .asked).2.pending = [] := idle
    unfold free afterFree
    dsimp only
    rw [cancelOrphaned_idle kept, releaseBlocked_idle kept]
    split
    · exact kept
    · simpa using kept
  unfold process
  cases q.command with
  | allocate d rs =>
    dsimp only [allocate]
    rcases tried : s.tryAllocate W d.id rs with ⟨_ | ⟨expanded, claimed⟩, t⟩
    · exact (pending_defer ..).trans ((tryAllocate_none tried).quietly.pending.trans idle)
    · obtain ⟨u, table, asks, rfl, -⟩ := tryAllocate_some tried
      have nobody : u.advisors = [] := by
        have names := asks.names
        rw [alone] at names
        exact List.map_eq_nil_iff.mp names
      have idle' : u.pending = [] := asks.quietly.pending.trans idle
      dsimp only
      rw [grant_nobody (s := { u with table }) nobody idle']
      apply pending_deliver_idle
      rw [pending_noteAll]
      exact idle'
  | checkPrepared c rs =>
    dsimp only [checkPrepared]
    rw [idle, List.findIdx?_nil]
    exact idle
  | free c rs => exact freed c rs
  | freeAll c => exact freed c (s.table.allocationsOf c)
  | released | retryDeferred | withdraw => simpa using idle
  | snapshot => exact idle
  | shutdown => rfl

/-- Without advisors nothing is tentative between two commands. -/
theorem settled_run (W : World σ) (sink : AuditSink) (w : σ) (hs : List (Happening σ)) :
    let s := (initial [] sink w).run W hs
    s.advisors = [] ∧ s.pending = [] := by
  have nobody (hs : List (Happening σ)) : ((initial [] sink w).run W hs).advisors = [] :=
    List.map_eq_nil_iff.mp (names_run W (initial [] sink w) hs)
  refine ⟨nobody hs, ?_⟩
  induction hs using List.reverseRecOn with
  | nil => rfl
  | append_singleton hs h ih =>
    rw [run_append]
    cases h with
    | submit x => exact ih
    | poll number task o => exact ih
    | shift w => exact ih
    | step =>
      show (step W _).pending = []
      unfold step
      split
      · split
        · exact ih
        · rename_i q rest _
          exact pending_process_idle (s := accept q rest _) (nobody hs) ih W q
      · exact ih

end Allocator

end Allotment
