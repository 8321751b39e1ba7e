import Allotment.Proofs.Responses

/-!
# Faults are refusals

An advisor that errs or breaks off, and a client that breaks off, might as well have refused. For
every history there is one without faults that shows the same at every point: advisors and clients
are replaced by ones that do all that they do, but never fail (`World.hushed`).
-/

namespace Allotment

variable {σ τ : Type}

/-! ### Refusing instead of failing -/

/-- How an advisor turns something down, or takes note of it, without failing. -/
def Hook.refusal (e : AdvisorError) : Hook → Answer
  | may | complete => .no
  | prepare => .error e
  | released => .done

namespace Answer

def isFault : Answer → Bool
  | error _ | brokeOff => true
  | yes | no | done => false

/-- The answer in place of which a fault stands. -/
def hushed (e : AdvisorError) (h : Hook) (a : Answer) : Answer :=
  if a.isFault then h.refusal e else a

theorem approves_hushed (e : AdvisorError) {h : Hook} (asks : h ≠ .released) (a : Answer) :
    (a.hushed e h).approves = a.approves := by
  cases h <;> cases a <;> first | rfl | exact absurd rfl asks

end Answer

def Reply.hushed : Reply → Reply
  | breakOff => refuse
  | reply => reply

namespace Event

/-- The entry in place of which that of a fault stands. -/
def hushed (e : AdvisorError) : Event → Event
  | advised tag h c rs answer => advised tag h c rs (answer.hushed e h)
  | called g reply => called g reply.hushed
  | entry => entry

/-- No advisor errs, unless it has no other way to say no, and no client breaks off. -/
def Faultless (e : AdvisorError) : Event → Prop
  | advised _ h _ _ answer => answer.isFault = true → h = .prepare ∧ answer = .error e
  | called _ reply => reply ≠ .breakOff
  | _ => True

theorem faultless_hushed (e : AdvisorError) (f : Event) : (f.hushed e).Faultless e := by
  cases f with
  | advised tag h c rs answer =>
    intro fault
    cases h <;> cases answer <;> first | exact ⟨rfl, rfl⟩ | cases fault
  | called g reply =>
    show reply.hushed ≠ .breakOff
    cases reply <;> simp [Reply.hushed]
  | _ => trivial

theorem faultless_of_outlined {e : AdvisorError} {f : Event}
    (h : ∀ g, f.outlined = some g → g.Faultless e) : f.Faultless e := by
  cases f with
  | advised tag hook c rs answer => exact h (.advised (.outside tag.name) hook c rs answer) rfl
  | called g reply => exact h (.called g reply) rfl
  | _ => trivial

end Event

/-- A world in which nobody fails. Its advisors are known by their places among some advisors, and
each responds as the one in its place would, up to faults. -/
def World.hushed (e : AdvisorError) (W : World σ) : World (List Advisor × σ) where
  expand rs v :=
    let (expanded, w) := W.expand rs v.2
    (expanded, v.1, w)
  advise n h c rs v :=
    match v.1[n]? with
    | none => (.yes, [], v)
    | some a =>
      let (answer, submissions, a, w) := a.respond W h c rs v.2
      (answer.hushed e h, submissions, v.1.set n a, w)
  tasks _ _ v := ([], v)
  call d rs v :=
    let (reply, submissions, w) := W.call d rs v.2
    (reply.hushed, submissions, v.1, w)
  audit a v :=
    let (survives, w) := W.audit a v.2
    (survives, v.1, w)
  stamp v :=
    let (stamp, w) := W.stamp v.2
    (stamp, v.1, w)

/-- Advisors of the world in the places from `n` on. -/
def standIns : Nat → List Advisor → List Advisor
  | _, [] => []
  | n, a :: as => .outside n a.name :: standIns (n + 1) as

/-! ### Two settings side by side -/

namespace Setting

variable {x : Setting σ} {ss : List Submission} {es : List Event}

/-- What stands in for the advisors in `y` is up to date with `x`, and shows what `x` shows. -/
structure Echoes (e : AdvisorError) (as : List Advisor) (x : Setting σ)
    (y : Setting (List Advisor × σ)) : Prop where
  world : y.world = (as, x.world)
  queue : y.queue = x.queue
  entered : y.journal.entered = x.journal.entered
  outline : y.journal.outline = x.journal.outline.map (Event.hushed e)

variable {e : AdvisorError} {as bs : List Advisor} {y y' : Setting (List Advisor × σ)}
  {x' : Setting σ}

theorem Echoes.leads (echo : Echoes e as x y) (h : Leads x x' ss es)
    (k : Leads y y' ss (es.map (Event.hushed e))) (world : y'.world = (bs, x'.world)) :
    Echoes e bs x' y' := by
  obtain ⟨queue, entered⟩ := submitAll_congr echo.queue echo.entered ss
  refine ⟨world, ?_, ?_, ?_⟩
  · rw [k.queue, queue, h.queue]
  · rw [k.entered, entered, h.entered]
  · rw [k.outline, echo.outline, h.outline, List.map_append]

theorem Echoes.note (echo : Echoes e as x y) {f g : Event} (silent : Journal.entered [f] = [])
    (silent' : Journal.entered [g] = [])
    (shown : Journal.outline [g] = (Journal.outline [f]).map (Event.hushed e)) :
    Echoes e as (x.note f) (y.note g) :=
  echo.leads (leads_note silent x) (shown ▸ leads_note silent' y) echo.world

theorem Echoes.submitAll (echo : Echoes e as x y) (ss : List Submission) :
    Echoes e as (x.submitAll ss) (y.submitAll ss) :=
  echo.leads (leads_submitAll x ss) (leads_submitAll y ss) (by simp [echo.world])

theorem Echoes.turn (echo : Echoes e as x y) (bs : List Advisor) (w : σ) :
    Echoes e bs { x with world := w } { y with world := (bs, w) } :=
  ⟨rfl, echo.queue, echo.entered, echo.outline⟩

theorem ask_echoes (W : World σ) (h : Hook) (c : ClientId) (rs : ResourceSet)
    {before after : List Advisor} {a : Advisor} (echo : Echoes e (before ++ a :: after) x y) :
    let asked := Advisor.ask W h c rs a x
    let echoed := Advisor.ask (W.hushed e) h c rs (.outside before.length a.name) y
    echoed.1 = asked.1.hushed e h ∧ echoed.2.1 = .outside before.length asked.2.1.name ∧
      Echoes e (before ++ asked.2.1 :: after) asked.2.2 echoed.2.2 := by
  intro asked echoed
  let r := a.respond W h c rs x.world
  obtain ⟨answer, advisor, world, name, leads⟩ := ask_responds W h c rs a x
  have echoes := ask_responds (W.hushed e) h c rs (.outside before.length a.name) y
  have response : Advisor.respond (W.hushed e) h c rs y.world (.outside before.length a.name) =
      (r.1.hushed e h, r.2.1, .outside before.length a.name, before ++ r.2.2.1 :: after,
        r.2.2.2) := by
    simp [Advisor.respond, World.hushed, echo.world, r]
  rw [response] at echoes
  obtain ⟨answer', advisor', world', -, leads'⟩ := echoes
  refine ⟨answer'.trans (congrArg (Answer.hushed e h) answer.symm), ?_, echo.leads leads leads' ?_⟩
  · rw [show echoed.2.1 = _ from advisor', show asked.2.1 = _ from advisor, name]
  · rw [show echoed.2.2.world = _ from world', show asked.2.1 = _ from advisor,
      show asked.2.2.world = _ from world]

theorem consult_echoes (W : World σ) {h : Hook} (asks : h ≠ .released) (c : ClientId)
    (rs : ResourceSet) (before as : List Advisor) (echo : Echoes e (before ++ as) x y) :
    let p := Chain.consult (Advisor.ask W h c rs) as x
    let q := Chain.consult (Advisor.ask (W.hushed e) h c rs) (standIns before.length as) y
    q.1 = p.1 ∧ q.2.1 = standIns before.length p.2.1 ∧ Echoes e (before ++ p.2.1) p.2.2 q.2.2 := by
  induction as generalizing before x y with
  | nil => exact ⟨rfl, rfl, echo⟩
  | cons a as ih =>
    obtain ⟨answer, advisor, next⟩ := ask_echoes W h c rs echo
    simp only [standIns, Chain.consult]
    rw [answer, Answer.approves_hushed e asks]
    split
    · obtain ⟨approved, advisors, last⟩ := ih (before ++ [(Advisor.ask W h c rs a x).2.1])
        (by simpa using next)
      rw [List.length_append, List.length_singleton] at approved advisors last
      refine ⟨approved, ?_, by simpa using last⟩
      rw [advisor, advisors]
      rfl
    · refine ⟨rfl, ?_, next⟩
      rw [advisor]
      rfl

theorem notify_echoes (W : World σ) (c : ClientId) (rs : ResourceSet) (before as : List Advisor)
    (echo : Echoes e (before ++ as) x y) :
    let p := Chain.notify (Advisor.ask W .released c rs) as x
    let q := Chain.notify (Advisor.ask (W.hushed e) .released c rs) (standIns before.length as) y
    q.1 = standIns before.length p.1 ∧ Echoes e (before ++ p.1) p.2 q.2 := by
  induction as generalizing before x y with
  | nil => exact ⟨rfl, echo⟩
  | cons a as ih =>
    obtain ⟨-, advisor, next⟩ := ask_echoes W .released c rs echo
    simp only [standIns, Chain.notify]
    obtain ⟨advisors, last⟩ := ih (before ++ [(Advisor.ask W .released c rs a x).2.1])
      (by simpa using next)
    rw [List.length_append, List.length_singleton] at advisors last
    refine ⟨?_, by simpa using last⟩
    rw [advisor, advisors]

end Setting

namespace Allocator

/-! ### Two allocators side by side -/

/-- `t` shows what `s` shows, with others standing in for its advisors. -/
structure Alike (e : AdvisorError) (s : Allocator σ) (t : Allocator (List Advisor × σ)) : Prop where
  table : t.table = s.table
  deferred : t.deferred = s.deferred
  pending : t.pending = s.pending
  advisors : t.advisors = standIns 0 s.advisors
  counters : t.counters = s.counters
  phase : t.phase = s.phase
  sink : t.sink = s.sink
  setting : s.setting.Echoes e s.advisors t.setting

/-- The same comes of two operations, and alike allocators. -/
def Agree {α : Type} (e : AdvisorError) (p : α × Allocator σ)
    (q : α × Allocator (List Advisor × σ)) : Prop := q.1 = p.1 ∧ Alike e p.2 q.2

theorem Agree.exists {α : Type} {e : AdvisorError} {p : α × Allocator σ}
    {q : α × Allocator (List Advisor × σ)} (h : Agree e p q) :
    ∃ a s t, p = (a, s) ∧ q = (a, t) ∧ Alike e s t :=
  ⟨p.1, p.2, q.2, rfl, Prod.ext h.1 rfl, h.2⟩

section
variable {e : AdvisorError} {s : Allocator σ} {t : Allocator (List Advisor × σ)}

/-- Alike allocators differ only in their advisors, in the world and in the journal. -/
theorem Alike.exists (h : Alike e s t) :
    ∃ j : Journal, t = ⟨s.table, s.deferred, s.pending, standIns 0 s.advisors, s.counters, s.phase,
      s.sink, (s.advisors, s.setting.world), s.setting.queue, j⟩ := by
  obtain ⟨table, deferred, pending, advisors, counters, phase, sink, world, queue, j⟩ := t
  obtain ⟨rfl, rfl, rfl, rfl, rfl, rfl, rfl, world, queue, -, -⟩ := h
  cases world
  cases queue
  exact ⟨j, rfl⟩

theorem Alike.isRunning (h : Alike e s t) : t.isRunning = s.isRunning := by
  unfold Allocator.isRunning
  rw [h.phase]

/-! ### Calls to the outside -/

/-- An entry that shows no answer is the same on both sides. -/
theorem Alike.note (h : Alike e s t) {f : Event} (silent : Journal.entered [f] = [])
    (shown : (Journal.outline [f]).map (Event.hushed e) = Journal.outline [f]) :
    Alike e (s.note f) (t.note f) :=
  ⟨h.table, h.deferred, h.pending, h.advisors, h.counters, h.phase, h.sink,
    h.setting.note silent silent shown.symm⟩

theorem Alike.noteAll (h : Alike e s t) (fs : List Event)
    (plain : ∀ f ∈ fs, Journal.entered [f] = [] ∧
      (Journal.outline [f]).map (Event.hushed e) = Journal.outline [f]) :
    Alike e (s.noteAll fs) (t.noteAll fs) := by
  induction fs generalizing s t with
  | nil => exact h
  | cons f fs ih =>
    obtain ⟨first, rest⟩ := List.forall_mem_cons.mp plain
    exact ih (h.note first.1 first.2) rest

theorem Alike.count (h : Alike e s t) (f : Counters → Counters) :
    Alike e (s.count f) (t.count f) :=
  ⟨h.table, h.deferred, h.pending, h.advisors, congrArg f h.counters, h.phase, h.sink, h.setting⟩

theorem Alike.followUp (h : Alike e s t) (cs : List Command) :
    Alike e (s.followUp cs) (t.followUp cs) := by
  unfold Allocator.followUp
  rw [h.isRunning]
  split
  · exact ⟨h.table, h.deferred, h.pending, h.advisors, h.counters, h.phase, h.sink,
      h.setting.submitAll _⟩
  · exact h

theorem Alike.expand (W : World σ) (h : Alike e s t) (rs : ResourceSet) :
    Agree e (s.expand W rs) (t.expand (W.hushed e) rs) := by
  obtain ⟨j, rfl⟩ := h.exists
  exact ⟨rfl, rfl, rfl, rfl, rfl, rfl, rfl, rfl,
    (h.setting.note (f := .expanding rs) rfl rfl rfl).turn s.advisors _⟩

theorem Alike.question (W : World σ) (h : Alike e s t) (hook : Hook) (asks : hook ≠ .released)
    (c : ClientId) (rs : ResourceSet) :
    Agree e (s.question W hook c rs) (t.question (W.hushed e) hook c rs) := by
  have asked := Setting.consult_echoes W asks c rs [] s.advisors h.setting
  unfold Allocator.question Chain.question
  rw [h.advisors]
  dsimp only [List.length_nil, List.nil_append] at asked ⊢
  generalize Chain.consult (Advisor.ask W hook c rs) s.advisors s.setting = p at asked ⊢
  generalize Chain.consult (Advisor.ask (W.hushed e) hook c rs) (standIns 0 s.advisors)
    t.setting = q at asked ⊢
  obtain ⟨approved, advisors, y⟩ := q
  obtain ⟨rfl, rfl, echo⟩ := asked
  exact ⟨rfl, h.table, h.deferred, h.pending, rfl, h.counters, h.phase, h.sink,
    echo.note rfl rfl rfl⟩

theorem Alike.announce (W : World σ) (h : Alike e s t) (c : ClientId) (rs : ResourceSet) :
    Alike e (s.announce W c rs) (t.announce (W.hushed e) c rs) := by
  obtain ⟨advisors, echo⟩ := Setting.notify_echoes W c rs [] s.advisors h.setting
  unfold Allocator.announce Chain.announce
  rw [h.advisors]
  exact ⟨h.table, h.deferred, h.pending, advisors, h.counters, h.phase, h.sink,
    echo.note rfl rfl rfl⟩

theorem Alike.call (W : World σ) (h : Alike e s t) (g : Grant) :
    (t.call (W.hushed e) g).1 = (s.call W g).1.hushed ∧
      Alike e (s.call W g).2 (t.call (W.hushed e) g).2 := by
  obtain ⟨j, rfl⟩ := h.exists
  exact ⟨rfl, rfl, rfl, rfl, rfl, rfl, rfl, rfl,
    ((h.setting.turn s.advisors _).note (f := .called g _) rfl rfl rfl).submitAll _⟩

theorem Alike.recordEvent (W : World σ) (h : Alike e s t) (a : AuditEvent) :
    Alike e (s.recordEvent W a) (t.recordEvent (W.hushed e) a) := by
  obtain ⟨j, rfl⟩ := h.exists
  unfold Allocator.recordEvent
  dsimp only
  split
  · exact h
  · exact ⟨rfl, rfl, rfl, rfl, rfl, rfl, rfl, h.setting⟩
  · exact ⟨rfl, rfl, rfl, rfl, rfl, rfl, rfl,
      (h.setting.note (f := .audited a) rfl rfl rfl).turn s.advisors _⟩

theorem Alike.record (W : World σ) (h : Alike e s t) (d : Decision) (c : ClientId)
    (rs : ResourceSet) (detail : Option String) :
    Alike e (s.record W d c rs detail) (t.record (W.hushed e) d c rs detail) := by
  obtain ⟨j, rfl⟩ := h.exists
  exact Alike.recordEvent W ⟨rfl, rfl, rfl, rfl, rfl, rfl, rfl,
    (h.setting.note (f := .decided d c rs detail) rfl rfl rfl).turn s.advisors _⟩ _

/-! ### The books -/

theorem Alike.take (h : Alike e s t) (c : ClientId) (rs : ResourceSet) (cause : FreeCause) :
    Agree e (s.take c rs cause) (t.take c rs cause) := by
  obtain ⟨j, rfl⟩ := h.exists
  exact ⟨rfl, rfl, rfl, rfl, rfl, rfl, rfl, rfl, h.setting.note (f := .freed c _ cause) rfl rfl rfl⟩

/-- Alike allocators stay so if the same is done to their books. -/
theorem Alike.withPending (h : Alike e s t) (gs : List Grant) :
    Alike e { s with pending := gs } { t with pending := gs } :=
  ⟨h.table, h.deferred, rfl, h.advisors, h.counters, h.phase, h.sink, h.setting⟩

theorem Alike.withDeferred (h : Alike e s t) (rs : List Request) :
    Alike e { s with deferred := rs } { t with deferred := rs } :=
  ⟨h.table, rfl, h.pending, h.advisors, h.counters, h.phase, h.sink, h.setting⟩

theorem Alike.withTable (h : Alike e s t) (table : Table) :
    Alike e { s with table } { t with table } :=
  ⟨rfl, h.deferred, h.pending, h.advisors, h.counters, h.phase, h.sink, h.setting⟩

theorem Alike.cancelOrphaned (h : Alike e s t) (c : ClientId) :
    Alike e (s.cancelOrphaned c) (t.cancelOrphaned c) := by
  obtain ⟨j, rfl⟩ := h.exists
  refine (h.withPending _).noteAll _ fun f hf => ?_
  obtain ⟨g, -, rfl⟩ := List.mem_map.mp hf
  exact ⟨rfl, rfl⟩

/-! ### Delivering -/

theorem Alike.isReady (W : World σ) (h : Alike e s t) (earlier : List Grant) (g : Grant) :
    Agree e (s.isReady W earlier g) (t.isReady (W.hushed e) earlier g) := by
  unfold Allocator.isReady
  split
  · exact ⟨rfl, h⟩
  · split
    · exact ⟨rfl, h⟩
    · exact h.question W .complete (by simp) g.client g.claimed

theorem Alike.firstReady (W : World σ) (h : Alike e s t) (c : ClientId) (seen rest : List Grant) :
    Agree e (firstReady W c seen rest s) (firstReady (W.hushed e) c seen rest t) := by
  induction rest generalizing seen s t with
  | nil => exact ⟨rfl, h⟩
  | cons g rest ih =>
    unfold Allocator.firstReady
    split
    · obtain ⟨ready, u, v, left, right, next⟩ := (h.isReady W seen g).exists
      rw [left, right]
      cases ready with
      | true => exact ⟨rfl, next⟩
      | false => exact ih next (seen ++ [g])
    · exact ih h (seen ++ [g])

theorem Alike.announceFreed (W : World σ) (h : Alike e s t) (c : ClientId) (freed : ResourceSet) :
    Alike e (s.announceFreed W c freed) (t.announceFreed (W.hushed e) c freed) := by
  unfold Allocator.announceFreed
  split
  · exact h
  · exact h.announce W c freed

theorem Alike.refuseGrant (W : World σ) (h : Alike e s t) (g : Grant) :
    Alike e (s.refuseGrant W g) (t.refuseGrant (W.hushed e) g) := by
  obtain ⟨freed, u, v, left, right, next⟩ :=
    ((h.count .addRefusal).take g.client g.expanded .refused).exists
  have told := (((next.cancelOrphaned g.client).announceFreed W g.client freed).record W .refuse
    g.client g.requested (some (refusalDetail freed)))
  unfold Allocator.refuseGrant
  rw [left, right]
  dsimp only
  split
  · exact told
  · exact told.followUp _

theorem Alike.deliver (W : World σ) (h : Alike e s t) (g : Grant) :
    Alike e (s.deliver W g) (t.deliver (W.hushed e) g) := by
  obtain ⟨replies, next⟩ := h.call W g
  unfold Allocator.deliver
  rcases left : s.call W g with ⟨reply, u⟩
  rcases right : t.call (W.hushed e) g with ⟨reply', v⟩
  rw [left, right] at replies next
  obtain rfl : reply' = reply.hushed := replies
  cases reply with
  | accept => exact (Alike.count next .addGrant).record W .grant g.client g.requested none
  | refuse => exact Alike.refuseGrant W next g
  | breakOff => exact Alike.refuseGrant W next g

theorem releaseBlocked_none {W : World σ} {c : ClientId} {s u : Allocator σ}
    (running : s.isRunning = true) (found : Allocator.firstReady W c [] s.pending s = (none, u)) :
    s.releaseBlocked W c = u := by
  rw [Allocator.releaseBlocked, if_pos running]
  split <;> rename_i same <;> rw [found] at same <;> cases same
  rfl

theorem releaseBlocked_some {W : World σ} {c : ClientId} {s u : Allocator σ}
    {before after : List Grant} {g : Grant} (running : s.isRunning = true)
    (found : Allocator.firstReady W c [] s.pending s = (some (before, g, after), u)) :
    s.releaseBlocked W c =
      ({ u with pending := before ++ after }.deliver W g).releaseBlocked W c := by
  rw [Allocator.releaseBlocked, if_pos running]
  split <;> rename_i same <;> rw [found] at same <;> cases same
  rfl

theorem Alike.releaseBlocked (W : World σ) (h : Alike e s t) (c : ClientId) :
    Alike e (s.releaseBlocked W c) (t.releaseBlocked (W.hushed e) c) := by
  -- Both look for the first grant that is ready, and find the same one.
  have looked {s : Allocator σ} {t : Allocator (List Advisor × σ)} (h : Alike e s t) :=
    (h.firstReady W c [] s.pending).exists
  fun_induction Allocator.releaseBlocked W c s generalizing t with
  | case1 s running u found =>
    obtain ⟨found', u', v, left, right, next⟩ := looked h
    cases found.symm.trans left
    rw [← h.pending] at right
    rw [releaseBlocked_none (h.isRunning.trans running) right]
    exact next
  | case2 s running before g after u found _ ih =>
    obtain ⟨found', u', v, left, right, next⟩ := looked h
    cases found.symm.trans left
    rw [← h.pending] at right
    rw [releaseBlocked_some (h.isRunning.trans running) right]
    exact ih ((next.withPending _).deliver W g)
  | case3 s stopped =>
    rw [Allocator.releaseBlocked, if_neg (h.isRunning ▸ stopped)]
    exact h

theorem Alike.completeIfPrepared (W : World σ) (h : Alike e s t) (i : Nat) :
    Alike e (s.completeIfPrepared W i) (t.completeIfPrepared (W.hushed e) i) := by
  unfold Allocator.completeIfPrepared
  rw [h.pending]
  split
  · exact h
  · rename_i g _
    obtain ⟨ready, u, v, left, right, next⟩ := (h.isReady W (s.pending.take i) g).exists
    rw [left, right]
    cases ready with
    | false => exact next
    | true =>
      dsimp only
      rw [next.pending]
      exact ((next.withPending _).deliver W g).releaseBlocked W g.client

/-! ### Serving a command -/

theorem Alike.lock (W : World σ) (h : Alike e s t) (c : ClientId) (claimed : ResourceSet) :
    Agree e (s.lock W c claimed) (t.lock (W.hushed e) c claimed) := by
  unfold Allocator.lock
  rw [h.table]
  split
  · exact ⟨rfl, h.withTable _⟩
  · exact ⟨rfl, (h.withTable _).announce W c claimed⟩

theorem Alike.claim (W : World σ) (h : Alike e s t) (c : ClientId) (claimed : ResourceSet) :
    Agree e (s.claim W c claimed) (t.claim (W.hushed e) c claimed) := by
  obtain ⟨allowed, u, v, left, right, next⟩ :=
    (h.question W .may (by simp) c claimed).exists
  unfold Allocator.claim
  rw [left, right]
  cases allowed with
  | false => exact ⟨rfl, next⟩
  | true =>
    obtain ⟨prepared, u', v', left, right, last⟩ :=
      (next.question W .prepare (by simp) c claimed).exists
    dsimp only
    rw [left, right]
    cases prepared with
    | false => exact ⟨rfl, last.announce W c claimed⟩
    | true => exact last.lock W c claimed

theorem Alike.tryAllocate (W : World σ) (h : Alike e s t) (c : ClientId) (rs : ResourceSet) :
    Agree e (s.tryAllocate W c rs) (t.tryAllocate (W.hushed e) c rs) := by
  obtain ⟨expanded, u, v, left, right, next⟩ := (h.expand W rs).exists
  unfold Allocator.tryAllocate
  rw [left, right]
  cases expanded with
  | none => exact ⟨rfl, next⟩
  | some expanded =>
    have claimed : v.unclaimed c expanded = u.unclaimed c expanded := by
      unfold unclaimed
      rw [next.table]
    dsimp only
    rw [next.table, claimed]
    split
    · split
      · exact ⟨rfl, next⟩
      · obtain ⟨locked, u', v', left, right, last⟩ :=
          (next.claim W c (u.unclaimed c expanded)).exists
        rw [left, right]
        cases locked <;> exact ⟨rfl, last⟩
    · exact ⟨rfl, next⟩

theorem Alike.defer (W : World σ) (h : Alike e s t) (r : Request) :
    Alike e (s.defer W r) (t.defer (W.hushed e) r) := by
  unfold Allocator.defer
  rw [h.deferred]
  exact (((h.count .addDeferral).withDeferred _).note rfl rfl).record W .defer r.client.id
    r.resources none

theorem Alike.grant (W : World σ) (h : Alike e s t) (g : Grant) :
    Alike e (s.grant W g) (t.grant (W.hushed e) g) := by
  unfold Allocator.grant
  rw [h.pending]
  exact ((h.withPending _).note rfl rfl).completeIfPrepared W _

theorem Alike.allocate (W : World σ) (h : Alike e s t) (r : Request) :
    Alike e (s.allocate W r) (t.allocate (W.hushed e) r) := by
  obtain ⟨answer, u, v, left, right, next⟩ :=
    (h.tryAllocate W r.client.id r.resources).exists
  unfold Allocator.allocate
  rw [left, right]
  cases answer with
  | none => exact next.defer W r
  | some sets => exact next.grant W _

theorem Alike.checkPrepared (W : World σ) (h : Alike e s t) (c : ClientId) (rs : ResourceSet) :
    Alike e (s.checkPrepared W c rs) (t.checkPrepared (W.hushed e) c rs) := by
  unfold Allocator.checkPrepared
  rw [h.pending]
  split
  · exact h
  · exact h.completeIfPrepared W _

theorem Alike.retryDeferred (h : Alike e s t) : Alike e s.retryDeferred t.retryDeferred := by
  obtain ⟨j, rfl⟩ := h.exists
  have noted := h.setting.note (f := .retried s.deferred) (g := .retried s.deferred) rfl rfl rfl
  unfold Allocator.retryDeferred
  dsimp only
  split
  · exact h
  · exact ⟨rfl, rfl, rfl, rfl, rfl, rfl, rfl, noted.world, rfl, noted.entered, noted.outline⟩

theorem Alike.afterFree (W : World σ) (h : Alike e s t) (c : ClientId) (freed : ResourceSet) :
    Alike e (s.afterFree W c freed) (t.afterFree (W.hushed e) c freed) := by
  have released := (h.cancelOrphaned c).releaseBlocked W c
  unfold Allocator.afterFree
  dsimp only
  rw [released.isRunning]
  split
  · exact released
  · exact ((released.count .addFree).record W .free c freed none).followUp _

theorem Alike.free (W : World σ) (h : Alike e s t) (c : ClientId) (rs : ResourceSet) :
    Alike e (s.free W c rs) (t.free (W.hushed e) c rs) := by
  obtain ⟨freed, u, v, left, right, next⟩ := (h.take c rs .asked).exists
  unfold Allocator.free
  rw [left, right]
  exact next.afterFree W c freed

theorem Alike.withdraw (W : World σ) (h : Alike e s t) (c : ClientId) :
    Alike e (s.withdraw W c) (t.withdraw (W.hushed e) c) := by
  have dropped := (h.withDeferred (s.deferred.filter fun r => !(r.client.id == c))).noteAll
    ((s.deferred.filter (·.client.id == c)).map .withdrawn) fun f hf => by
      obtain ⟨r, -, rfl⟩ := List.mem_map.mp hf
      exact ⟨rfl, rfl⟩
  unfold Allocator.withdraw
  rw [h.deferred]
  dsimp only
  split
  · exact dropped
  · exact dropped.record W _ _ _ _

theorem Alike.terminate (h : Alike e s t) : Alike e s.terminate t.terminate := by
  obtain ⟨j, rfl⟩ := h.exists
  have noted := h.setting.note (f := .stopped s.setting.queue.waiting s.deferred s.pending)
    (g := .stopped s.setting.queue.waiting s.deferred s.pending) rfl rfl rfl
  exact ⟨rfl, rfl, rfl, rfl, rfl, rfl, rfl, noted.world, rfl, noted.entered, noted.outline⟩

theorem Alike.process (W : World σ) (h : Alike e s t) (q : Queued) :
    Alike e (s.process W q) (t.process (W.hushed e) q) := by
  unfold Allocator.process
  cases q.command with
  | allocate c rs => exact h.allocate W _
  | released c rs => exact h.announce W c rs
  | checkPrepared c rs => exact h.checkPrepared W c rs
  | retryDeferred => exact h.retryDeferred
  | free c rs => exact h.free W c rs
  | freeAll c =>
    show Alike e (s.free W c _) (t.free (W.hushed e) c _)
    rw [h.table]
    exact h.free W c _
  | withdraw c => exact h.withdraw W c
  | snapshot =>
    have same : t.snapshot = s.snapshot := by
      unfold snapshot
      rw [h.table, h.deferred, h.pending]
    dsimp only
    rw [same]
    exact h.note rfl rfl
  | shutdown => exact h.terminate

theorem Alike.accept (h : Alike e s t) (q : Queued) (rest : Queue) :
    Alike e (s.accept q rest) (t.accept q rest) := by
  have noted := h.setting.note (f := .took q) (g := .took q) rfl rfl rfl
  obtain ⟨j, rfl⟩ := h.exists
  exact ⟨rfl, rfl, rfl, rfl, rfl, rfl, rfl, noted.world, rfl, noted.entered, noted.outline⟩

theorem Alike.step (W : World σ) (h : Alike e s t) : Alike e (s.step W) (t.step (W.hushed e)) := by
  unfold Allocator.step
  rw [h.isRunning, h.setting.queue]
  split
  · split
    · exact h
    · exact (h.accept _ _).process W _
  · exact h

end

/-! ### Histories -/

/-- What happens to `s`, as it happens where others stand in for its advisors: what gates report is
submitted by the world. -/
def echo (s : Allocator σ) : Happening σ → List (Happening (List Advisor × σ))
  | .submit x => [.submit x]
  | .step => [.step]
  | .poll number i o =>
    let (ss, as) := Advisor.polled number i o s.advisors
    .shift (as, s.setting.world) :: ss.map .submit
  | .shift w => [.shift (s.advisors, w)]

def echoes (W : World σ) : Allocator σ → List (Happening σ) → List (Happening (List Advisor × σ))
  | _, [] => []
  | s, h :: hs => s.echo h ++ echoes W (s.apply W h) hs

section
variable {e : AdvisorError} {s : Allocator σ} {t : Allocator (List Advisor × σ)}

theorem standIns_polled (number i : Nat) (o : Option GateOutcome) (as : List Advisor) (n : Nat) :
    standIns n (Advisor.polled number i o as).2 = standIns n as := by
  induction as generalizing n with
  | nil => rfl
  | cons a as ih =>
    cases a with
    | zones z => exact congrArg (_ :: ·) (ih (n + 1))
    | outside m name => exact congrArg (_ :: ·) (ih (n + 1))
    | gates m g =>
      unfold Advisor.polled
      split
      · exact congrArg (.outside n · :: standIns (n + 1) as) (g.name_poll i o)
      · exact congrArg (_ :: ·) (ih (n + 1))

theorem run_submits (W : World τ) (ss : List Submission) (u : Allocator τ) :
    u.run W (ss.map .submit) = { u with setting := u.setting.submitAll ss } := by
  induction ss generalizing u with
  | nil => rfl
  | cons s ss ih => exact ih (u.submit s)

theorem Alike.apply (W : World σ) (h : Alike e s t) (a : Happening σ) :
    Alike e (s.apply W a) (t.run (W.hushed e) (s.echo a)) := by
  cases a with
  | submit x =>
    exact ⟨h.table, h.deferred, h.pending, h.advisors, h.counters, h.phase, h.sink,
      h.setting.submitAll [x]⟩
  | step => exact h.step W
  | shift w =>
    exact ⟨h.table, h.deferred, h.pending, h.advisors, h.counters, h.phase, h.sink,
      h.setting.turn s.advisors w⟩
  | poll number i o =>
    -- The stand-ins know of no tasks: the world is told of the gates that were asked, and what they
    -- report is submitted.
    obtain ⟨advisors, world, leads⟩ := Setting.pollGates_reports number i o s.advisors s.setting
    have names := standIns_polled number i o s.advisors 0
    show Alike e _ (run (W.hushed e) { t with setting := { t.setting with
      world := ((Advisor.polled number i o s.advisors).2, s.setting.world) } }
        ((Advisor.polled number i o s.advisors).1.map .submit))
    rw [run_submits, ← advisors]
    have turned := h.setting.turn (Advisor.polled number i o s.advisors).2 s.setting.world
    have echo : Setting.Echoes e (Advisor.polled number i o s.advisors).2 _ _ :=
      turned.leads leads (Setting.leads_submitAll _ _) (by simp [world])
    rw [← advisors] at echo names
    exact ⟨h.table, h.deferred, h.pending, h.advisors.trans names.symm, h.counters, h.phase, h.sink,
      echo⟩

theorem echoes_append (W : World σ) (s : Allocator σ) (hs ks : List (Happening σ)) :
    echoes W s (hs ++ ks) = echoes W s hs ++ echoes W (s.run W hs) ks := by
  induction hs generalizing s with
  | nil => rfl
  | cons h hs ih =>
    show s.echo h ++ echoes W (s.apply W h) (hs ++ ks) = (s.echo h ++ _) ++ _
    rw [ih, List.append_assoc]
    rfl

theorem Alike.run (W : World σ) (h : Alike e s t) (hs : List (Happening σ)) :
    Alike e (s.run W hs) (t.run (W.hushed e) (echoes W s hs)) := by
  induction hs generalizing s t with
  | nil => exact h
  | cons a hs ih =>
    show Alike e _ (t.run _ (s.echo a ++ _))
    rw [run_append]
    exact ih (h.apply W a)

/-- What is shown of an allocator whose advisors and clients have refusals for faults is free of
faults. -/
theorem Alike.faultless (h : Alike e s t) {f : Event} (hf : f ∈ t.setting.journal) :
    f.Faultless e := by
  refine Event.faultless_of_outlined fun g shown => ?_
  have among : g ∈ t.setting.journal.outline := List.mem_filterMap.mpr ⟨f, hf, shown⟩
  rw [h.setting.outline] at among
  obtain ⟨k, -, rfl⟩ := List.mem_map.mp among
  exact Event.faultless_hushed e k

end

/-- For every history there is one in which no advisor and no client fails, and at every point both
show the same: the table, the deferred requests, the tentative grants, the queue, the counters, the
records, all that has come in, and what the advisors and clients were called for and have answered,
up to faults. -/
theorem faults_are_refusals (W : World σ) (e : AdvisorError) (advisors : List Advisor)
    (sink : AuditSink) (w : σ) (hs : List (Happening σ)) :
    let start := initial advisors sink w
    let second := fun ks =>
      (initial (standIns 0 advisors) sink (advisors, w)).run (W.hushed e) (echoes W start ks)
    (∀ f ∈ (second hs).setting.journal, f.Faultless e) ∧
    ∀ ks ls, hs = ks ++ ls →
      (∃ rest, echoes W start hs = echoes W start ks ++ rest) ∧
        Alike e (start.run W ks) (second ks) := by
  intro start second
  have alike (ks : List (Happening σ)) : Alike e (start.run W ks) (second ks) :=
    Alike.run W ⟨rfl, rfl, rfl, rfl, rfl, rfl, rfl, rfl, rfl, rfl, rfl⟩ ks
  refine ⟨fun f hf => (alike hs).faultless hf, fun ks ls split => ⟨?_, alike ks⟩⟩
  refine ⟨echoes W (start.run W ks) ls, ?_⟩
  rw [split, echoes_append]

/-- A client that breaks off over its grant might as well have refused it. -/
example :
    let W : World Nat := { World.steady .yes with call := fun _ _ n => (.breakOff, [], n) }
    let s := initial [.outside 0 "site"] .nowhere 0
    let t := initial (standIns 0 s.advisors) .nowhere (s.advisors, 0)
    let hs := [asking "x" ["a"], .step]
    let replies := fun j : Journal => j.filterMap fun
      | .called _ reply => some reply
      | _ => none
    replies (s.run W hs).setting.journal = [.breakOff] ∧
      replies (t.run (W.hushed (.failed "no")) (echoes W s hs)).setting.journal = [.refuse] := by
  decide +kernel

end Allocator

end Allotment
