import Mathlib.Data.List.Induction
import Allotment.Proofs.Faults
import Allotment.Proofs.Overtaking
import Allotment.Proofs.Rollback
import Allotment.Proofs.Sinks

/-!
# The audit trail

Every decision is written down as a `Ruling`, counted, and handed to the sink with a stamp. Whoever
works with a log does what it would do without one (`Records`), whatever sinks are made on the log
meanwhile (`Watched`). So the counters, the events that any of the sinks shows and the calls agree
at any time (`counters_events_and_calls_agree`).
-/

namespace Allotment

variable {σ : Type} {W : World σ}

/-! ### Rulings -/

structure Ruling where
  decision : Decision
  client : ClientId
  resources : ResourceSet
  detail : Option String := none
deriving DecidableEq

namespace Ruling

/-- The event is the record of the ruling, under some stamp. -/
def Documented (k : Ruling) (e : AuditEvent) : Prop :=
  ∃ stamp, e = .build stamp k.client k.decision.name k.resources k.detail

theorem action_of_documented {ks : List Ruling} {es : List AuditEvent}
    (h : List.Forall₂ Documented ks es) (d : Decision) :
    es.countP (·.action = d.name) = ks.countP (·.decision = d) := by
  induction h with
  | nil => rfl
  | @cons k e ks es documented _ ih =>
    obtain ⟨stamp, rfl⟩ := documented
    have name : (k.decision.name = d.name) ↔ k.decision = d := by
      cases k.decision <;> cases d <;> simp [Decision.name]
    rw [List.countP_cons, List.countP_cons, ih]
    simp [AuditEvent.build, name]

/-- The client was called for it. -/
def answers (k : Ruling) : Bool := k.decision = .grant || k.decision = .refuse

theorem countP_answers (ks : List Ruling) :
    ks.countP answers = ks.countP (·.decision = .grant) + ks.countP (·.decision = .refuse) := by
  induction ks with
  | nil => rfl
  | cons k ks ih =>
    rw [List.countP_cons, List.countP_cons, List.countP_cons, ih]
    cases h : k.decision <;> simp [answers, h] <;> omega

end Ruling

/-- Is neither a decision nor a call. -/
def Event.isPlain : Event → Bool
  | decided .. | called .. => false
  | _ => true

theorem Event.plain_of_background {e : Event} (h : e.isBackground = true) : e.isPlain = true := by
  cases e <;> simp_all [isBackground, isPlain]

namespace Journal

/-- What has been decided, in the order in which it was. -/
def rulings (j : Journal) : List Ruling :=
  j.reverse.filterMap fun
    | .decided d c rs detail => some ⟨d, c, rs, detail⟩
    | _ => none

theorem rulings_append (es j : Journal) : rulings (es ++ j) = rulings j ++ rulings es := by
  rw [rulings, List.reverse_append, List.filterMap_append]
  rfl

theorem rulings_append_cons (es : List Event) (e : Event) (j : Journal) :
    rulings (es ++ e :: j) = rulings j ++ rulings [e] ++ rulings es := by
  rw [← List.singleton_append, rulings_append, rulings_append]

theorem rulings_plain {es : List Event} (plain : ∀ e ∈ es, e.isPlain = true) : rulings es = [] := by
  refine List.filterMap_eq_nil_iff.mpr fun e he => ?_
  cases e with
  | decided => cases plain _ (List.mem_reverse.mp he)
  | _ => rfl

theorem calls_plain {es : List Event} (plain : ∀ e ∈ es, e.isPlain = true) : calls es = [] := by
  refine List.filterMap_eq_nil_iff.mpr fun e he => ?_
  cases e with
  | called => cases plain _ he
  | _ => rfl

/-- The grants that were made, the latest first. -/
def granted (j : Journal) : List Grant :=
  j.filterMap fun
    | .locked g => some g
    | _ => none

theorem granted_append (es j : Journal) : granted (es ++ j) = granted es ++ granted j :=
  List.filterMap_append

theorem granted_nil {es : List Event} (h : ∀ g, .locked g ∉ es) : granted es = [] := by
  refine List.filterMap_eq_nil_iff.mpr fun e he => ?_
  cases e with
  | locked g => exact absurd he (h g)
  | _ => rfl

end Journal

/-- How often a decision was counted; withdrawals are not. -/
def Counters.of (c : Counters) : Decision → Nat
  | .grant => c.grants
  | .defer => c.deferrals
  | .refuse => c.refusals
  | .free => c.frees
  | .withdraw => 0

namespace Allocator

open Journal

variable {s t u v : Allocator σ}

/-- Nothing is decided from `u` to `v`, and nobody is called. -/
structure Plainly (u v : Allocator σ) : Prop where
  grows : u.setting.Grows (fun e => e.isPlain = true) v.setting
  counters : ∀ d, v.counters.of d = u.counters.of d
  sink : v.sink = u.sink

/-- These rulings are made from `u` to `v`, and so many clients called. -/
structure Rules (u v : Allocator σ) (ks : List Ruling) (calls : Nat) : Prop where
  rulings : v.setting.journal.rulings = u.setting.journal.rulings ++ ks
  counters : ∀ d, d ≠ .withdraw →
    v.counters.of d = u.counters.of d + ks.countP (·.decision = d)
  calls : v.setting.journal.calls.length = u.setting.journal.calls.length + calls

theorem Plainly.refl (u : Allocator σ) : Plainly u u := ⟨Setting.grows_refl _, fun _ => rfl, rfl⟩

theorem Plainly.trans (h : Plainly s t) (k : Plainly t u) : Plainly s u :=
  ⟨h.grows.trans k.grows, fun d => (k.counters d).trans (h.counters d), k.sink.trans h.sink⟩

theorem Plainly.rules (h : Plainly u v) : Rules u v [] 0 := by
  obtain ⟨⟨es, plain, journal⟩, counters, -⟩ := h
  refine ⟨?_, fun d _ => counters d, ?_⟩
  · rw [journal, rulings_append, rulings_plain plain]
  · rw [journal, calls_append, calls_plain plain]
    rfl

theorem Rules.trans {ks ls : List Ruling} {m n : Nat} (h : Rules s t ks m) (k : Rules t u ls n) :
    Rules s u (ks ++ ls) (m + n) := by
  refine ⟨?_, fun d counted => ?_, ?_⟩
  · rw [k.rulings, h.rulings, List.append_assoc]
  · rw [k.counters d counted, h.counters d counted, List.countP_append, Nat.add_assoc]
  · rw [k.calls, h.calls, Nat.add_assoc]

/-! ### What decides nothing -/

theorem plainly_of_setting {x : Setting σ} (grows : u.setting.Grows (fun e => e.isPlain = true) x)
    (advisors : List Advisor) : Plainly u { u with advisors, setting := x } :=
  ⟨grows, fun _ => rfl, rfl⟩

theorem plainly_note {e : Event} (plain : e.isPlain = true) (u : Allocator σ) :
    Plainly u (u.note e) :=
  plainly_of_setting (Setting.grows_note plain u.setting) u.advisors

theorem plainly_noteAll {es : List Event} (plain : ∀ e ∈ es, e.isPlain = true) (u : Allocator σ) :
    Plainly u (u.noteAll es) := by
  induction es generalizing u with
  | nil => exact .refl u
  | cons e es ih =>
    obtain ⟨first, rest⟩ := List.forall_mem_cons.mp plain
    exact (plainly_note first u).trans (ih rest (u.note e))

theorem plainly_submitAll (ss : List Submission) (u : Allocator σ) :
    Plainly u { u with setting := u.setting.submitAll ss } :=
  plainly_of_setting ((Setting.grows_submitAll u.setting ss).mono fun _ entered =>
    Event.plain_of_background (Event.background_of_entered entered)) u.advisors

theorem plainly_poll (number task : Nat) (o : Option GateOutcome) (u : Allocator σ) :
    Plainly u (u.poll number task o).2 := by
  have polled := Setting.stirs_pollGates (A := fun _ => True) (fun _ _ => trivial)
    number task o u.advisors u.setting
  exact plainly_of_setting (polled.background.mono fun _ => Event.plain_of_background) _

theorem plainly_question (W : World σ) (h : Hook) (c : ClientId) (rs : ResourceSet)
    (u : Allocator σ) : Plainly u (u.question W h c rs).2 := by
  have asked := (Setting.stirs_consult W.submits_any h c rs u.advisors u.setting).background
  exact plainly_of_setting ((asked.mono fun _ => Event.plain_of_background).trans
    (Setting.grows_note (P := fun e => e.isPlain = true) rfl _)) _

theorem plainly_announce (W : World σ) (c : ClientId) (rs : ResourceSet) (u : Allocator σ) :
    Plainly u (u.announce W c rs) := by
  have told := (Setting.stirs_notify W.submits_any .released c rs u.advisors u.setting).background
  exact plainly_of_setting ((told.mono fun _ => Event.plain_of_background).trans
    (Setting.grows_note (P := fun e => e.isPlain = true) rfl _)) _

theorem plainly_followUp (cs : List Command) (u : Allocator σ) : Plainly u (u.followUp cs) := by
  unfold followUp
  split
  · exact plainly_submitAll _ u
  · exact .refl u

theorem plainly_take (c : ClientId) (rs : ResourceSet) (cause : FreeCause) (u : Allocator σ) :
    Plainly u (u.take c rs cause).2 :=
  ⟨Setting.grows_note (P := fun e => e.isPlain = true) rfl u.setting, fun _ => rfl, rfl⟩

theorem plainly_cancelOrphaned (c : ClientId) (u : Allocator σ) :
    Plainly u (u.cancelOrphaned c) := by
  have left (gs : List Grant) : Plainly u { u with pending := gs } :=
    ⟨Setting.grows_refl _, fun _ => rfl, rfl⟩
  unfold cancelOrphaned
  refine (left _).trans (plainly_noteAll (fun e he => ?_) _)
  obtain ⟨g, -, rfl⟩ := List.mem_map.mp he
  rfl

theorem plainly_announceFreed (W : World σ) (c : ClientId) (freed : ResourceSet)
    (u : Allocator σ) : Plainly u (u.announceFreed W c freed) := by
  unfold announceFreed
  split
  · exact .refl u
  · exact plainly_announce W c freed u

theorem Asks.plainly (h : Asks W u v) : Plainly u v := by
  induction h with
  | refl => exact .refl u
  | tail _ ask ih =>
    cases ask with
    | expand rs =>
      exact ih.trans ⟨⟨[.expanding rs], by simp [Event.isPlain], rfl⟩, fun _ => rfl, rfl⟩
    | question h c rs _ => exact ih.trans (plainly_question W h c rs _)
    | announce c rs => exact ih.trans (plainly_announce W c rs _)

theorem plainly_tryAllocate (W : World σ) (c : ClientId) (rs : ResourceSet) (u : Allocator σ) :
    Plainly u (u.tryAllocate W c rs).2 := by
  rcases h : u.tryAllocate W c rs with ⟨_ | ⟨expanded, claimed⟩, v⟩
  · exact (tryAllocate_none h).plainly
  · obtain ⟨w, table, asks, rfl, -⟩ := tryAllocate_some h
    exact asks.plainly.trans ⟨Setting.grows_refl _, fun _ => rfl, rfl⟩

theorem plainly_isReady (W : World σ) (earlier : List Grant) (g : Grant) (u : Allocator σ) :
    Plainly u (u.isReady W earlier g).2 := by
  unfold isReady
  split
  · exact .refl u
  · split
    · exact .refl u
    · exact plainly_question ..

theorem plainly_firstReady (W : World σ) (c : ClientId) (seen rest : List Grant)
    (u : Allocator σ) : Plainly u (firstReady W c seen rest u).2 := by
  induction rest generalizing seen u with
  | nil => exact .refl u
  | cons g rest ih =>
    unfold firstReady
    split
    · have looked := plainly_isReady W seen g u
      dsimp only
      split
      · exact looked
      · exact looked.trans (ih _ _)
    · exact ih _ _

/-! ### Working with a log -/

/-- The same with a log. -/
def into (l : SharedLog) (u : Allocator σ) : Allocator σ := { u with sink := .log l }

@[simp] theorem table_into (l : SharedLog) (u : Allocator σ) : (u.into l).table = u.table := rfl
@[simp] theorem pending_into (l : SharedLog) (u : Allocator σ) :
    (u.into l).pending = u.pending := rfl
@[simp] theorem queue_into (l : SharedLog) (u : Allocator σ) :
    (u.into l).setting.queue = u.setting.queue := rfl
@[simp] theorem isRunning_into (l : SharedLog) (u : Allocator σ) :
    (u.into l).isRunning = u.isRunning := rfl

/-- Without a sink `f` makes these rulings, all of kinds in `A`, and so many calls. With a log it
does the same, and hands these events to the log. -/
structure Recorded (A : Decision → Prop) (f : Allocator σ → Allocator σ) (u : Allocator σ)
    (calls : Nat) (ks : List Ruling) (es : List AuditEvent) : Prop where
  rules : Rules u (f u) ks calls
  kinds : ∀ k ∈ ks, A k.decision
  documented : List.Forall₂ Ruling.Documented ks es
  sink : (f u).sink = .nowhere
  logged : ∀ l, f (u.into l) = (f u).into (l.recordAll es)

/-- Every call leads to a ruling that answers for it. -/
def Records (A : Decision → Prop) (f : Allocator σ → Allocator σ) (u : Allocator σ) : Prop :=
  u.sink = .nowhere → ∃ ks es, Recorded A f u (ks.countP Ruling.answers) ks es

section

variable {A B : Decision → Prop} {f g : Allocator σ → Allocator σ}

theorem Recorded.comp {m n : Nat} {ks ls : List Ruling} {es fs : List AuditEvent}
    (first : Recorded A f u m ks es) (second : Recorded A g (f u) n ls fs) :
    Recorded A (fun s => g (f s)) u (m + n) (ks ++ ls) (es ++ fs) where
  rules := first.rules.trans second.rules
  kinds k hk := (List.mem_append.mp hk).elim (first.kinds k) (second.kinds k)
  documented := List.rel_append first.documented second.documented
  sink := second.sink
  logged l := by rw [first.logged, second.logged, SharedLog.recordAll_append]

theorem Records.comp (first : Records A f u) (second : Records A g (f u)) :
    Records A (fun s => g (f s)) u := by
  intro nowhere
  obtain ⟨ks, es, recorded⟩ := first nowhere
  obtain ⟨ls, fs, further⟩ := second recorded.sink
  have both := recorded.comp further
  rw [← List.countP_append] at both
  exact ⟨ks ++ ls, es ++ fs, both⟩

theorem Records.mono (h : Records A f u) (sub : ∀ d, A d → B d) : Records B f u := by
  intro nowhere
  obtain ⟨ks, es, rules, kinds, documented, sink, logged⟩ := h nowhere
  exact ⟨ks, es, rules, fun k hk => sub _ (kinds k hk), documented, sink, logged⟩

/-- Only what is done from here on counts. -/
theorem Recorded.congr {n : Nat} {ks : List Ruling} {es : List AuditEvent}
    (h : Recorded A g u n ks es) (same : f u = g u)
    (logged : ∀ l, f (u.into l) = g (u.into l)) : Recorded A f u n ks es where
  rules := same ▸ h.rules
  kinds := h.kinds
  documented := h.documented
  sink := same ▸ h.sink
  logged l := by rw [same, logged, h.logged]

theorem Records.congr (h : Records A g u) (same : f u = g u)
    (logged : ∀ l, f (u.into l) = g (u.into l)) : Records A f u := by
  intro nowhere
  obtain ⟨ks, es, recorded⟩ := h nowhere
  exact ⟨ks, es, recorded.congr same logged⟩

theorem recorded_plainly (plainly : Plainly u (f u)) (nowhere : u.sink = .nowhere)
    (logged : ∀ l, f (u.into l) = (f u).into l) : Recorded A f u 0 [] [] :=
  ⟨plainly.rules, by simp, .nil, plainly.sink.trans nowhere, logged⟩

theorem records_plainly (plainly : Plainly u (f u))
    (logged : ∀ l, f (u.into l) = (f u).into l) : Records A f u :=
  fun nowhere => ⟨[], [], recorded_plainly plainly nowhere logged⟩

theorem records_idle (same : f u = u) (logged : ∀ l, f (u.into l) = u.into l) :
    Records A f u :=
  records_plainly (same.symm ▸ .refl u) fun l => by rw [logged, same]

/-- Without a sink only the journal shows a ruling. -/
theorem record_nowhere (W : World σ) (d : Decision) (c : ClientId) (rs : ResourceSet)
    (detail : Option String) (nowhere : v.sink = .nowhere) :
    v.record W d c rs detail = { v with
      setting := { v.setting.note (.decided d c rs detail) with
        world := (W.stamp v.setting.world).2 } } := by
  obtain ⟨table, deferred, pending, advisors, counters, phase, sink, setting⟩ := v
  cases nowhere
  rfl

/-- A ruling is recorded once it has been counted. -/
theorem recorded_ruling (W : World σ) {d : Decision} (kind : A d) (c : ClientId)
    (rs : ResourceSet) (detail : Option String) (nowhere : u.sink = .nowhere)
    (grows : u.setting.Grows (fun e => e.isPlain = true) (f u).setting)
    (counted : ∀ k, k ≠ .withdraw → (f u).counters.of k = u.counters.of k + if d = k then 1 else 0)
    (sink : (f u).sink = u.sink) (logged : ∀ l, f (u.into l) = (f u).into l) :
    ∃ e, Recorded A (fun s => (f s).record W d c rs detail) u 0 [⟨d, c, rs, detail⟩] [e] := by
  have bare := record_nowhere W d c rs detail (sink.trans nowhere)
  obtain ⟨es, plain, journal⟩ := grows
  refine ⟨.build (W.stamp (f u).setting.world).1 c d.name rs detail, ⟨?_, fun k hk => ?_, ?_⟩,
    by simpa using kind, .cons ⟨_, rfl⟩ .nil, ?_, fun l => ?_⟩
  · show Journal.rulings ((f u).record W d c rs detail).setting.journal = _
    rw [bare]
    show Journal.rulings (.decided d c rs detail :: (f u).setting.journal) = _
    rw [← List.singleton_append, journal, rulings_append, rulings_append, rulings_plain plain,
      List.append_nil]
    rfl
  · show ((f u).record W d c rs detail).counters.of k = _
    rw [bare]
    refine (counted k hk).trans ?_
    simp [List.countP_cons]
  · show (Journal.calls ((f u).record W d c rs detail).setting.journal).length = _
    rw [bare]
    show (Journal.calls (.decided d c rs detail :: (f u).setting.journal)).length = _
    rw [journal, ← List.singleton_append, calls_append, calls_append, calls_plain plain]
    rfl
  · show ((f u).record W d c rs detail).sink = _
    rw [bare]
    exact sink.trans nowhere
  · rw [logged, bare]
    rfl

end

/-! ### Operations -/

theorem into_noteAll (es : List Event) (l : SharedLog) (u : Allocator σ) :
    (u.into l).noteAll es = (u.noteAll es).into l := by
  induction es generalizing u with
  | nil => rfl
  | cons e es ih => exact ih (u.note e)

theorem into_cancelOrphaned (c : ClientId) (l : SharedLog) (u : Allocator σ) :
    (u.into l).cancelOrphaned c = (u.cancelOrphaned c).into l :=
  into_noteAll _ l { u with pending := _ }

theorem into_announceFreed (W : World σ) (c : ClientId) (freed : ResourceSet) (l : SharedLog)
    (u : Allocator σ) :
    (u.into l).announceFreed W c freed = (u.announceFreed W c freed).into l := by
  unfold announceFreed
  split <;> rfl

theorem into_followUp (cs : List Command) (l : SharedLog) (u : Allocator σ) :
    (u.into l).followUp cs = (u.followUp cs).into l := by
  unfold followUp
  rw [isRunning_into]
  split <;> rfl

theorem into_isReady (W : World σ) (earlier : List Grant) (g : Grant) (l : SharedLog)
    (u : Allocator σ) : (u.into l).isReady W earlier g =
      ((u.isReady W earlier g).1, (u.isReady W earlier g).2.into l) := by
  unfold isReady
  split
  · rfl
  · split <;> rfl

theorem into_firstReady (W : World σ) (c : ClientId) (seen rest : List Grant) (l : SharedLog)
    (u : Allocator σ) : firstReady W c seen rest (u.into l) =
      ((firstReady W c seen rest u).1, (firstReady W c seen rest u).2.into l) := by
  induction rest generalizing seen u with
  | nil => rfl
  | cons g rest ih =>
    unfold firstReady
    split
    · rw [into_isReady]
      rcases u.isReady W seen g with ⟨ready, v⟩
      cases ready with
      | true => rfl
      | false => exact ih _ v
    · exact ih _ u

theorem into_claim (W : World σ) (c : ClientId) (claimed : ResourceSet) (l : SharedLog)
    (u : Allocator σ) : (u.into l).claim W c claimed =
      ((u.claim W c claimed).1, (u.claim W c claimed).2.into l) := by
  have asked (h : Hook) (v : Allocator σ) : (v.into l).question W h c claimed =
      ((v.question W h c claimed).1, (v.question W h c claimed).2.into l) := rfl
  have locked (v : Allocator σ) : (v.into l).lock W c claimed =
      ((v.lock W c claimed).1, (v.lock W c claimed).2.into l) := by
    unfold lock
    rw [table_into]
    rcases v.table.allocateAll c claimed.toList with fault | table <;> rfl
  unfold claim
  rw [asked]
  rcases u.question W .may c claimed with ⟨_ | _, v⟩
  · rfl
  · dsimp only
    rw [asked]
    rcases v.question W .prepare c claimed with ⟨_ | _, w⟩
    · rfl
    · exact locked w

theorem into_tryAllocate (W : World σ) (c : ClientId) (rs : ResourceSet) (l : SharedLog)
    (u : Allocator σ) : (u.into l).tryAllocate W c rs =
      ((u.tryAllocate W c rs).1, (u.tryAllocate W c rs).2.into l) := by
  have found : (u.into l).expand W rs = ((u.expand W rs).1, (u.expand W rs).2.into l) := rfl
  unfold tryAllocate
  rw [found]
  rcases u.expand W rs with ⟨_ | expanded, v⟩
  · rfl
  · have same : (v.into l).unclaimed c expanded = v.unclaimed c expanded := rfl
    dsimp only
    rw [table_into, same, into_claim]
    split
    · split
      · rfl
      · rcases v.claim W c (v.unclaimed c expanded) with ⟨_ | _, w⟩ <;> rfl
    · rfl

/-! ### Deliveries -/

/-- The kinds of rulings for which clients are called. -/
def Answering (d : Decision) : Prop := d = .grant ∨ d = .refuse

theorem recorded_call (W : World σ) (g : Grant) (nowhere : u.sink = .nowhere) :
    Recorded Answering (fun s => (s.call W g).2) u 1 [] [] := by
  obtain ⟨es, entered, books⟩ := books_call W g u
  have journal : (u.call W g).2.setting.journal =
      es ++ .called g (u.call W g).1 :: u.setting.journal :=
    (congrArg Books.journal books).trans (List.append_assoc ..)
  have plain : ∀ e ∈ es, e.isPlain = true :=
    fun e he => Event.plain_of_background (Event.background_of_entered (entered e he))
  refine ⟨⟨?_, fun _ _ => rfl, ?_⟩, by simp, .nil, nowhere, fun _ => rfl⟩
  · rw [journal, rulings_append_cons, rulings_plain plain, List.append_nil]
    rfl
  · rw [journal, calls_append, calls_plain plain]
    rfl

theorem recorded_acceptGrant (W : World σ) (g : Grant) (nowhere : u.sink = .nowhere) :
    ∃ e, Recorded Answering (acceptGrant W g) u 0 [⟨.grant, g.client, g.requested, none⟩] [e] :=
  recorded_ruling (f := fun s => s.count .addGrant) W (.inl rfl) g.client g.requested none nowhere
    (Setting.grows_refl _) (fun k _ => by cases k <;> rfl) rfl fun _ => rfl

theorem recorded_refuseGrant (W : World σ) (g : Grant) (nowhere : u.sink = .nowhere) :
    ∃ k e, k.decision = .refuse ∧ Recorded Answering (refuseGrant W g) u 0 [k] [e] := by
  let freed := u.table.heldOf g.client g.expanded
  let strip := fun s : Allocator σ =>
    (((s.count .addRefusal).take g.client g.expanded .refused).2.cancelOrphaned
      g.client).announceFreed W g.client freed
  have stripped : Plainly (u.count .addRefusal) (strip u) := by
    have told : Plainly _ (strip u) := plainly_announceFreed W g.client freed _
    exact ((plainly_take _ _ _ _).trans (plainly_cancelOrphaned _ _)).trans told
  have logged (l : SharedLog) : strip (u.into l) = (strip u).into l := by
    have cancelled := into_cancelOrphaned g.client l
      ((u.count .addRefusal).take g.client g.expanded .refused).2
    dsimp only [strip]
    rw [← into_announceFreed, ← cancelled]
    rfl
  obtain ⟨e, ruled⟩ := recorded_ruling (f := strip) (A := Answering) W (.inr rfl) g.client
    g.requested (some (refusalDetail freed)) nowhere stripped.grows
    (fun k _ => (stripped.counters k).trans (by cases k <;> rfl)) stripped.sink logged
  refine ⟨⟨.refuse, g.client, g.requested, some (refusalDetail freed)⟩, e, rfl, ?_⟩
  by_cases nothing : freed.isEmpty = true
  · exact ruled.congr (if_pos nothing) fun l => if_pos nothing
  · have followed := ruled.comp (recorded_plainly
      (f := fun s => s.followUp [.retryDeferred]) (plainly_followUp _ _) ruled.sink fun l => ?_)
    · exact followed.congr (if_neg nothing) fun l => if_neg nothing
    · exact into_followUp [.retryDeferred] l _

theorem records_deliver (W : World σ) (g : Grant) (u : Allocator σ) :
    Records Answering (deliver W g) u := by
  intro nowhere
  have called := recorded_call W g nowhere
  rcases answer : u.call W g with ⟨reply, v⟩
  have logged (l : SharedLog) : (u.into l).call W g = (reply, v.into l) :=
    congrArg (fun x : Reply × Allocator σ => (x.1, x.2.into l)) answer
  obtain ⟨k, e, refused, ruled⟩ := recorded_refuseGrant W g called.sink
  have count : [k].countP Ruling.answers = 1 := by simp [Ruling.answers, refused]
  have refuses := called.comp ruled
  have unwanted (same : deliver W g u = refuseGrant W g (u.call W g).2)
      (logged : ∀ l, deliver W g (u.into l) = refuseGrant W g ((u.into l).call W g).2) :
      ∃ ks es, Recorded Answering (deliver W g) u (ks.countP Ruling.answers) ks es :=
    ⟨[k], [e], count ▸ refuses.congr same logged⟩
  cases reply with
  | accept =>
    obtain ⟨e, ruled⟩ := recorded_acceptGrant W g called.sink
    refine ⟨[⟨.grant, g.client, g.requested, none⟩], [e], (called.comp ruled).congr ?_ fun l => ?_⟩
    · rw [deliver, answer]
    · rw [deliver, logged]
  | refuse => exact unwanted (by rw [deliver, answer]) fun l => by rw [deliver, logged]
  | breakOff => exact unwanted (by rw [deliver, answer]) fun l => by rw [deliver, logged]

theorem records_releaseBlocked (W : World σ) (c : ClientId) (u : Allocator σ) :
    Records Answering (releaseBlocked W c) u := by
  have looks (v : Allocator σ) := records_plainly (A := Answering)
    (f := fun s => (firstReady W c [] v.pending s).2) (plainly_firstReady W c [] v.pending v)
    fun l => congrArg Prod.snd (into_firstReady W c [] v.pending l v)
  have logged (v : Allocator σ) (l : SharedLog) := into_firstReady W c [] v.pending l v
  fun_induction releaseBlocked W c u with
  | case1 u running v found =>
    refine (looks u).congr (releaseBlocked_none running found ▸ congrArg Prod.snd found.symm)
      fun l => releaseBlocked_none running ?_
    rw [pending_into, logged, found]
  | case2 u running before g after v found _ ih =>
    have next : (firstReady W c [] u.pending u).2 = v := congrArg Prod.snd found
    have dropped : Records Answering (fun s => { s with pending := before ++ after })
        (firstReady W c [] u.pending u).2 :=
      records_plainly ⟨Setting.grows_refl _, fun _ => rfl, rfl⟩ fun _ => rfl
    rw [← next] at ih
    refine (((looks u).comp dropped).comp (records_deliver W g _)).comp ih |>.congr ?_ fun l => ?_
    · rw [next]
      exact releaseBlocked_some running found
    · refine releaseBlocked_some running ?_
      rw [pending_into, logged, found]
  | case3 u stopped =>
    have idle : u.releaseBlocked W c = u := by rw [releaseBlocked, if_neg stopped]
    refine records_idle idle fun l => ?_
    rw [releaseBlocked, isRunning_into, if_neg stopped]

theorem records_completeIfPrepared (W : World σ) (i : Nat) (u : Allocator σ) :
    Records Answering (completeIfPrepared W i) u := by
  cases found : u.pending[i]? with
  | none =>
    refine records_idle ?_ fun l => ?_
    · rw [completeIfPrepared, found]
    · rw [completeIfPrepared, pending_into, found]
  | some g =>
    have looks := records_plainly (A := Answering)
      (f := fun s => (s.isReady W (u.pending.take i) g).2) (plainly_isReady W _ g u)
      fun l => congrArg Prod.snd (into_isReady W _ g l u)
    have logged (l : SharedLog) := into_isReady W (u.pending.take i) g l u
    rcases ready : u.isReady W (u.pending.take i) g with ⟨_ | _, v⟩
    · refine looks.congr ?_ fun l => ?_
      · simp only [completeIfPrepared, found, ready]
        rfl
      · simp only [completeIfPrepared, pending_into, found, logged, ready]
        rfl
    · have dropped : Records Answering (fun s => { s with pending := v.pending.eraseIdx i })
          (u.isReady W (u.pending.take i) g).2 :=
        records_plainly ⟨Setting.grows_refl _, fun _ => rfl, rfl⟩ fun _ => rfl
      refine ((looks.comp dropped).comp (records_deliver W g _)).comp
        (records_releaseBlocked W g.client _) |>.congr ?_ fun l => ?_
      · simp only [completeIfPrepared, found, ready]
        rfl
      · simp only [completeIfPrepared, pending_into, found, logged, ready]
        rfl

/-! ### Commands -/

theorem records_grant (W : World σ) (g : Grant) (u : Allocator σ) :
    Records Answering (grant W g) u := by
  have locked : Records Answering
      (fun s => note (.locked g) { s with pending := s.pending ++ [g] }) u :=
    records_plainly ⟨Setting.grows_note (P := fun e => e.isPlain = true) rfl _, fun _ => rfl, rfl⟩
      fun _ => rfl
  exact (locked.comp (records_completeIfPrepared W u.pending.length _)).congr rfl fun _ => rfl

theorem recorded_defer (W : World σ) (r : Request) (nowhere : u.sink = .nowhere) :
    ∃ e, Recorded (fun _ => True) (defer W r) u 0 [⟨.defer, r.client.id, r.resources, none⟩] [e] :=
  recorded_ruling W (d := .defer) (f := fun s => note (.deferred r)
    { s.count .addDeferral with deferred := s.deferred ++ [r] }) trivial r.client.id r.resources
    none nowhere (Setting.grows_note (P := fun e => e.isPlain = true) rfl _)
    (fun k _ => by cases k <;> rfl) rfl fun _ => rfl

theorem records_allocate (W : World σ) (r : Request) (u : Allocator σ) :
    Records (fun _ => True) (allocate W r) u := by
  have tried := records_plainly (A := fun _ => True)
    (f := fun s => (s.tryAllocate W r.client.id r.resources).2) (plainly_tryAllocate W _ _ u)
    fun l => congrArg Prod.snd (into_tryAllocate W _ _ l u)
  have logged (l : SharedLog) := into_tryAllocate W r.client.id r.resources l u
  rcases answer : u.tryAllocate W r.client.id r.resources with ⟨_ | ⟨expanded, claimed⟩, v⟩
  · have deferred : Records (fun _ => True) (defer W r)
        (u.tryAllocate W r.client.id r.resources).2 := by
      intro nowhere
      obtain ⟨e, recorded⟩ := recorded_defer W r nowhere
      exact ⟨[⟨.defer, r.client.id, r.resources, none⟩], [e], recorded⟩
    refine (tried.comp deferred).congr ?_ fun l => ?_
    · simp only [allocate, answer]
    · simp only [allocate, logged, answer]
  · have granted := (records_grant W ⟨r, expanded, claimed⟩
      (u.tryAllocate W r.client.id r.resources).2).mono (B := fun _ => True) fun _ _ => trivial
    refine (tried.comp granted).congr ?_ fun l => ?_
    · simp only [allocate, answer]
    · simp only [allocate, logged, answer]

theorem records_checkPrepared (W : World σ) (c : ClientId) (rs : ResourceSet) (u : Allocator σ) :
    Records Answering (checkPrepared W c rs) u := by
  cases found : u.pending.findIdx? (·.isNamedBy c rs) with
  | none =>
    refine records_idle ?_ fun l => ?_
    · simp only [checkPrepared, found]
    · simp only [checkPrepared, pending_into, found]
  | some i =>
    refine (records_completeIfPrepared W i u).congr ?_ fun l => ?_
    · simp only [checkPrepared, found]
    · simp only [checkPrepared, pending_into, found]

theorem records_afterFree (W : World σ) (c : ClientId) (freed : ResourceSet) (u : Allocator σ) :
    Records (fun _ => True) (afterFree W c freed) u := by
  have cancelled : Records (fun _ => True) (cancelOrphaned c) u :=
    records_plainly (plainly_cancelOrphaned c u) fun l => into_cancelOrphaned c l u
  have released := cancelled.comp ((records_releaseBlocked W c (u.cancelOrphaned c)).mono
    (B := fun _ => True) fun _ _ => trivial)
  refine (released.comp (g := fun s => if freed.isEmpty || !s.isRunning then s else
    ((s.count .addFree).record W .free c freed none).followUp [.released c freed, .retryDeferred])
    ?_).congr rfl fun _ => rfl
  generalize releaseBlocked W c (u.cancelOrphaned c) = v
  by_cases moot : (freed.isEmpty || !v.isRunning) = true
  · exact records_idle (if_pos moot) fun _ => if_pos moot
  · intro nowhere
    obtain ⟨e, ruled⟩ := recorded_ruling (A := fun _ => True) (d := .free) W
      (f := fun s => s.count .addFree) trivial c freed none nowhere (Setting.grows_refl _)
      (fun k _ => by cases k <;> rfl) rfl fun _ => rfl
    have told := ruled.comp (recorded_plainly
      (plainly_followUp [.released c freed, .retryDeferred] _) ruled.sink
      fun l => into_followUp [.released c freed, .retryDeferred] l _)
    exact ⟨[⟨.free, c, freed, none⟩], [e], told.congr (if_neg moot) fun _ => if_neg moot⟩

theorem records_free (W : World σ) (c : ClientId) (rs : ResourceSet) (u : Allocator σ) :
    Records (fun _ => True) (free W c rs) u := by
  have taken : Records (fun _ => True) (fun s => (s.take c rs .asked).2) u :=
    records_plainly (plainly_take c rs .asked u) fun _ => rfl
  exact (taken.comp (records_afterFree W c (u.take c rs .asked).1 _)).congr rfl fun _ => rfl

theorem records_withdraw (W : World σ) (c : ClientId) (u : Allocator σ) :
    Records (fun _ => True) (withdraw W c) u := by
  let gone := u.deferred.filter (·.client.id == c)
  let drop := fun s : Allocator σ =>
    { s with deferred := s.deferred.filter fun r => !(r.client.id == c) }.noteAll
      (gone.map .withdrawn)
  have dropped : Plainly u (drop u) := by
    have left (rs : List Request) : Plainly u { u with deferred := rs } :=
      ⟨Setting.grows_refl _, fun _ => rfl, rfl⟩
    refine (left _).trans (plainly_noteAll (fun e he => ?_) _)
    obtain ⟨r, -, rfl⟩ := List.mem_map.mp he
    rfl
  have logged (l : SharedLog) : drop (u.into l) = (drop u).into l :=
    into_noteAll _ l { u with deferred := _ }
  by_cases nothing : (union gone).isEmpty = true
  · exact (records_plainly dropped logged).congr (if_pos nothing) fun _ => if_pos nothing
  · intro nowhere
    have uncounted (k : Decision) (hk : k ≠ .withdraw) :
        (drop u).counters.of k = u.counters.of k + if Decision.withdraw = k then 1 else 0 := by
      rw [if_neg hk.symm]
      exact dropped.counters k
    obtain ⟨e, ruled⟩ := recorded_ruling (A := fun _ => True) (d := .withdraw) W (f := drop) trivial
      c (union gone) none nowhere dropped.grows uncounted dropped.sink logged
    exact ⟨[⟨.withdraw, c, union gone, none⟩], [e],
      ruled.congr (if_neg nothing) fun _ => if_neg nothing⟩

theorem records_retryDeferred (u : Allocator σ) : Records (fun _ => True) retryDeferred u := by
  cases none : u.deferred.isEmpty with
  | true =>
    exact records_idle (if_pos none) fun _ => if_pos none
  | false =>
    have waiting : ¬ u.deferred.isEmpty = true := by simp [none]
    have back : Records (fun _ => True) (fun s : Allocator σ => { s with
        deferred := []
        setting := { s.setting.note (.retried s.deferred) with
          queue := (s.setting.queue.requeue (s.deferred.map Request.queued)).2 } }) u :=
      records_plainly ⟨⟨[.retried u.deferred], by simp [Event.isPlain], rfl⟩, fun _ => rfl, rfl⟩
        fun _ => rfl
    exact back.congr (if_neg waiting) fun _ => if_neg waiting

theorem records_process (W : World σ) (q : Queued) (u : Allocator σ) :
    Records (fun _ => True) (process W q) u := by
  have plainly {f : Allocator σ → Allocator σ} (plain : Plainly u (f u))
      (logged : ∀ l, f (u.into l) = (f u).into l) : Records (fun _ => True) f u :=
    records_plainly plain logged
  have named {f : Allocator σ → Allocator σ} (records : Records (fun _ => True) f u)
      (same : process W q = f) : Records (fun _ => True) (process W q) u := same ▸ records
  obtain ⟨command, priority, seq⟩ := q
  cases command with
  | allocate c rs => exact named (records_allocate W ⟨c, rs, priority, seq⟩ u) rfl
  | released c rs => exact named (plainly (plainly_announce W c rs u) fun _ => rfl) rfl
  | checkPrepared c rs =>
    exact named ((records_checkPrepared W c rs u).mono fun _ _ => trivial) rfl
  | retryDeferred => exact named (records_retryDeferred u) rfl
  | free c rs => exact named (records_free W c rs u) rfl
  | freeAll c =>
    exact (records_free W c (u.table.allocationsOf c) u).congr rfl fun _ => rfl
  | withdraw c => exact named (records_withdraw W c u) rfl
  | snapshot =>
    exact plainly (plainly_note (e := .reported seq u.snapshot) rfl u) fun _ => rfl
  | shutdown =>
    exact plainly ⟨⟨[.stopped _ _ _], by simp [Event.isPlain], rfl⟩, fun _ => rfl, rfl⟩
      fun _ => rfl

theorem records_accept (q : Queued) (rest : Queue) (u : Allocator σ) :
    Records (fun _ => True) (accept q rest) u :=
  records_plainly ⟨⟨[.took q], by simp [Event.isPlain], rfl⟩, fun d => by cases d <;> rfl, rfl⟩
    fun _ => rfl

theorem records_apply (W : World σ) (h : Happening σ) (u : Allocator σ) :
    Records (fun _ => True) (fun s => s.apply W h) u := by
  cases h with
  | submit x => exact records_plainly (plainly_submitAll [x] u) fun _ => rfl
  | poll number task o => exact records_plainly (plainly_poll number task o u) fun _ => rfl
  | shift w => exact records_plainly ⟨Setting.grows_refl _, fun _ => rfl, rfl⟩ fun _ => rfl
  | step =>
    show Records (fun _ => True) (step W) u
    by_cases running : u.isRunning = true
    · cases next : u.setting.queue.take? with
      | none =>
        refine records_idle ?_ fun l => ?_
        · simp only [step, running, if_true, next]
        · simp only [step, isRunning_into, running, if_true, queue_into, next]
      | some taken =>
        obtain ⟨q, rest⟩ := taken
        refine ((records_accept q rest u).comp (records_process W q _)).congr ?_ fun l => ?_
        · simp only [step, running, if_true, next]
        · simp only [step, isRunning_into, running, if_true, queue_into, next]
    · exact records_idle (if_neg running) fun _ => if_neg running

/-! ### What a request leads to -/

/-- Nothing is decided while a request is looked at. -/
theorem tryAllocate_undecided (W : World σ) (c : ClientId) (rs : ResourceSet) (u : Allocator σ) :
    ∃ es : Journal, (u.tryAllocate W c rs).2.setting.journal = es ++ u.setting.journal ∧
      es.rulings = [] ∧ es.granted = [] := by
  have asked : ∃ v, Asks W u v ∧
      (u.tryAllocate W c rs).2.setting.journal = v.setting.journal := by
    rcases h : u.tryAllocate W c rs with ⟨_ | ⟨expanded, claimed⟩, t⟩
    · exact ⟨t, tryAllocate_none h, rfl⟩
    · obtain ⟨v, table, asks, rfl, -⟩ := tryAllocate_some h
      exact ⟨v, asks, rfl⟩
  obtain ⟨v, asks, same⟩ := asked
  obtain ⟨es, plain, journal⟩ := asks.plainly.grows
  obtain ⟨fs, quiet, books⟩ := asks.quietly
  obtain rfl : es = fs :=
    List.append_cancel_right (journal.symm.trans (congrArg Books.journal books))
  exact ⟨es, same.trans journal, rulings_plain plain, granted_nil fun g hg => by cases quiet _ hg⟩

theorem journal_defer (W : World σ) (r : Request) (nowhere : v.sink = .nowhere) :
    (v.defer W r).setting.journal =
      .decided .defer r.client.id r.resources none :: .deferred r :: v.setting.journal := by
  unfold defer
  rw [record_nowhere]
  · rfl
  · exact nowhere

theorem grant_undeferred (W : World σ) (g : Grant) (running : v.phase = .running)
    (nowhere : v.sink = .nowhere) :
    ∃ es : Journal, (v.grant W g).setting.journal = es ++ .locked g :: v.setting.journal ∧
      es.granted = [] ∧ ∀ k ∈ es.rulings, k.decision ≠ .defer := by
  have delivered := (completeIfPrepared_deliveries W v.pending.length (s :=
    note (.locked g) { v with pending := v.pending ++ [g] }) running).acts (k := 0)
  obtain ⟨es, journal, locked, -⟩ := Docket.acts_locked delivered
  obtain ⟨ks, _, recorded⟩ := records_grant W g v nowhere
  have ruled : es.rulings = ks := by
    have rulings := recorded.rules.rulings
    rw [show (v.grant W g).setting.journal = es ++ .locked g :: v.setting.journal from journal,
      rulings_append_cons, List.append_assoc] at rulings
    exact List.append_cancel_left rulings
  refine ⟨es, journal, granted_nil (fun k hk => by cases locked k hk), fun k hk => ?_⟩
  rcases recorded.kinds k (ruled ▸ hk) with grant | refuse
  · simp [grant]
  · simp [refuse]

/-- A request that is taken is deferred, by a ruling of its own, or granted, and then nothing is
deferred. -/
theorem request_settled (W : World σ) {q : Queued} {rest : Queue} {client : Client}
    {requested : ResourceSet} (nowhere : u.sink = .nowhere) (running : u.phase = .running)
    (next : u.setting.queue.take? = some (q, rest))
    (command : q.command = .allocate client requested) :
    ∃ es : Journal, (u.step W).setting.journal = es ++ .took q :: u.setting.journal ∧
      (es.rulings = [⟨.defer, client.id, requested, none⟩] ∧ es.granted = [] ∨
      ∃ g : Grant, g.request = ⟨client, requested, q.priority, q.seq⟩ ∧ es.granted = [g] ∧
        ∀ k ∈ es.rulings, k.decision ≠ .defer) := by
  let r : Request := ⟨client, requested, q.priority, q.seq⟩
  have served : u.step W = (u.accept q rest).allocate W r := by
    unfold step
    rw [if_pos (isRunning_iff.mpr running), next]
    dsimp only
    rw [process, command]
  obtain ⟨es, journal, unruled, ungranted⟩ :=
    tryAllocate_undecided W client.id requested (u.accept q rest)
  have plainly := plainly_tryAllocate W client.id requested (u.accept q rest)
  have phase := phase_tryAllocate W client.id requested (u.accept q rest)
  rcases h : (u.accept q rest).tryAllocate W client.id requested with ⟨_ | ⟨expanded, claimed⟩, v⟩
  · rw [h] at plainly journal
    have deferred : u.step W = v.defer W r := by rw [served, allocate, h]
    refine ⟨.decided .defer client.id requested none :: .deferred r :: es, ?_, .inl ⟨?_, ungranted⟩⟩
    · rw [deferred, journal_defer W r (plainly.sink.trans nowhere), journal]
      rfl
    · show rulings ([.decided .defer client.id requested none, .deferred r] ++ es) = _
      rw [rulings_append, unruled]
      rfl
  · rw [h] at plainly journal phase
    let g : Grant := ⟨r, expanded, claimed⟩
    have granted : u.step W = v.grant W g := by rw [served, allocate, h]
    obtain ⟨fs, further, only, undeferred⟩ :=
      grant_undeferred W g (phase.trans running) (plainly.sink.trans nowhere)
    refine ⟨fs ++ .locked g :: es, ?_, .inr ⟨g, rfl, ?_, fun k hk => undeferred k ?_⟩⟩
    · rw [granted, further, journal, List.append_assoc]
      rfl
    · rw [granted_append, only, ← List.singleton_append, granted_append, ungranted]
      rfl
    · rw [rulings_append_cons, unruled] at hk
      exact hk

/-! ### Clones -/

/-- What goes on around an allocator with a log: something happens to it, or somebody clones one of
the sinks on the log. -/
inductive Moment (σ : Type)
  | happens (h : Happening σ)
  | clones (i : Nat)

def pass (W : World σ) (s : Allocator σ) : Moment σ → Allocator σ
  | .happens h => s.apply W h
  | .clones i => { s with sink := (s.sink.clone i).2 }

def watch (W : World σ) (s : Allocator σ) (ms : List (Moment σ)) : Allocator σ :=
  ms.foldl (pass W) s

theorem watch_append (W : World σ) (s : Allocator σ) (ms ns : List (Moment σ)) :
    s.watch W (ms ++ ns) = (s.watch W ms).watch W ns := List.foldl_append

/-- What happens to the allocator itself. -/
def happenings (ms : List (Moment σ)) : List (Happening σ) :=
  ms.filterMap fun
    | .happens h => some h
    | .clones _ => none

/-- Without a sink these rulings are made. With a log the same comes about, whoever clones its
sinks, and every sink gets these events. -/
structure Watched (W : World σ) (u : Allocator σ) (ms : List (Moment σ)) (ks : List Ruling)
    (es : List AuditEvent) : Prop where
  rules : Rules u (u.run W (happenings ms)) ks (ks.countP Ruling.answers)
  documented : List.Forall₂ Ruling.Documented ks es
  sink : (u.run W (happenings ms)).sink = .nowhere
  logged : ∀ {l log}, l.On log → ∃ m : SharedLog,
    (u.into l).watch W ms = (u.run W (happenings ms)).into m ∧ m.On (log.recordAll es) ∧
      l.size ≤ m.size

theorem watched (W : World σ) (ms : List (Moment σ)) (nowhere : u.sink = .nowhere) :
    ∃ ks es, Watched W u ms ks es := by
  induction ms generalizing u with
  | nil =>
    exact ⟨[], [], (Plainly.refl u).rules, .nil, nowhere, fun on => ⟨_, rfl, on, Nat.le_refl _⟩⟩
  | cons m ms ih =>
    cases m with
    | clones i =>
      obtain ⟨ks, es, rules, documented, sink, logged⟩ := ih nowhere
      refine ⟨ks, es, rules, documented, sink, fun {l log} on => ?_⟩
      obtain ⟨m, same, further, grown⟩ := logged (on.clone i)
      exact ⟨m, same, further, Nat.le_trans (l.size_clone_le i) grown⟩
    | happens h =>
      obtain ⟨ks, es, first⟩ := records_apply W h u nowhere
      obtain ⟨ls, fs, rules, documented, sink, logged⟩ := ih first.sink
      refine ⟨ks ++ ls, es ++ fs, ?_, List.rel_append first.documented documented, sink,
        fun {l log} on => ?_⟩
      · rw [List.countP_append]
        exact first.rules.trans rules
      · obtain ⟨m, same, further, grown⟩ := logged (on.recordAll es)
        have step : (u.into l).pass W (.happens h) = (u.apply W h).into (l.recordAll es) :=
          first.logged l
        exact ⟨m, (congrArg (watch W · ms) step).trans same,
          AuditLog.recordAll_append log es fs ▸ further, SharedLog.size_recordAll l es ▸ grown⟩

/-- A sink that somebody clones is one of the sinks of later. -/
theorem watch_clones {l : SharedLog} {log : AuditLog} {ms earlier later : List (Moment σ)} {i : Nat}
    (nowhere : u.sink = .nowhere) (on : l.On log) (split : ms = earlier ++ .clones i :: later) :
    ∃ k m : SharedLog, ((u.into l).watch W earlier).sink = .log k ∧
      ((u.into l).watch W ms).sink = .log m ∧ (k.clone i).2.size ≤ m.size := by
  obtain ⟨_, _, first⟩ := watched W earlier nowhere
  obtain ⟨k, before, met, -⟩ := first.logged on
  obtain ⟨_, _, second⟩ := watched W later first.sink
  obtain ⟨m, after, -, grown⟩ := second.logged (met.clone i)
  refine ⟨k, m, by rw [before]; rfl, ?_, grown⟩
  rw [split, watch_append, before]
  exact congrArg sink after

/-- Let an allocator work with any sink on a log of any capacity. At any time the events that were
recorded document what was decided, in this order; the counters count them, and there was one grant
or refusal for each client called. Every sink shows the latest of the events: a clone that was made
before the start or at any time since shows them under the number that was given for it. Of the
requests that are taken, each is deferred, by one ruling, or becomes a tentative grant. -/
theorem counters_events_and_calls_agree (W : World σ) (advisors : List Advisor) (w : σ)
    (ms : List (Moment σ)) :
    ∃ es : List AuditEvent, ∀ (n : Nat) (clones : List Nat)
      (own : Fin ((SharedLog.new n).cloneAll clones).size),
      let start := initial advisors (.log (((SharedLog.new n).cloneAll clones).attach own)) w
      let s := start.watch W ms
      let shown := es.drop (es.length - n)
      List.Forall₂ Ruling.Documented s.setting.journal.rulings es ∧
      s.counters.deferrals = es.countP (·.action = "defer") ∧
      s.counters.grants = es.countP (·.action = "grant") ∧
      s.counters.refusals = es.countP (·.action = "refuse") ∧
      s.counters.frees = es.countP (·.action = "free") ∧
      s.counters.grants + s.counters.refusals = s.setting.journal.calls.length ∧
      (∃ l log, s.sink = .log l ∧ log.capacity = n ∧ log.events = shown ∧
        (∀ i < l.size, l.log? i = some log) ∧
        (∀ before i after, clones = before ++ i :: after →
          ((SharedLog.new n).cloneAll before).CloneShows i l shown) ∧
        ∀ earlier i later, ms = earlier ++ .clones i :: later →
          ∃ k, (start.watch W earlier).sink = .log k ∧ k.CloneShows i l shown) ∧
      ∀ q rest client requested, s.phase = .running → s.setting.queue.take? = some (q, rest) →
        q.command = .allocate client requested →
        ∃ fs : Journal, (s.step W).setting.journal = fs ++ .took q :: s.setting.journal ∧
          (fs.rulings = [⟨.defer, client.id, requested, none⟩] ∧ fs.granted = [] ∨
          ∃ g : Grant, g.request = ⟨client, requested, q.priority, q.seq⟩ ∧ fs.granted = [g] ∧
            ∀ k ∈ fs.rulings, k.decision ≠ .defer) := by
  let u := (initial advisors .nowhere w).run W (happenings ms)
  obtain ⟨ks, es, rules, documented, nowhere, logged⟩ :=
    watched W ms (u := initial advisors .nowhere w) rfl
  have rulings : u.setting.journal.rulings = ks := rules.rulings
  have counted (d : Decision) (hd : d ≠ .withdraw) :
      u.counters.of d = es.countP (·.action = d.name) := by
    rw [Ruling.action_of_documented documented d]
    exact (rules.counters d hd).trans (by cases d <;> exact Nat.zero_add _)
  have calls : u.setting.journal.calls.length = ks.countP Ruling.answers :=
    rules.calls.trans (Nat.zero_add _)
  refine ⟨es, fun n clones own => ?_⟩
  have on := ((SharedLog.on_new n).cloneAll clones).attach own
  obtain ⟨l, same, every, grown⟩ := logged on
  intro start s shown
  have latest : ((AuditLog.empty n).recordAll es).events = shown := AuditLog.events_recordAll _ es
  have shows (i : Nat) (hi : i < l.size) : l.events? i = some shown := by
    rw [SharedLog.events?, every.log? hi, Option.map_some, latest]
  rw [show s = u.into l from same]
  refine ⟨rulings ▸ documented, counted .defer (by simp), counted .grant (by simp),
    counted .refuse (by simp), counted .free (by simp), ?_,
    ⟨l, _, rfl, AuditLog.capacity_recordAll _ es, latest, fun i hi => every.log? hi,
      fun before i after split hi => ?_, fun earlier i later split => ?_⟩,
    fun q rest client requested running next command => ?_⟩
  · calc u.counters.of .grant + u.counters.of .refuse
        = ks.countP (·.decision = .grant) + ks.countP (·.decision = .refuse) := by
          rw [counted .grant (by simp), counted .refuse (by simp),
            Ruling.action_of_documented documented, Ruling.action_of_documented documented]
      _ = ks.countP Ruling.answers := (Ruling.countP_answers ks).symm
      _ = u.setting.journal.calls.length := calls.symm
  · refine SharedLog.cloneShows_of_le shows (Nat.le_trans ?_ grown) hi
    show _ ≤ ((SharedLog.new n).cloneAll clones).size
    rw [split, SharedLog.cloneAll_append]
    exact SharedLog.size_cloneAll_le _ after
  · obtain ⟨k, m, met, last, among⟩ := watch_clones (W := W) (u := initial advisors .nowhere w)
      rfl on split
    obtain rfl : l = m := AuditSink.log.inj ((congrArg sink same).symm.trans last)
    exact ⟨k, met, SharedLog.cloneShows_of_le shows among⟩
  · obtain ⟨fs, journal, settled⟩ := request_settled W nowhere running next command
    obtain ⟨ls, gs, step⟩ := records_apply W .step u nowhere
    have alike : (u.into l).step W = (u.step W).into (l.recordAll gs) := step.logged l
    exact ⟨fs, alike ▸ journal, settled⟩

/-- A grant and a release, with room for one event; a clone of the sink is cloned in between. -/
example :
    let s := (initial [] (.log (.new 1)) 0).watch (World.steady .no)
      [.clones 0, .happens (asking "x" ["a"]), .happens .step, .clones 1,
        .happens (freeing "x" ["a"]), .happens .step]
    (match s.sink with
      | .log l => [0, 1, 2, 3].map fun i => (l.events? i).map fun es => es.map (·.action)
      | _ => []) = [some ["free"], some ["free"], some ["free"], none] := by
  decide +kernel

end Allocator

end Allotment
