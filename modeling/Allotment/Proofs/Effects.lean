import Allotment.Proofs.Consultation
import Allotment.Proofs.Exclusion
import Allotment.Proofs.Trail
import Allotment.Proofs.Units

/-!
# What comes of a reply

Every operation has an `Effect`: who is called, what is ruled, which advisors are told of a release,
and what the allocator submits itself. Effects add up (`Effect.trans`). A series of deliveries has
the effect that the replies call for, and what is refused is given up, together with every tentative
grant that it overlaps (`Replied`).
-/

namespace Allotment

variable {σ : Type} {W : World σ}

/-- How a reply is answered. Who does not want a grant gives up all that was locked for it. -/
def Ruling.ofReply : Grant × Reply → Ruling
  | (g, .accept) => ⟨.grant, g.client, g.requested, none⟩
  | (g, _) => ⟨.refuse, g.client, g.requested, some (Allocator.refusalDetail g.expanded)⟩

/-- Who is told that a client has lost something, the latest first. -/
def lossNotices (names : List String) (c : ClientId) (freed : ResourceSet) :
    List (String × ClientId × ResourceSet) :=
  if freed.isEmpty then [] else (names.map fun name => (name, c, freed)).reverse

/-- What is submitted when a refusal has freed something. -/
def lossCommands (freed : ResourceSet) : List Command :=
  if freed.isEmpty then [] else [.retryDeferred]

/-! ### Outcomes -/

/-- The rulings stand in the order in which they are made, all else with the latest first. -/
structure Outcome where
  calls : List (Grant × Reply) := []
  rulings : List Ruling := []
  notices : List (String × ClientId × ResourceSet) := []
  /-- What the allocator submits itself. -/
  commands : List Command := []

namespace Journal

/-- The grants that were refused. -/
def refused (cs : List (Grant × Reply)) : List Grant := (cs.filter (·.2 ≠ .accept)).map (·.1)

theorem refused_append (cs ds : List (Grant × Reply)) :
    refused (cs ++ ds) = refused cs ++ refused ds := by
  simp [refused]

theorem mem_refused {cs : List (Grant × Reply)} {g : Grant} :
    g ∈ refused cs ↔ ∃ reply, (g, reply) ∈ cs ∧ reply ≠ .accept := by
  simp [refused]

/-- What was handed to an outside sink, in the order in which it was. -/
def audits (j : Journal) : List AuditEvent :=
  j.reverse.filterMap fun
    | .audited e => some e
    | _ => none

theorem audits_append (es j : Journal) : audits (es ++ j) = audits j ++ audits es := by
  rw [audits, List.reverse_append, List.filterMap_append]
  rfl

theorem audits_background {es : Journal} (h : ∀ e ∈ es, e.isBackground = true) :
    audits es = [] := by
  refine List.filterMap_eq_nil_iff.mpr fun e he => ?_
  have background := h e (List.mem_reverse.mp he)
  cases e with
  | audited => cases background
  | _ => rfl

end Journal

/-- What becomes of a sink that gets some events. An outside one gets those that the entries
show. -/
inductive AuditSink.Gets (es : Journal) (events : List AuditEvent) : AuditSink → AuditSink → Prop
  | nowhere : Gets es events .nowhere .nowhere
  | log (l : SharedLog) : Gets es events (.log l) (.log (l.recordAll events))
  | outside (shown : es.audits = events) : Gets es events .outside .outside

namespace AuditSink.Gets

variable {a b c : AuditSink} {es fs : Journal} {earlier later : List AuditEvent}

theorem none (unaudited : es.audits = []) (a : AuditSink) : a.Gets es [] a := by
  cases a with
  | nowhere => exact .nowhere
  | log l => exact .log l
  | outside => exact .outside unaudited

theorem append (h : a.Gets es earlier b) (k : b.Gets fs later c) :
    a.Gets (fs ++ es) (earlier ++ later) c := by
  cases h with
  | nowhere =>
    cases k
    exact .nowhere
  | log l =>
    cases k
    rw [← SharedLog.recordAll_append]
    exact .log l
  | outside shown =>
    cases k with
    | outside further =>
      refine .outside ?_
      rw [Journal.audits_append, shown, further]

/-- What the sinks on a log show after that. -/
theorem shows {l : SharedLog} (h : Gets es earlier (.log l) b) :
    ∃ m : SharedLog, b = .log m ∧ l.Shows m earlier := by
  cases h
  exact ⟨_, rfl, l.shows_recordAll earlier⟩

end AuditSink.Gets

namespace Outcome

open Journal

def andThen (o p : Outcome) : Outcome where
  calls := p.calls ++ o.calls
  rulings := o.rulings ++ p.rulings
  notices := p.notices ++ o.notices
  commands := p.commands ++ o.commands

theorem nil_andThen (o : Outcome) : andThen {} o = o := by
  simp [andThen]

theorem andThen_nil (o : Outcome) : o.andThen {} = o := by
  simp [andThen]

/-- What the replies call for, if the advisors have these names. -/
def ofReplies (names : List String) (cs : List (Grant × Reply)) : Outcome where
  calls := cs
  rulings := cs.reverse.map .ofReply
  notices := (refused cs).flatMap fun g => lossNotices names g.client g.expanded
  commands := (refused cs).flatMap fun g => lossCommands g.expanded

theorem ofReplies_append (names : List String) (cs ds : List (Grant × Reply)) :
    ofReplies names (ds ++ cs) = (ofReplies names cs).andThen (ofReplies names ds) := by
  simp [ofReplies, andThen, refused_append]

end Outcome

namespace Journal

/-- What some entries show. Whatever comes in is submitted by the outside, or by the allocator
itself. -/
structure Shows (W : World σ) (es : Journal) (o : Outcome) : Prop where
  calls : es.calls = o.calls
  rulings : es.rulings = o.rulings
  notices : es.notices = o.notices
  submitted : ∀ A, W.Submits A → ∀ q, .entered q ∈ es →
    A ⟨q.command, q.priority⟩ ∨ q.command ∈ o.commands ∧ q.priority = .normal

variable {es fs : Journal} {o p : Outcome}

theorem Shows.append (h : Shows W es o) (k : Shows W fs p) : Shows W (fs ++ es) (o.andThen p) := by
  refine ⟨?_, ?_, ?_, fun A outside q entered => ?_⟩
  · rw [calls_append, h.calls, k.calls]
    rfl
  · rw [rulings_append, h.rulings, k.rulings]
    rfl
  · rw [notices_append, h.notices, k.notices]
    rfl
  · rcases List.mem_append.mp entered with entered | entered
    · exact (k.submitted A outside q entered).imp_right fun m => ⟨List.mem_append_left _ m.1, m.2⟩
    · exact (h.submitted A outside q entered).imp_right fun m => ⟨List.mem_append_right _ m.1, m.2⟩

/-- Some entries that show nothing. -/
structure Bare (es : Journal) : Prop where
  calls : es.calls = []
  rulings : es.rulings = []
  notices : es.notices = []
  audits : es.audits = []
  entered : es.entered = []

theorem Bare.shows (h : Bare es) (W : World σ) : Shows W es {} := by
  refine ⟨h.calls, h.rulings, h.notices, fun A outside q entered => ?_⟩
  have among := mem_entered.mpr entered
  rw [h.entered] at among
  exact absurd among List.not_mem_nil

theorem notices_of_entered {es : List Event} (h : ∀ e ∈ es, ∃ q, e = .entered q) :
    notices es = [] := by
  refine List.filterMap_eq_nil_iff.mpr fun e he => ?_
  obtain ⟨q, rfl⟩ := h e he
  rfl

end Journal

namespace Setting

open Journal

variable {x y : Setting σ} {A : Submission → Prop}

theorem Stirs.submitted (h : Stirs A x y) :
    y.queue.closed = x.queue.closed ∧ ∃ es : Journal, y.journal = es ++ x.journal ∧
      ∀ q, .entered q ∈ es → A ⟨q.command, q.priority⟩ := by
  induction h with
  | refl => exact ⟨rfl, [], rfl, by simp⟩
  | @tail y z _ stir ih =>
    obtain ⟨closed, es, journal, admitted⟩ := ih
    cases stir with
    | turn w => exact ⟨closed, es, journal, admitted⟩
    | note e _ remark =>
      refine ⟨closed, e :: es, congrArg (e :: ·) journal, fun q entered => ?_⟩
      rcases List.mem_cons.mp entered with rfl | entered
      · cases remark
      · exact admitted q entered
    | submit s other =>
      refine ⟨(closed_submit y s).trans closed, ?_⟩
      unfold submit
      split
      · exact ⟨es, journal, admitted⟩
      · refine ⟨_ :: es, congrArg (_ :: ·) journal, fun q entered => ?_⟩
        rcases List.mem_cons.mp entered with same | entered
        · obtain rfl := Event.entered.inj same
          exact other
        · exact admitted q entered

/-- What the outside does while it is asked shows only in what advisors are told. -/
theorem shows_of_stirs {ns : List (String × ClientId × ResourceSet)}
    (stirs : ∀ A, W.Submits A → Stirs A x y)
    (notices : y.journal.notices = ns ++ x.journal.notices) :
    y.queue.closed = x.queue.closed ∧ ∃ es : Journal, y.journal = es ++ x.journal ∧
      es.audits = [] ∧ Shows W es { notices := ns } := by
  obtain ⟨es, background, journal⟩ := (stirs _ W.submits_any).background
  have plain : ∀ e ∈ es, e.isPlain = true := fun e he => Event.plain_of_background (background e he)
  refine ⟨(stirs _ W.submits_any).submitted.1, es, journal, audits_background background,
    calls_plain plain, rulings_plain plain, ?_, fun A outside q entered => .inl ?_⟩
  · rw [journal, notices_append] at notices
    exact List.append_cancel_right notices
  · obtain ⟨-, fs, same, admitted⟩ := (stirs A outside).submitted
    rw [journal] at same
    exact admitted q (List.append_cancel_right same ▸ entered)

/-- An open queue takes in all that is submitted. -/
theorem entered_submitAll (opened : x.queue.closed = false) (ss : List Submission) :
    ∃ es : Journal, (x.submitAll ss).journal = es ++ x.journal ∧
      ∀ s ∈ ss, ∃ q, .entered q ∈ es ∧ q.command = s.command := by
  induction ss generalizing x with
  | nil => exact ⟨[], rfl, by simp⟩
  | cons s ss ih =>
    obtain ⟨es, journal, entered⟩ := ih (x := x.submit s) ((closed_submit x s).trans opened)
    let q : Queued := ⟨s.command, s.priority, x.queue.nextSeq⟩
    have first : (x.submit s).journal = .entered q :: x.journal := by
      simp [submit, opened, q]
    refine ⟨es ++ [.entered q], ?_, fun t ht => ?_⟩
    · exact journal.trans ((congrArg (es ++ ·) first).trans (List.append_cons ..))
    · rcases List.mem_cons.mp ht with rfl | ht
      · exact ⟨q, List.mem_append_right _ (List.mem_singleton_self _), rfl⟩
      · obtain ⟨q, entry, same⟩ := entered t ht
        exact ⟨q, List.mem_append_left _ entry, same⟩

end Setting

/-! ### Effects of operations -/

namespace Allocator

open Journal Grant

/-- What comes about from `s` to `t`. Every ruling is documented, and an allocator that goes on
submits all it wants to. -/
structure Effect (W : World σ) (s t : Allocator σ) (o : Outcome) : Prop where
  names : Chain.names t.advisors = Chain.names s.advisors
  phase : t.phase = s.phase ∨ t.phase = .crashed
  closed : t.setting.queue.closed = s.setting.queue.closed
  entries : ∃ (es : Journal) (events : List AuditEvent),
    t.setting.journal = es ++ s.setting.journal ∧ Shows W es o ∧
    List.Forall₂ Ruling.Documented o.rulings events ∧ s.sink.Gets es events t.sink ∧
    (t.phase = .running → s.setting.queue.closed = false →
      ∀ c ∈ o.commands, ∃ q, .entered q ∈ es ∧ q.command = c)

variable {s t u : Allocator σ} {o p : Outcome}

theorem Effect.trans (h : Effect W s t o) (k : Effect W t u p) : Effect W s u (o.andThen p) := by
  obtain ⟨es, events, journal, shows, documented, gets, entered⟩ := h.entries
  obtain ⟨fs, more, further, shown, recorded, got, followed⟩ := k.entries
  have before (running : u.phase = .running) : t.phase = .running := by
    rcases k.phase with same | crashed
    · exact same.symm.trans running
    · cases running.symm.trans crashed
  refine ⟨k.names.trans h.names, ?_, k.closed.trans h.closed, fs ++ es, events ++ more, ?_,
    shows.append shown, List.rel_append documented recorded, gets.append got,
    fun running opened c hc => ?_⟩
  · rcases k.phase with same | crashed
    · exact same ▸ h.phase
    · exact .inr crashed
  · rw [further, journal, List.append_assoc]
  · rcases List.mem_append.mp hc with hc | hc
    · obtain ⟨q, entry, same⟩ := followed running (h.closed.trans opened) c hc
      exact ⟨q, List.mem_append_left _ entry, same⟩
    · obtain ⟨q, entry, same⟩ := entered (before running) opened c hc
      exact ⟨q, List.mem_append_right _ entry, same⟩

theorem Effect.quietly (h : Effect W s t o) (k : Effect W t u {}) : Effect W s u o :=
  o.andThen_nil ▸ h.trans k

/-- The allocator changes nothing but its books and its advisors. -/
theorem effect_of_entries {x : Setting σ} {as : List Advisor} {table : Table}
    {deferred : List Request} {pending : List Grant} {counters : Counters} {es : Journal}
    {cs : List (Grant × Reply)} {ns : List (String × ClientId × ResourceSet)}
    (names : Chain.names as = Chain.names s.advisors)
    (closed : x.queue.closed = s.setting.queue.closed)
    (journal : x.journal = es ++ s.setting.journal) (unaudited : es.audits = [])
    (shows : Shows W es { calls := cs, notices := ns }) :
    Effect W s { s with table, deferred, pending, advisors := as, counters, setting := x }
      { calls := cs, notices := ns } :=
  ⟨names, .inl rfl, closed, es, [], journal, shows, .nil, .none unaudited s.sink, by simp⟩

theorem bare_nil : Bare [] := ⟨rfl, rfl, rfl, rfl, rfl⟩

theorem effect_unseen {table : Table} {deferred : List Request} {pending : List Grant}
    {counters : Counters} : Effect W s { s with table, deferred, pending, counters } {} :=
  effect_of_entries rfl rfl rfl rfl (bare_nil.shows W)

theorem Effect.refl (W : World σ) (s : Allocator σ) : Effect W s s {} := effect_unseen

theorem effect_of_bare {e : Event} (bare : Bare [e]) (W : World σ) (s : Allocator σ) :
    Effect W s (s.note e) {} :=
  effect_of_entries rfl rfl rfl bare.audits (bare.shows W)

theorem effect_cancelled (W : World σ) (gs : List Grant) (s : Allocator σ) :
    Effect W s (s.noteAll (gs.map .cancelled)) {} := by
  induction gs generalizing s with
  | nil => exact .refl W s
  | cons g gs ih => exact (effect_of_bare ⟨rfl, rfl, rfl, rfl, rfl⟩ W s).quietly (ih _)

/-- The advisors or a client are asked. -/
theorem effect_of_stirs {x : Setting σ} {as : List Advisor}
    {ns : List (String × ClientId × ResourceSet)} (stirs : ∀ A, W.Submits A → s.setting.Stirs A x)
    (names : Chain.names as = Chain.names s.advisors)
    (notices : x.journal.notices = ns ++ s.setting.journal.notices) :
    Effect W s { s with advisors := as, setting := x } { notices := ns } := by
  obtain ⟨closed, es, journal, unaudited, shows⟩ := Setting.shows_of_stirs stirs notices
  exact effect_of_entries names closed journal unaudited shows

theorem names_consult (W : World σ) (h : Hook) (c : ClientId) (rs : ResourceSet)
    (as : List Advisor) (x : Setting σ) :
    Chain.names (Chain.consult (Advisor.ask W h c rs) as x).2.1 = Chain.names as := by
  induction as generalizing x with
  | nil => rfl
  | cons a as ih =>
    obtain ⟨-, advisor, -, name, -⟩ := Setting.ask_responds W h c rs a x
    have same := (congrArg Advisor.name advisor).trans name
    unfold Chain.consult
    dsimp only
    split
    · exact congrArg₂ List.cons same (ih _)
    · exact congrArg (· :: Chain.names as) same

theorem names_notify (W : World σ) (h : Hook) (c : ClientId) (rs : ResourceSet)
    (as : List Advisor) (x : Setting σ) :
    Chain.names (Chain.notify (Advisor.ask W h c rs) as x).1 = Chain.names as := by
  induction as generalizing x with
  | nil => rfl
  | cons a as ih =>
    obtain ⟨-, advisor, -, name, -⟩ := Setting.ask_responds W h c rs a x
    exact congrArg₂ List.cons ((congrArg Advisor.name advisor).trans name) (ih _)

theorem effect_question (W : World σ) {h : Hook} (early : h ≠ .released) (c : ClientId)
    (rs : ResourceSet) (s : Allocator σ) : Effect W s (s.question W h c rs).2 {} := by
  obtain ⟨-, -, -, -, es, leads, silent⟩ :=
    Setting.consult_responds W early c rs s.advisors s.setting
  have notices := (notices_outline _).symm.trans (congrArg Journal.notices leads.outline)
  rw [notices_append, silent, notices_outline] at notices
  have asked := effect_of_stirs (W := W) (s := s)
    (fun A outside => Setting.stirs_consult outside h c rs s.advisors s.setting)
    (names_consult W h c rs s.advisors s.setting) notices
  exact asked.quietly (effect_of_bare ⟨rfl, rfl, rfl, rfl, rfl⟩ W _)

theorem effect_announce (W : World σ) (c : ClientId) (rs : ResourceSet) (s : Allocator σ) :
    Effect W s (s.announce W c rs)
      { notices := ((Chain.names s.advisors).map fun name => (name, c, rs)).reverse } := by
  obtain ⟨-, -, -, es, leads, told⟩ := Setting.notify_responds W c rs s.advisors s.setting
  have notices := (notices_outline _).symm.trans (congrArg Journal.notices leads.outline)
  rw [notices_append, told, notices_outline] at notices
  have asked := effect_of_stirs (W := W) (s := s)
    (fun A outside => Setting.stirs_notify outside .released c rs s.advisors s.setting)
    (names_notify W .released c rs s.advisors s.setting) notices
  rw [Chain.names, List.map_map]
  exact asked.quietly (effect_of_bare ⟨rfl, rfl, rfl, rfl, rfl⟩ W _)

theorem effect_call (W : World σ) (g : Grant) (s : Allocator σ) :
    Effect W s (s.call W g).2 { calls := [(g, (s.call W g).1)] } := by
  have submits (A : Submission → Prop) (outside : W.Submits A) :=
    outside.call g.request.client g.requested s.setting.world
  unfold call
  generalize W.call g.request.client g.requested s.setting.world = answer at submits ⊢
  obtain ⟨reply, ss, w⟩ := answer
  let x := ({ s.setting with world := w } : Setting σ).note (.called g reply)
  have shows : Shows W [.called g reply] { calls := [(g, reply)] } := ⟨rfl, rfl, rfl, by simp⟩
  have called : Effect W s { s with setting := x } { calls := [(g, reply)] } :=
    effect_of_entries rfl rfl rfl rfl shows
  have silent : (x.submitAll ss).journal.notices = [] ++ x.journal.notices := by
    obtain ⟨es, entered, journal⟩ := x.grows_submitAll ss
    rw [journal, notices_append, notices_of_entered entered]
  exact called.quietly (effect_of_stirs (s := { s with setting := x })
    (fun A outside => Setting.stirs_submitAll (submits A outside) x) rfl silent)

theorem effect_record (W : World σ) (d : Decision) (c : ClientId) (rs : ResourceSet)
    (detail : Option String) (s : Allocator σ) :
    Effect W s (s.record W d c rs detail) { rulings := [⟨d, c, rs, detail⟩] } := by
  have phase : (s.record W d c rs detail).phase = s.phase ∨
      (s.record W d c rs detail).phase = .crashed := by
    obtain ⟨es, phase, -, kept, same⟩ := books_record W d c rs detail s
    have going : (s.record W d c rs detail).phase = phase := congrArg Books.phase same
    rwa [going]
  let e : AuditEvent := .build (W.stamp s.setting.world).1 c d.name rs detail
  have documented : List.Forall₂ Ruling.Documented [⟨d, c, rs, detail⟩] [e] := .cons ⟨_, rfl⟩ .nil
  refine ⟨by rw [advisors_record], phase, by rw [queue_record], ?_⟩
  unfold record recordEvent
  dsimp only
  split <;> rename_i sink <;> rw [sink]
  · exact ⟨[.decided d c rs detail], [e], rfl, ⟨rfl, rfl, rfl, by simp⟩, documented, .nowhere,
      by simp⟩
  · exact ⟨[.decided d c rs detail], [e], rfl, ⟨rfl, rfl, rfl, by simp⟩, documented, .log _,
      by simp⟩
  · exact ⟨[.audited e, .decided d c rs detail], [e], rfl, ⟨rfl, rfl, rfl, by simp⟩, documented,
      .outside rfl, by simp⟩

theorem effect_followUp (W : World σ) (cs : List Command) (s : Allocator σ) :
    Effect W s (s.followUp cs) { commands := cs } := by
  unfold followUp
  split
  · let ss : List Submission := cs.map fun c => ⟨c, .normal⟩
    have submits : ∀ x ∈ ss, x.command ∈ cs ∧ x.priority = .normal := by
      intro x hx
      obtain ⟨c, hc, rfl⟩ := List.mem_map.mp hx
      exact ⟨hc, rfl⟩
    obtain ⟨es, entries, journal⟩ := s.setting.grows_submitAll ss
    have background : ∀ e ∈ es, e.isBackground = true :=
      fun e he => Event.background_of_entered (entries e he)
    have plain : ∀ e ∈ es, e.isPlain = true :=
      fun e he => Event.plain_of_background (background e he)
    refine ⟨rfl, .inl rfl, Setting.closed_submitAll _ _, es, [], journal,
      ⟨calls_plain plain, rulings_plain plain, notices_of_entered entries, ?_⟩, .nil,
      .none (audits_background background) s.sink, ?_⟩
    · intro A _ q entered
      obtain ⟨-, fs, same, admitted⟩ := (Setting.stirs_submitAll submits s.setting).submitted
      rw [journal] at same
      exact .inr (admitted q (List.append_cancel_right same ▸ entered))
    · intro _ opened c hc
      obtain ⟨fs, same, entered⟩ := Setting.entered_submitAll opened ss
      rw [journal] at same
      exact List.append_cancel_right same ▸ entered ⟨c, .normal⟩ (List.mem_map_of_mem hc)
  · rename_i stopped
    refine ⟨rfl, .inl rfl, rfl, [], [], rfl, ⟨rfl, rfl, rfl, by simp⟩, .nil, .none rfl s.sink,
      fun running => ?_⟩
    exact absurd (isRunning_iff.mpr running) stopped

theorem effect_strip (W : World σ) (c : ClientId) (rs : ResourceSet) (cause : FreeCause)
    (s : Allocator σ) : Effect W s ((s.take c rs cause).2.cancelOrphaned c) {} := by
  have freed : Effect W s { s with table := (s.table.free c rs).2 } {} := effect_unseen
  have told := freed.quietly
    (effect_of_bare (e := .freed c (s.table.heldOf c rs) cause) ⟨rfl, rfl, rfl, rfl, rfl⟩ W _)
  let kept := (s.take c rs cause).2.pending.filter fun g =>
    !(g.client == c && !(s.take c rs cause).2.isCovered g)
  have dropped : Effect W (s.take c rs cause).2 { (s.take c rs cause).2 with pending := kept } {} :=
    effect_unseen
  exact (told.quietly dropped).quietly (effect_cancelled W _ _)

theorem effect_isReady (W : World σ) (earlier : List Grant) (g : Grant) (s : Allocator σ) :
    Effect W s (s.isReady W earlier g).2 {} := by
  unfold isReady
  split
  · exact .refl W s
  · split
    · exact .refl W s
    · exact effect_question W (by simp) g.client g.claimed s

theorem effect_accept (W : World σ) {q : Queued} {rest : Queue}
    (next : s.setting.queue.take? = some (q, rest)) : Effect W s (s.accept q rest) {} := by
  obtain ⟨-, -, opened, still⟩ := Queue.waiting_of_take? next
  have bare : Bare [.took q] := ⟨rfl, rfl, rfl, rfl, rfl⟩
  exact effect_of_entries rfl (still.trans opened.symm) rfl bare.audits (bare.shows W)

/-- A request that is granted is at most asked about. -/
theorem effect_granted {c : ClientId} {rs expanded claimed : ResourceSet}
    (h : s.tryAllocate W c rs = (some (expanded, claimed), t)) : Effect W s t {} := by
  have bare : Bare [.expanding rs] := ⟨rfl, rfl, rfl, rfl, rfl⟩
  have opening : Effect W s (s.expand W rs).2 {} :=
    effect_of_entries rfl rfl rfl bare.audits (bare.shows W)
  obtain ⟨none, -⟩ | ⟨expanded, claimed, -, available, claims, granted | claimed⟩ :=
    tryAllocate_expanded h
  · cases none
  · exact granted.2.2 ▸ opening
  · obtain ⟨locked, claim, answer⟩ := claimed
    have free := available_of_claimed (writes_expand W rs s) available claims
    obtain ⟨rfl, -⟩ | ⟨u, may, ⟨rfl, -⟩ | ⟨-, v, table, prepare, rfl, -⟩⟩ := claim_cases free claim
    · cases answer
    · cases answer
    · have asked := effect_question W (h := .may) (by simp) c claimed (s.expand W rs).2
      have prepared := effect_question W (h := .prepare) (by simp) c claimed u
      rw [may] at asked
      rw [prepare] at prepared
      exact ((opening.quietly asked).quietly prepared).quietly effect_unseen

/-! ### Deliveries -/

theorem heldOf_covered {g : Grant} (covered : ∀ r ∈ g.expanded, s.table.holder r = some g.client) :
    s.table.heldOf g.client g.expanded = g.expanded := by
  refine ResourceSet.ext fun r => ?_
  rw [Table.mem_heldOf]
  exact ⟨And.left, fun hr => ⟨hr, covered r hr⟩⟩

theorem effect_acceptGrant (W : World σ) (g : Grant) (s : Allocator σ) :
    Effect W s (s.acceptGrant W g) { rulings := [.ofReply (g, .accept)] } := by
  have counted : Effect W s (s.count .addGrant) {} := effect_unseen
  have ruled := counted.trans (effect_record W .grant g.client g.requested none _)
  rwa [Outcome.nil_andThen] at ruled

/-- Whatever its client has of the grant is freed. -/
theorem effect_refuseGrant (W : World σ) (g : Grant) {freed : ResourceSet}
    (held : s.table.heldOf g.client g.expanded = freed) :
    Effect W s (s.refuseGrant W g)
      { rulings := [⟨.refuse, g.client, g.requested, some (refusalDetail freed)⟩]
        notices := lossNotices (Chain.names s.advisors) g.client freed
        commands := lossCommands freed } := by
  have counted : Effect W s (s.count .addRefusal) {} := effect_unseen
  have taken := counted.quietly
    (effect_strip W g.client g.expanded .refused (s.count .addRefusal))
  let stripped :=
    ((s.count .addRefusal).take g.client g.expanded .refused).2.cancelOrphaned g.client
  have names : Chain.names stripped.advisors = Chain.names s.advisors := taken.names
  have told : Effect W stripped (stripped.announceFreed W g.client freed)
      { notices := lossNotices (Chain.names s.advisors) g.client freed } := by
    rw [← names]
    unfold announceFreed lossNotices
    split
    · exact .refl W stripped
    · exact effect_announce W g.client freed stripped
  have ruled := (taken.trans told).trans
    (effect_record W .refuse g.client g.requested (some (refusalDetail freed)) _)
  rw [Outcome.nil_andThen] at ruled
  unfold refuseGrant
  have lost : ((s.count .addRefusal).take g.client g.expanded .refused).1 = freed := held
  dsimp only
  rw [lost]
  unfold lossCommands
  split
  · exact ruled
  · exact ruled.trans (effect_followUp W [.retryDeferred] _)

theorem effect_deliver (W : World σ) {g : Grant}
    (covered : ∀ r ∈ g.expanded, s.table.holder r = some g.client) :
    Effect W s (s.deliver W g)
      (.ofReplies (Chain.names s.advisors) [(g, (s.call W g).1)]) := by
  have called := effect_call W g s
  have kept : (s.call W g).2.table = s.table := rfl
  have same : (s.call W g).2.advisors = s.advisors := rfl
  have refused (reply : Reply) (no : reply ≠ .accept) (u : Allocator σ)
      (answer : s.call W g = (reply, u)) :
      Effect W s (u.refuseGrant W g) (.ofReplies (Chain.names s.advisors) [(g, reply)]) := by
    rw [answer] at called kept same
    have ruled := called.trans (effect_refuseGrant W g (heldOf_covered (kept.symm ▸ covered)))
    rw [same] at ruled
    cases reply with
    | accept => exact absurd rfl no
    | refuse | breakOff =>
      simpa [Outcome.andThen, Outcome.ofReplies, Journal.refused, Ruling.ofReply] using ruled
  unfold deliver
  rcases answer : s.call W g with ⟨reply, u⟩
  cases reply with
  | accept =>
    rw [answer] at called
    simpa [Outcome.andThen, Outcome.ofReplies, Journal.refused]
      using called.trans (effect_acceptGrant W g u)
  | refuse => exact refused .refuse (by simp) u answer
  | breakOff => exact refused .breakOff (by simp) u answer

/-- The clients of some tentative grants have been called, and what they refused is free. A grant
that overlapped any of that is gone. -/
structure Replied (W : World σ) (s t : Allocator σ) (cs : List (Grant × Reply)) : Prop where
  effect : Effect W s t (.ofReplies (Chain.names s.advisors) cs)
  freed : ∀ g ∈ refused cs, ∀ r ∈ g.expanded, t.table.holder r = none
  kept : ∀ r, (∀ g ∈ refused cs, r ∉ g.expanded) → t.table.holder r = s.table.holder r
  pending : ∀ k, k ∈ t.pending ↔ k ∈ s.pending ∧ (∀ reply, (k, reply) ∉ cs) ∧
    ∀ g ∈ refused cs, ∀ r ∈ k.expanded, r ∉ g.expanded
  tentative : ∀ g reply, (g, reply) ∈ cs → g ∈ s.pending
  apart : (refused cs).Pairwise fun g k => ∀ r ∈ g.expanded, r ∉ k.expanded

namespace Replied

variable {cs ds : List (Grant × Reply)}

theorem of_quiet (effect : Effect W s t {}) (table : t.table = s.table)
    (pending : t.pending = s.pending) : Replied W s t [] := by
  refine ⟨effect, ?_, fun r _ => by rw [table], ?_, ?_, .nil⟩ <;> simp [refused, pending]

theorem trans (h : Replied W s t cs) (k : Replied W t u ds) : Replied W s u (ds ++ cs) := by
  have mem (g : Grant) : g ∈ refused (ds ++ cs) ↔ g ∈ refused ds ∨ g ∈ refused cs := by
    rw [refused_append, List.mem_append]
  refine ⟨?_, fun g hg r hr => ?_, fun r none => ?_, fun g => ?_, fun g reply called => ?_, ?_⟩
  · have further := k.effect
    rw [h.effect.names] at further
    exact Outcome.ofReplies_append _ cs ds ▸ h.effect.trans further
  · rcases (mem g).mp hg with hg | hg
    · exact k.freed g hg r hr
    · by_cases again : ∃ l ∈ refused ds, r ∈ l.expanded
      · obtain ⟨l, hl, both⟩ := again
        exact k.freed l hl r both
      · rw [k.kept r fun l hl both => again ⟨l, hl, both⟩]
        exact h.freed g hg r hr
  · rw [k.kept r fun g hg => none g ((mem g).mpr (.inl hg))]
    exact h.kept r fun g hg => none g ((mem g).mpr (.inr hg))
  · rw [k.pending, h.pending]
    simp only [List.mem_append, mem, not_or, or_imp, forall_and]
    tauto
  · rcases List.mem_append.mp called with called | called
    · exact ((h.pending g).mp (k.tentative g reply called)).1
    · exact h.tentative g reply called
  · rw [refused_append]
    refine List.pairwise_append.mpr ⟨k.apart, h.apart, fun g hg l hl => ?_⟩
    obtain ⟨reply, called, -⟩ := mem_refused.mp hg
    exact ((h.pending g).mp (k.tentative g reply called)).2.2 l hl

end Replied

theorem pending_refuseGrant (W : World σ) (g : Grant) (s : Allocator σ) :
    (s.refuseGrant W g).pending = (s.books.strip g.client g.expanded .refused).pending := by
  have stripped := congrArg Books.pending
    (books_strip g.client g.expanded .refused (s.count .addRefusal))
  refine Eq.trans ?_ stripped
  unfold refuseGrant
  dsimp only
  split <;> simp [books]

theorem mem_others {gs before after : List Grant} {g k : Grant} (once : gs.Nodup)
    (split : gs = before ++ g :: after) : k ∈ before ++ after ↔ k ∈ gs ∧ k ≠ g := by
  rw [split, List.nodup_middle, List.nodup_cons] at once
  rw [split, List.mem_append, List.mem_append, List.mem_cons]
  constructor
  · intro other
    refine ⟨other.imp_right .inr, ?_⟩
    rintro rfl
    exact once.1 (List.mem_append.mpr other)
  · rintro ⟨before | rfl | after, other⟩
    · exact .inl before
    · exact absurd rfl other
    · exact .inr after

/-- What a delivery does to the table and to the tentative grants. -/
theorem deliver_cases (W : World σ) (g : Grant) (s : Allocator σ) :
    (s.call W g).1 = .accept ∧ (s.deliver W g).table = s.table ∧
      (s.deliver W g).pending = s.pending ∨
    (s.call W g).1 ≠ .accept ∧ (s.deliver W g).table = (s.table.free g.client g.expanded).2 ∧
      (s.deliver W g).pending = (s.books.strip g.client g.expanded .refused).pending := by
  have table : (s.call W g).2.table = s.table := rfl
  have pending := pending_call W g s
  have refused (u : Allocator σ) (answer : (s.call W g).2 = u) :
      (u.refuseGrant W g).table = (s.table.free g.client g.expanded).2 ∧
      (u.refuseGrant W g).pending = (s.books.strip g.client g.expanded .refused).pending := by
    rw [answer] at table pending
    refine ⟨table ▸ table_refuseGrant W g u, (pending_refuseGrant W g u).trans ?_⟩
    simp [Books.strip, books, table, pending]
  unfold deliver
  rcases answer : s.call W g with ⟨reply, u⟩
  rw [answer] at table pending refused
  cases reply with
  | accept =>
    refine .inl ⟨rfl, Eq.trans ?_ table, (pending_acceptGrant W g u).trans pending⟩
    exact table_record W .grant g.client g.requested none (u.count .addGrant)
  | refuse | breakOff => exact .inr ⟨by simp, refused u rfl⟩

theorem inOrder_ready {before after : List Grant} {g : Grant} (order : s.books.InOrder)
    (split : s.pending = before ++ g :: after) (ready : s.isReady W before g = (true, t)) :
    ({ t with pending := before ++ after } : Allocator σ).books.InOrder := by
  obtain ⟨-, es, background, books⟩ := isReady_true ready
  have still : ∀ e ∈ g.approval ++ es, e.isStill = true := fun e he =>
    (List.mem_append.mp he).elim (g.still_of_approval e) fun he =>
      Event.still_of_quiet (Event.quiet_of_background (background e he))
  have kept : t.books.InOrder := books ▸ order.write still
  have rest := Books.InOrder.sublist_of_split (b := t.books)
    ((congrArg Books.pending books).trans split)
  exact ⟨kept.ledger, fun k hk => kept.covered k (rest.subset hk),
    fun k hk => kept.claims k (rest.subset hk), kept.apart.sublist rest⟩

/-- What a refusal leaves has nothing in common with what was refused, whoever asked for it. -/
theorem mem_pending_refused {g l : Grant} (order : u.books.InOrder)
    (covered : ∀ r ∈ g.expanded, u.table.holder r = some g.client) :
    l ∈ (u.books.strip g.client g.expanded .refused).pending ↔
      l ∈ u.pending ∧ ∀ r ∈ l.expanded, r ∉ g.expanded := by
  rw [Books.mem_pending_strip, order.mem_orphans]
  constructor
  · rintro ⟨waiting, intact⟩
    refine ⟨waiting, fun r hr both => intact ⟨waiting, ?_, r, hr, both⟩⟩
    -- Who holds something of the grant is its client.
    have mine := order.covered l waiting r hr
    exact Option.some.inj (mine.symm.trans (covered r both))
  · rintro ⟨waiting, free⟩
    exact ⟨waiting, fun ⟨_, _, r, hr, both⟩ => free r hr both⟩

theorem replied_deliver {before after : List Grant} {g : Grant} {k : Nat}
    (reliable : Reliable (s.docket none k)) (split : s.pending = before ++ g :: after)
    (ready : s.isReady W before g = (true, t)) :
    ∃ reply, Replied W s (deliver W g { t with pending := before ++ after }) [(g, reply)] := by
  have order : s.books.InOrder := reliable.sound.inOrder
  have once : s.pending.Nodup := reliable.shown.conserved.nodup_pending reliable.sound.regular
  have waits : g ∈ s.pending := by simp [split]
  let u : Allocator σ := { t with pending := before ++ after }
  obtain ⟨-, es, -, books⟩ := isReady_true ready
  have table : u.table = s.table := congrArg Books.table books
  have covered : ∀ r ∈ g.expanded, u.table.holder r = some g.client :=
    table ▸ order.covered g waits
  have asked := effect_isReady W before g s
  rw [ready] at asked
  have left : Effect W s u {} := asked.quietly effect_unseen
  have effect := left.trans (effect_deliver W covered)
  rw [left.names, Outcome.nil_andThen] at effect
  have tentative (reply : Reply) : ∀ l other, (l, other) ∈ [(g, reply)] → l ∈ s.pending := by
    rintro l other called
    obtain ⟨rfl, -⟩ := Prod.mk.inj (List.mem_singleton.mp called)
    exact waits
  have uncalled (l : Grant) (reply : Reply) : (∀ other, (l, other) ∉ [(g, reply)]) ↔ l ≠ g := by
    simp
  obtain ⟨answer, same, pending⟩ | ⟨answer, same, pending⟩ := deliver_cases W g u
  · rw [answer] at effect
    refine ⟨.accept, effect, ?_, fun r _ => ?_, fun l => ?_, tentative _, ?_⟩
    · simp [refused]
    · rw [same, table]
    · rw [pending, mem_others once split]
      simp [refused]
    · simp [refused]
  · have only : refused [(g, (u.call W g).1)] = [g] := by simp [refused, answer]
    have holder (r : ResourceId) : (deliver W g u).table.holder r =
        if r ∈ g.expanded ∧ s.table.holder r = some g.client then none else s.table.holder r := by
      rw [same, Table.holder_free, table]
    refine ⟨_, effect, ?_, fun r free => ?_, fun l => ?_, tentative _, by simp [only]⟩
    · rw [only]
      intro l hl r hr
      obtain rfl := List.mem_singleton.mp hl
      rw [holder, if_pos ⟨hr, table ▸ covered r hr⟩]
    · rw [holder, if_neg fun both => free g (only ▸ List.mem_singleton_self g) both.1]
    · have others : l ∈ u.pending ↔ l ∈ s.pending ∧ l ≠ g := mem_others once split
      rw [pending, mem_pending_refused (inOrder_ready order split ready) covered, others, only,
        List.forall_mem_singleton, uncalled, and_assoc]

/-- A series of deliveries gets the replies of some clients, and nothing else comes of it. -/
theorem replied_of_deliveries {k : Nat} (reliable : Reliable (s.docket none k))
    (h : Deliveries W s t) : ∃ cs, Replied W s t cs := by
  induction h with
  | refl => exact ⟨[], .of_quiet (.refl W s) rfl rfl⟩
  | @tail u v looked delivery ih =>
    obtain ⟨cs, replied⟩ := ih
    have known : Reliable (u.docket none k) := reliable.acts (Deliveries.acts looked)
    cases delivery with
    | wait before g after _ running split unready =>
      have asked := effect_isReady W before g u
      have quiet := isReady_false unready
      rw [unready] at asked
      exact ⟨_, replied.trans (.of_quiet asked quiet.table quiet.pending)⟩
    | deliver before g after x running split ready =>
      obtain ⟨reply, further⟩ := replied_deliver known split ready
      exact ⟨_, replied.trans further⟩

/-! ### Advisors keep their names -/

theorem names_pollGates (number i : Nat) (o : Option GateOutcome) (as : List Advisor)
    (x : Setting σ) : Chain.names (pollGates number i o as x).2.1 = Chain.names as := by
  induction as generalizing x with
  | nil => rfl
  | cons a as ih =>
    cases a with
    | zones z => exact congrArg (_ :: ·) (ih x)
    | outside n name => exact congrArg (_ :: ·) (ih x)
    | gates n g =>
      unfold pollGates
      split
      · obtain ⟨y, -, -, -, same⟩ := Setting.poll_cases n g i o x
        have name : (Advisor.poll n g i o x).2.1.name = g.name := by rw [same, g.name_poll]
        exact congrArg (· :: Chain.names as) name
      · exact congrArg (_ :: ·) (ih x)

theorem Asks.names (h : Asks W s t) : Chain.names t.advisors = Chain.names s.advisors := by
  induction h with
  | refl => rfl
  | @tail u v _ ask ih =>
    refine Eq.trans ?_ ih
    cases ask with
    | expand rs => rfl
    | question h c rs _ => exact names_consult W h c rs u.advisors u.setting
    | announce c rs => exact names_notify W .released c rs u.advisors u.setting

theorem names_deliver (W : World σ) (g : Grant) (s : Allocator σ) :
    Chain.names (s.deliver W g).advisors = Chain.names s.advisors := by
  have called : (s.call W g).2.advisors = s.advisors := rfl
  unfold deliver
  split <;> rename_i u answer <;> rw [answer] at called <;> rw [← called]
  · exact (effect_acceptGrant W g u).names
  · exact (effect_refuseGrant W g rfl).names
  · exact (effect_refuseGrant W g rfl).names

theorem Move.names (h : Move W s t) : Chain.names t.advisors = Chain.names s.advisors := by
  cases h with
  | submit | shift | serve | report | stop => rfl
  | poll number task o => exact names_pollGates number task o s.advisors s.setting
  | release q rest c rs => exact names_notify W .released c rs s.advisors _
  | free q rest c rs => exact (effect_strip W c rs .asked (s.accept q rest)).names
  | tell c freed =>
    rw [advisors_followUp, advisors_record]
    rfl
  | lock g u _ obtained => exact (effect_granted obtained).names
  | defer r u _ failed =>
    rw [show (u.defer W r).advisors = u.advisors from advisors_record ..]
    exact (tryAllocate_none failed).names
  | wait before g after u _ _ unready =>
    have asked := (effect_isReady W before g s).names
    rwa [unready] at asked
  | deliver before g after u _ _ ready =>
    have asked := (effect_isReady W before g s).names
    rw [ready] at asked
    exact (names_deliver W g _).trans asked
  | retry =>
    unfold retryDeferred
    split <;> rfl
  | withdraw c =>
    unfold Allocator.withdraw
    dsimp only
    split
    · rw [advisors_noteAll]
    · rw [advisors_record, advisors_noteAll]

theorem names_run (W : World σ) (s : Allocator σ) (hs : List (Happening σ)) :
    Chain.names (s.run W hs).advisors = Chain.names s.advisors :=
  moves_invariant (P := fun t => Chain.names t.advisors = Chain.names s.advisors)
    (fun move same => move.names.trans same) (run_moves W s hs) rfl

end Allocator

end Allotment
