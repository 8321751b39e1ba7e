import Allotment.Proofs.Effects
import Allotment.Proofs.Readiness

/-!
# What a refusal undoes

A step either calls nobody, or all that it calls comes of deliveries that stand between an opening
and a close that have nothing to do with the replies (`step_answered`). So whatever is refused in a
step is free when it ends, however many grants that are, and the advisors and the queue know of it
(`refusals_undone`).
-/

namespace Allotment

variable {σ : Type} {W : World σ}

namespace Journal

theorem eq_of_mem_lossNotices {names : List String} {name : String} {c d : ClientId}
    {rs freed : ResourceSet} (told : (name, d, rs) ∈ lossNotices names c freed) : rs = freed := by
  unfold lossNotices at told
  split at told
  · cases told
  · obtain ⟨other, -, same⟩ := List.mem_map.mp (List.mem_reverse.mp told)
    exact (Prod.mk.inj (Prod.mk.inj same).2).2.symm

theorem count_lossNotices {freed : ResourceSet} (something : freed ≠ ∅) (names : List String)
    (c : ClientId) (name : String) :
    (lossNotices names c freed).count (name, c, freed) = names.count name := by
  have given : ¬ freed.isEmpty = true := fun none => something (ResourceSet.isEmpty_iff.mp none)
  rw [lossNotices, if_neg given, List.count_reverse]
  exact List.count_map_of_injective names (fun name => (name, c, freed))
    (fun a b same => (Prod.mk.inj same).1) name

/-- The advisors hear of a refusal once each, if what is refused in a step is apart. -/
theorem count_notices {names : List String} {gs : List Grant} {g : Grant}
    (apart : gs.Pairwise fun g k => ∀ r ∈ g.expanded, r ∉ k.expanded) (hg : g ∈ gs)
    (something : g.expanded ≠ ∅) (name : String) :
    (gs.flatMap fun k => lossNotices names k.client k.expanded).count
      (name, g.client, g.expanded) = names.count name := by
  obtain ⟨x, hx⟩ := ResourceSet.exists_mem_of_ne_empty something
  have unheard {ks : List Grant} (free : ∀ k ∈ ks, x ∉ k.expanded) :
      (ks.flatMap fun k => lossNotices names k.client k.expanded).count
        (name, g.client, g.expanded) = 0 := by
    refine List.count_eq_zero.mpr fun among => ?_
    obtain ⟨k, hk, told⟩ := List.mem_flatMap.mp among
    exact free k hk (eq_of_mem_lossNotices told ▸ hx)
  obtain ⟨later, earlier, rfl⟩ := List.append_of_mem hg
  obtain ⟨-, after, between⟩ := List.pairwise_append.mp apart
  have before := (List.pairwise_cons.mp after).1
  rw [List.flatMap_append, List.flatMap_cons, List.count_append, List.count_append,
    count_lossNotices something,
    unheard fun k hk both => between k hk g List.mem_cons_self x both hx,
    unheard fun k hk => before k hk x hx, Nat.zero_add, Nat.add_zero]

end Journal

namespace Allocator

open Journal

variable {s t u v : Allocator σ}

/-! ### Steps that call nobody -/

def Uncalled (s t : Allocator σ) : Prop :=
  ∃ es : Journal, t.setting.journal = es ++ s.setting.journal ∧ es.calls = []

theorem Uncalled.trans (h : Uncalled s t) (k : Uncalled t u) : Uncalled s u := by
  obtain ⟨es, journal, none⟩ := h
  obtain ⟨fs, further, nobody⟩ := k
  refine ⟨fs ++ es, by rw [further, journal, List.append_assoc], ?_⟩
  rw [calls_append, none, nobody]
  rfl

theorem Plainly.uncalled (h : Plainly s t) : Uncalled s t := by
  obtain ⟨es, plain, journal⟩ := h.grows
  exact ⟨es, journal, calls_plain plain⟩

theorem Effect.uncalled {o : Outcome} (h : Effect W s t o) (none : o.calls = []) :
    Uncalled s t := by
  obtain ⟨es, -, journal, shows, -⟩ := h.entries
  exact ⟨es, journal, shows.calls.trans none⟩

theorem uncalled_defer (W : World σ) (r : Request) (s : Allocator σ) :
    Uncalled s (s.defer W r) := by
  have noted : Uncalled s (note (.deferred r)
      { s.count .addDeferral with deferred := s.deferred ++ [r] }) := ⟨[.deferred r], rfl, rfl⟩
  exact noted.trans ((effect_record W .defer r.client.id r.resources none _).uncalled rfl)

theorem uncalled_withdraw (W : World σ) (c : ClientId) (s : Allocator σ) :
    Uncalled s (s.withdraw W c) := by
  let left := { s with deferred := s.deferred.filter fun r => !(r.client.id == c) }
  have dropped : Uncalled s
      (left.noteAll ((s.deferred.filter (·.client.id == c)).map .withdrawn)) := by
    refine Plainly.uncalled (s := left) (plainly_noteAll (fun e he => ?_) left)
    obtain ⟨r, -, rfl⟩ := List.mem_map.mp he
    rfl
  unfold withdraw
  dsimp only
  split
  · exact dropped
  · exact dropped.trans ((effect_record W _ _ _ _ _).uncalled rfl)

theorem uncalled_retryDeferred (s : Allocator σ) : Uncalled s s.retryDeferred := by
  unfold retryDeferred
  split
  · exact ⟨[], rfl, rfl⟩
  · exact ⟨[.retried s.deferred], rfl, rfl⟩

/-! ### Steps that call clients -/

/-- From `s` to `t` these clients were called. Neither the ruling of a release that was asked for
nor what is submitted because of it is told here. -/
structure Answered (W : World σ) (s t : Allocator σ) (o : Outcome) : Prop where
  effect : Effect W s t o
  notices : o.notices = (refused o.calls).flatMap fun g =>
    lossNotices (Chain.names s.advisors) g.client g.expanded
  rulings : ∃ frees : List Ruling, (∀ k ∈ frees, k.decision = .free) ∧
    o.rulings = o.calls.reverse.map .ofReply ++ frees
  commands : ∀ c ∈ (refused o.calls).flatMap fun g => lossCommands g.expanded, c ∈ o.commands
  freed : ∀ g ∈ refused o.calls, ∀ r ∈ g.expanded, t.table.holder r = none
  dropped : ∀ g ∈ refused o.calls, ∀ k ∈ t.pending, ∀ r ∈ k.expanded, r ∉ g.expanded
  apart : (refused o.calls).Pairwise fun g k => ∀ r ∈ g.expanded, r ∉ k.expanded

/-- What follows the replies has nothing to do with them. -/
structure Closes (W : World σ) (v t : Allocator σ) (o : Outcome) : Prop where
  effect : Effect W v t o
  calls : o.calls = []
  notices : o.notices = []
  rulings : ∀ k ∈ o.rulings, k.decision = .free
  table : t.table = v.table
  pending : t.pending = v.pending

theorem Replied.answered {cs : List (Grant × Reply)} {o : Outcome} (opening : Effect W s u {})
    (replied : Replied W u v cs) (close : Closes W v t o) : ∃ p, Answered W s t p := by
  have whole := (opening.trans replied.effect).trans close.effect
  rw [Outcome.nil_andThen, opening.names] at whole
  have calls : o.calls ++ cs = cs := by rw [close.calls, List.nil_append]
  refine ⟨_, whole, ?_, ⟨o.rulings, close.rulings, ?_⟩, ?_, ?_, ?_, ?_⟩
  all_goals dsimp only [Outcome.andThen, Outcome.ofReplies]; rw [calls]
  · rw [close.notices, List.nil_append]
  · exact fun c hc => List.mem_append_right _ hc
  · exact fun g hg r hr => close.table ▸ replied.freed g hg r hr
  · intro g hg k hk
    exact ((replied.pending k).mp (close.pending ▸ hk)).2.2 g hg
  · exact replied.apart

theorem Closes.refl (W : World σ) (v : Allocator σ) : Closes W v v {} :=
  ⟨.refl W v, rfl, rfl, by simp, rfl, rfl⟩

theorem closes_tell (W : World σ) (c : ClientId) (freed : ResourceSet) (v : Allocator σ) :
    Closes W v (((v.count .addFree).record W .free c freed none).followUp
        [.released c freed, .retryDeferred])
      { rulings := [⟨.free, c, freed, none⟩]
        commands := [.released c freed, .retryDeferred] } := by
  have counted : Effect W v (v.count .addFree) {} := effect_unseen
  have ruled := counted.trans (effect_record W .free c freed none _)
  refine ⟨ruled.trans (effect_followUp W _ _), rfl, rfl, by simp, ?_, by simp⟩
  exact (writes_followUp _ _).table.trans (table_record W .free c freed none (v.count .addFree))

theorem answered_deliveries {o : Outcome} {k : Nat} (opening : Effect W s u {})
    (reliable : Reliable (u.docket none k)) (h : Deliveries W u v) (close : Closes W v t o) :
    ∃ p, Answered W s t p := by
  obtain ⟨cs, replied⟩ := replied_of_deliveries reliable h
  exact replied.answered opening close

theorem answered_free {c : ClientId} (rs : ResourceSet) (running : s.phase = .running)
    (reliable : Reliable (s.docket none 0)) : ∃ o, Answered W s (s.free W c rs) o := by
  let freed := s.table.heldOf c rs
  let stripped := (s.take c rs .asked).2.cancelOrphaned c
  have strip := reliable.act (act_strip (W := W) (k := 0) c rs .asked (s := s) (i := none)
    (by simp [Docket.Unasked, docket]) running)
  have release := releaseBlocked_deliveries W c stripped
  obtain ⟨-, quiet⟩ | ⟨-, -, told⟩ := afterFree_cases W c freed (s.take c rs .asked).2
  · rw [show s.free W c rs = stripped.releaseBlocked W c from quiet]
    exact answered_deliveries (effect_strip W c rs .asked s) strip release (.refl W _)
  · rw [show s.free W c rs = _ from told]
    exact answered_deliveries (effect_strip W c rs .asked s) strip release (closes_tell W c freed _)

theorem answered_allocate (W : World σ) {q : Queued} {c : Client} {rs : ResourceSet}
    (running : s.phase = .running) (command : q.command = .allocate c rs)
    (reliable : Reliable (s.docket (some q) 0)) :
    Uncalled s (s.allocate W ⟨c, rs, q.priority, q.seq⟩) ∨
      ∃ o, Answered W s (s.allocate W ⟨c, rs, q.priority, q.seq⟩) o := by
  let r : Request := ⟨c, rs, q.priority, q.seq⟩
  have hand : q = r.queued := by
    cases q
    cases command
    rfl
  have plainly := plainly_tryAllocate W c.id rs s
  have phase := phase_tryAllocate W c.id rs s
  unfold allocate
  rcases h : s.tryAllocate W c.id rs with ⟨_ | ⟨expanded, claimed⟩, t⟩
  · rw [h] at plainly
    exact .inl (plainly.uncalled.trans (uncalled_defer W r t))
  · rw [h] at phase
    let g : Grant := ⟨r, expanded, claimed⟩
    rw [hand] at reliable
    have known := reliable.acts (acts_lock (W := W) (g := g) (k := 0) running h)
    have kept : Effect W s { t with pending := t.pending ++ [g] } {} :=
      (effect_granted h).quietly effect_unseen
    have locked := kept.quietly (effect_of_bare (e := .locked g) ⟨rfl, rfl, rfl, rfl, rfl⟩ W _)
    have deliveries := completeIfPrepared_deliveries W t.pending.length
      (s := note (.locked g) { t with pending := t.pending ++ [g] }) (phase.trans running)
    exact .inr (answered_deliveries locked known deliveries (.refl W _))

theorem Answered.after {o : Outcome} (opening : Effect W s u {}) (h : Answered W u t o) :
    Answered W s t o where
  effect := Outcome.nil_andThen o ▸ opening.trans h.effect
  notices := opening.names ▸ h.notices
  rulings := h.rulings
  commands := h.commands
  freed := h.freed
  dropped := h.dropped
  apart := h.apart

theorem answered_process {q : Queued} (W : World σ) (running : s.phase = .running)
    (reliable : Reliable (s.docket (some q) 0)) :
    Uncalled s (s.process W q) ∨ ∃ o, Answered W s (s.process W q) o := by
  have dismissed (other : ∀ c rs, q.command ≠ .allocate c rs) (retry : q.command ≠ .retryDeferred) :
      Reliable (s.docket none 0) :=
    reliable.act (W := W) (act_dismiss other fun e => absurd e retry)
  unfold process
  cases command : q.command with
  | allocate c rs => exact answered_allocate W running command reliable
  | released c rs => exact .inl (plainly_announce W c rs s).uncalled
  | checkPrepared c rs =>
    exact .inr (answered_deliveries (.refl W s) (dismissed (by simp [command]) (by simp [command]))
      (checkPrepared_deliveries W c rs running) (.refl W _))
  | retryDeferred => exact .inl (uncalled_retryDeferred s)
  | free c rs =>
    exact .inr (answered_free rs running (dismissed (by simp [command]) (by simp [command])))
  | freeAll c =>
    exact .inr (answered_free _ running (dismissed (by simp [command]) (by simp [command])))
  | withdraw c => exact .inl (uncalled_withdraw W c s)
  | snapshot => exact .inl ⟨[_], rfl, rfl⟩
  | shutdown => exact .inl ⟨[_], rfl, rfl⟩

/-- A step calls nobody, or it takes a command and what comes of that is up to the replies. -/
theorem step_answered (reliable : Reliable (s.docket none 0)) :
    Uncalled s (s.step W) ∨ ∃ q rest o, s.phase = .running ∧
      s.setting.queue.take? = some (q, rest) ∧ s.step W = (s.accept q rest).process W q ∧
      Answered W s (s.step W) o := by
  obtain idle | ⟨running, q, rest, next, served⟩ := step_cases W s
  · exact .inl (idle.symm ▸ ⟨[], rfl, rfl⟩)
  · have took : Reliable ((s.accept q rest).docket (some q) 0) :=
      ⟨reliable.sound.take ⟨running, rfl, rfl, next⟩, reliable.shown.take ⟨running, rfl, rfl, next⟩⟩
    have opened : Uncalled s (s.accept q rest) := ⟨[.took q], rfl, rfl⟩
    rcases answered_process W (s := s.accept q rest) running took with uncalled | ⟨o, answered⟩
    · exact .inl (served ▸ opened.trans uncalled)
    · exact .inr ⟨q, rest, o, running, next, served,
        served ▸ answered.after (effect_accept W next)⟩

/-! ### What is left behind -/

/-- To serve a command takes no other. -/
theorem journal_served (W : World σ) (q : Queued) (rest : Queue) (running : s.phase = .running) :
    ∃ es : Journal, ((s.accept q rest).process W q).setting.journal =
      es ++ .took q :: s.setting.journal ∧ ∀ p, .took p ∉ es := by
  have acts : Docket.Acts W ((s.docket none 0).take q rest)
      (((s.accept q rest).process W q).docket none 0) := acts_served running
  obtain ⟨es, others, journal⟩ := acts_untaken acts
  exact ⟨es, journal, fun p took => others _ took p rfl⟩

theorem untaken_of_entered {since before : Journal} {q : Queued}
    (filed : (t.docket none 0).Filed) (sound : (t.docket none 0).Sound)
    (journal : t.setting.journal = since ++ before) (entered : .entered q ∈ since)
    (untaken : ∀ p, .took p ∉ since) : .took q ∉ t.setting.journal := by
  have arrived : Always Arrived t.setting.journal := filed.arrived
  have once : t.setting.journal.entered.Nodup := sound.regular.nodup_entered
  rw [journal] at arrived once ⊢
  exact not_took_of_entered arrived once entered (untaken q)

/-- A command that has come in since anything was taken waits. -/
theorem waiting_of_entered {since before : Journal} {q : Queued}
    (filed : (t.docket none 0).Filed) (sound : (t.docket none 0).Sound)
    (running : t.phase = .running) (journal : t.setting.journal = since ++ before)
    (entered : .entered q ∈ since) (untaken : ∀ p, .took p ∉ since) :
    q ∈ t.setting.queue.waiting := by
  have came : .entered q ∈ t.setting.journal := journal ▸ List.mem_append_left before entered
  have unserved := untaken_of_entered filed sound journal entered untaken
  exact (filed.kept running q came).resolve_left unserved

/-- What a step from `s` to `t` with these entries has left of the grants that were refused. -/
structure Undone (s t : Allocator σ) (es : Journal) : Prop where
  /-- They have nothing in common. -/
  apart : (refused es.calls).Pairwise fun g k => ∀ r ∈ g.expanded, r ∉ k.expanded
  freed : ∀ g ∈ refused es.calls, ∀ r ∈ g.expanded, t.table.holder r = none
  dropped : ∀ g ∈ refused es.calls, ∀ k ∈ t.pending, ∀ r ∈ k.expanded, r ∉ g.expanded
  ruled : es.rulings.filter (·.decision = .refuse) = (refused es.calls).reverse.map fun g =>
    ⟨.refuse, g.client, g.requested, some (refusalDetail g.expanded)⟩
  /-- The sink has got an event for each ruling. If that is a log, sinks show its latest events. -/
  documented : ∃ events, List.Forall₂ Ruling.Documented es.rulings events ∧
    s.sink.Gets es events t.sink ∧
    ∀ l, s.sink = .log l → ∃ m : SharedLog, t.sink = .log m ∧ l.Shows m events
  told : es.notices = (refused es.calls).flatMap fun g =>
    lossNotices (Chain.names s.advisors) g.client g.expanded
  /-- Each refusal is told once. -/
  once : ∀ g ∈ refused es.calls, g.expanded ≠ ∅ → ∀ name,
    es.notices.count (name, g.client, g.expanded) = (Chain.names s.advisors).count name
  /-- If the sink has survived, a retry waits that came in meanwhile. -/
  retry : t.phase ≠ .crashed → ∀ g ∈ refused es.calls, g.expanded ≠ ∅ →
    ∃ q ∈ t.setting.queue.waiting, q.command = .retryDeferred ∧ .entered q ∈ es
  /-- No command is taken after the first entry. -/
  taken : ∃ q fs, es = fs ++ [.took q] ∧ ∀ p, .took p ∉ fs

theorem refused_reverse (cs : List (Grant × Reply)) :
    refused cs.reverse = (refused cs).reverse := by
  simp [refused]

theorem refusals_of_replies (cs : List (Grant × Reply)) :
    (cs.map Ruling.ofReply).filter (·.decision = .refuse) = (refused cs).map fun g =>
      ⟨.refuse, g.client, g.requested, some (refusalDetail g.expanded)⟩ := by
  induction cs with
  | nil => rfl
  | cons c cs ih =>
    obtain ⟨g, reply⟩ := c
    cases reply <;> simpa [Ruling.ofReply, refused] using ih

theorem Answered.undone {o : Outcome} {q : Queued} {rest : Queue} (h : Answered W s t o)
    (sound : (s.docket none 0).Sound) (running : s.phase = .running)
    (served : t = (s.accept q rest).process W q)
    (filed : (t.docket none 0).Filed) (later : (t.docket none 0).Sound) :
    ∃ es : Journal, t.setting.journal = es ++ s.setting.journal ∧ Undone s t es := by
  obtain ⟨es, events, journal, shows, documented, gets, submitted⟩ := h.effect.entries
  obtain ⟨fs, further, untaken⟩ := journal_served W q rest running
  rw [← served] at further
  obtain rfl : es = fs ++ [.took q] :=
    List.append_cancel_right (journal.symm.trans (further.trans (List.append_cons ..)))
  obtain ⟨frees, only, rulings⟩ := h.rulings
  have told := shows.notices.trans h.notices
  rw [← shows.calls] at told rulings
  refine ⟨_, journal, ?_, ?_, ?_, ?_, ⟨events, ?_, gets, fun l sink => ?_⟩, told, ?_, ?_, q, fs,
    rfl, untaken⟩
  · exact shows.calls ▸ h.apart
  · exact shows.calls ▸ h.freed
  · exact shows.calls ▸ h.dropped
  · have free : frees.filter (·.decision = .refuse) = [] :=
      List.filter_eq_nil_iff.mpr fun k hk => by simp [only k hk]
    rw [shows.rulings, rulings, List.filter_append, free, refusals_of_replies, List.append_nil,
      refused_reverse]
  · exact shows.rulings ▸ documented
  · rw [sink] at gets
    exact gets.shows
  · intro g hg something name
    rw [told]
    exact count_notices (shows.calls ▸ h.apart) hg something name
  · intro survived g hg something
    have going : t.phase = .running := (h.effect.phase.resolve_right survived).trans running
    have opened : s.setting.queue.closed = false := sound.regular.opened running
    have wanted : .retryDeferred ∈ lossCommands g.expanded := by
      have given : ¬ g.expanded.isEmpty = true := fun none =>
        something (ResourceSet.isEmpty_iff.mp none)
      simp [lossCommands, given]
    have owed := h.commands _ (List.mem_flatMap.mpr ⟨g, shows.calls ▸ hg, wanted⟩)
    obtain ⟨p, entered, command⟩ := submitted going opened _ owed
    have among : .entered p ∈ fs := by simpa using entered
    exact ⟨p, waiting_of_entered filed later going further among untaken, command, entered⟩

/-- A refusal undoes the whole grant, for every grant that is refused in a step: nobody holds
anything of it when the step ends, and no tentative grant overlaps it. The rulings say how much was
freed, and they are what the sink has got; a log shows them behind what it had. The advisors have
been told of the release, once for each refusal, and a retry waits, so it comes upon a state in
which all of that was free before. -/
theorem refusals_undone (W : World σ) (advisors : List Advisor) (sink : AuditSink) (w : σ)
    (hs : List (Happening σ)) :
    let s := (initial advisors sink w).run W hs
    let t := s.step W
    ∃ es : Journal, t.setting.journal = es ++ s.setting.journal ∧
      (refused es.calls ≠ [] → Undone s t es) := by
  intro s t
  have reliable : Reliable (s.docket none 0) := (run_asked W advisors sink w hs).1
  have last : t = (initial advisors sink w).run W (hs ++ [.step]) := by
    rw [run_append]
    rfl
  obtain ⟨es, journal, nobody⟩ | ⟨q, rest, o, running, -, served, answered⟩ :=
    step_answered (W := W) reliable
  · exact ⟨es, journal, fun some => absurd (by rw [nobody]; rfl) some⟩
  · have filed := run_filed W advisors sink w (hs ++ [.step])
    have later := (run_asked W advisors sink w (hs ++ [.step])).1.sound
    rw [← last] at filed later
    obtain ⟨es, journal, undone⟩ :=
      answered.undone reliable.sound running served filed later
    exact ⟨es, journal, fun _ => undone⟩

/-- Somebody who gives up one resource is called for two grants that waited for that, wants neither,
and is left with nothing. -/
example :
    let W : World Nat := { World.steady .no with call := fun _ _ n => (.refuse, [], n) }
    let s := (initial [.outside 0 "slow"] .nowhere 0).run W
      [asking "x" ["a", "b", "c"], .step, asking "x" ["b"], .step, asking "x" ["c"], .step,
        freeing "x" ["a"], .step]
    let names := fun rs : ResourceSet => rs.toList.map ResourceId.name
    s.table.entries = [] ∧ s.pending = [] ∧
    s.setting.journal.rulings.map (fun k => (k.decision, names k.resources, k.detail)) =
      [(.refuse, ["b"], some "freed 1 resources"), (.refuse, ["c"], some "freed 1 resources"),
        (.free, ["a"], none)] ∧
    s.setting.journal.notices.map (fun told => (told.1, names told.2.2)) =
      [("slow", ["c"]), ("slow", ["b"])] := by
  decide +kernel

end Allocator

end Allotment
