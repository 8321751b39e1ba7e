import Allotment.Proofs.Exclusion
import Allotment.Proofs.GateRecords
import Allotment.Proofs.Preparation
import Allotment.Proofs.Readiness

/-!
# Which gate a call rests on

With gates for its only advisor, an allocator calls a client back over what a grant claims once a
task for this client and these resources has found its gate open. The journal shows which one
(`called_after_gate`): the task that the preparation of the grant has started, unless the gates
still knew of a preparation before or a task was left from one.
-/

namespace Allotment

variable {σ : Type} {W : World σ} {number : Nat} {k : GateKey}

namespace Journal

/-! ### Which task has opened a gate -/

/-- What was written down from leave for what a grant claims, exclusively, up to its lock. -/
def preparation (j : Journal) (g : Grant) : Journal :=
  (j.dropWhile (· ≠ .locked g)).takeWhile (· ≠ .consulted .may g.client g.claimed true)

/-- What was written down up to leave for what a grant claims, before its lock. -/
def beforePreparation (j : Journal) (g : Grant) : Journal :=
  (j.dropWhile (· ≠ .locked g)).dropWhile (· ≠ .consulted .may g.client g.claimed true)

/-- A task that the preparation of the grant has started has found its gate open. -/
def OwnGateOpened (j : Journal) (number : Nat) (g : Grant) : Prop :=
  ∃ task, .gateStarted number task ⟨g.client, g.claimed⟩ ∈ j.preparation g ∧
    .gateFinished number task ⟨g.client, g.claimed⟩ .opens ∈ j

/-- Where the lock of a grant is found in the journal, and its preparation. -/
theorem preparation_split {g : Grant} {since asked prior : Journal}
    (unlocked : .locked g ∉ since) (poses : ∀ e ∈ asked, e.Poses .prepare g.client g.claimed)
    (head : prior.head? = some (.consulted .may g.client g.claimed true)) :
    let opening : List Event := [.locked g, .consulted .prepare g.client g.claimed true]
    preparation (since ++ (opening ++ asked ++ prior)) g = opening ++ asked ∧
      beforePreparation (since ++ (opening ++ asked ++ prior)) g = prior := by
  intro opening
  obtain ⟨rest, rfl⟩ : ∃ rest, prior = .consulted .may g.client g.claimed true :: rest := by
    cases prior with
    | nil => cases head
    | cons e rest => exact ⟨rest, by rw [Option.some.inj head]⟩
  have lock : (since ++ (opening ++ asked ++
      .consulted .may g.client g.claimed true :: rest)).dropWhile (· ≠ .locked g) =
        opening ++ asked ++ .consulted .may g.client g.claimed true :: rest := by
    have later : ∀ e ∈ since, decide (e ≠ .locked g) = true := by
      intro e he
      rw [decide_eq_true_iff]
      rintro rfl
      exact unlocked he
    rw [List.dropWhile_append_of_pos later]
    simp [opening]
  have leave : ∀ e ∈ opening ++ asked,
      decide (e ≠ .consulted .may g.client g.claimed true) = true := by
    intro e he
    rw [decide_eq_true_iff]
    rintro rfl
    rcases List.mem_append.mp he with he | he
    · simp [opening] at he
    · cases (poses _ he).2 _ rfl
  unfold preparation beforePreparation
  rw [lock, List.takeWhile_append_of_pos leave, List.dropWhile_append_of_pos leave]
  simp

theorem unheld_of_unlocked {es j : Journal} {r : ResourceId}
    (locks : ∀ e ∈ es, e.locks r = false) (unheld : j.holder r = none) :
    holder (es ++ j) r = none := by
  induction es with
  | nil => exact unheld
  | cons e es ih =>
    obtain ⟨first, rest⟩ := List.forall_mem_cons.mp locks
    have before := ih rest
    show e.holds r (holder (es ++ j) r) = none
    cases e with
    | locked g => simpa [Event.holds, show r ∉ g.claimed by simpa [Event.locks] using first]
    | freed c rs cause => simp [Event.holds, before]
    | _ => exact before

theorem split_of_locker {j : Journal} {r : ResourceId} {g : Grant} (locker : j.locker r = some g) :
    ∃ since before, j = since ++ .locked g :: before ∧ ∀ e ∈ since, e.locks r = false := by
  obtain ⟨since, e, before, split, found, none⟩ := List.findSome?_eq_some_iff.mp locker
  have own : e = .locked g := by
    cases e with
    | locked k =>
      obtain ⟨-, rfl⟩ : r ∈ k.claimed ∧ k = g := by simpa using found
      rfl
    | _ => cases found
  refine ⟨since, before, own ▸ split, fun x hx => ?_⟩
  have silent := none x hx
  cases x with
  | locked k => simpa [Event.locks] using silent
  | _ => rfl

/-- A preparation that was begun once is complete by its own task, or by one left before it. -/
theorem opened_since {xs base : Journal} {task : Nat}
    (law : Always (Gated number) (xs ++ .gateStarted number task k :: base))
    (once : ∀ n i, .gateStarted n i k ∉ xs)
    (opened : gate? (xs ++ .gateStarted number task k :: base) k = some .opened) :
    ∃ i, .gateFinished number i k .opens ∈ xs ∧ (i = task ∨ base.Opening number i k) := by
  induction xs with
  | nil => simp [gate?, Event.gate] at opened
  | cons e xs ih =>
    have step : e.gate k (gate? (xs ++ .gateStarted number task k :: base) k) = some .opened :=
      opened
    obtain before | ⟨n, i, rfl⟩ := Event.opened_of_gate step
    · obtain ⟨i, finished, whose⟩ :=
        ih law.2 (fun n i h => once n i (List.mem_cons_of_mem _ h)) before
      exact ⟨i, List.mem_cons_of_mem _ finished, whose⟩
    · obtain ⟨rfl, awaits⟩ := law.1
      refine ⟨i, List.mem_cons_self, ?_⟩
      rcases List.mem_append.mp awaits.started with later | started
      · exact absurd later fun h => once _ i (List.mem_cons_of_mem _ h)
      · rcases List.mem_cons.mp started with same | started
        · cases same
          exact .inl rfl
        · exact .inr ⟨started, fun o ho => awaits.unfinished o
            (List.mem_append_right _ (List.mem_cons_of_mem _ ho))⟩

theorem finished_of_opened {j : Journal} (opened : j.gate? k = some .opened) :
    ∃ n task, .gateFinished n task k .opens ∈ j := by
  induction j with
  | nil => cases opened
  | cons e j ih =>
    have step : e.gate k (gate? j k) = some .opened := opened
    obtain before | ⟨n, task, rfl⟩ := Event.opened_of_gate step
    · obtain ⟨n, task, finished⟩ := ih before
      exact ⟨n, task, List.mem_cons_of_mem _ finished⟩
    · exact ⟨n, task, List.mem_cons_self⟩

/-- What the entries before the call of a grant show of the task that has found its gate open. -/
structure GateOpened (number : Nat) (g : Grant) (earlier : Journal) : Prop where
  /-- Gates that still knew of a preparation before have started no task for this one. -/
  remembered : (earlier.beforePreparation g).Remembers ⟨g.client, g.claimed⟩ →
    (∀ task, .gateStarted number task ⟨g.client, g.claimed⟩ ∉ earlier.preparation g) ∧
    ∃ task, .gateStarted number task ⟨g.client, g.claimed⟩ ∈ earlier.beforePreparation g ∧
      .gateFinished number task ⟨g.client, g.claimed⟩ .opens ∈ earlier
  /-- Otherwise they have started one, and it has opened, or one that was left from before. -/
  forgotten : ¬ (earlier.beforePreparation g).Remembers ⟨g.client, g.claimed⟩ →
    (∃ task, .gateStarted number task ⟨g.client, g.claimed⟩ ∈ earlier.preparation g) ∧
    (earlier.OwnGateOpened number g ∨
      ∃ task, (earlier.beforePreparation g).Opening number task ⟨g.client, g.claimed⟩ ∧
        .gateFinished number task ⟨g.client, g.claimed⟩ .opens ∈ earlier)

/-- Between its lock and its call, nobody begins to prepare what a grant claims. -/
theorem unstarted_of_held {es j : Journal} {r : ResourceId} (law : Always (Gated number) (es ++ j))
    (unlocked : ∀ e ∈ es, e.locks r = false) (hr : r ∈ k.resources)
    (held : holder (es ++ j) r ≠ none) (n task : Nat) : .gateStarted n task k ∉ es := by
  intro started
  obtain ⟨later, earlier, rfl⟩ := List.append_of_mem started
  have split : (later ++ Event.gateStarted n task k :: earlier) ++ j =
      (later ++ [.gateStarted n task k]) ++ (earlier ++ j) := by simp
  have unheld : holder (earlier ++ j) r = none := by
    rw [split, List.append_assoc] at law
    exact (always_split law).2.2 r hr
  rw [split] at held
  refine held (unheld_of_unlocked (fun e he => unlocked e ?_) unheld)
  simp only [List.mem_append, List.mem_cons, List.not_mem_nil, or_false] at he ⊢
  exact he.imp_right .inl

/-- How a grant came to be called: leave was given last in `leave`, `asked` was written down while
it was prepared, and `since` from then on. -/
structure Course (number : Nat) (g : Grant) (earlier since asked leave : Journal) : Prop where
  entries : since ++ (asked ++ leave) <:+ earlier
  prepared : earlier.preparation g =
    [.locked g, .consulted .prepare g.client g.claimed true] ++ asked
  prior : earlier.beforePreparation g = leave
  began : Began number ⟨g.client, g.claimed⟩ asked leave
  unstarted : ∀ n task, .gateStarted n task ⟨g.client, g.claimed⟩ ∉ since
  gated : Always (Gated number) (since ++ (asked ++ leave))
  opened : gate? (since ++ (asked ++ leave)) ⟨g.client, g.claimed⟩ = some .opened

section
variable {g : Grant} {reply : Reply} {earlier since asked leave : Journal}

theorem course_of_gated (law : Always (Gated number) (.called g reply :: earlier))
    (something : g.claimed ≠ ∅) :
    ∃ since asked leave, Course number g earlier since asked leave := by
  obtain ⟨answers, before, entries, background, opened, traced⟩ := law.1 something
  obtain ⟨r, hr⟩ := ResourceSet.exists_mem_of_ne_empty something
  obtain ⟨locker, held⟩ := traced r hr
  have gated : Always (Gated number) before := by
    have later := law.2
    rw [entries] at later
    exact always_tail later.2
  have suffix : before <:+ earlier :=
    ⟨.consulted .complete g.client g.claimed true :: answers, by rw [entries]; rfl⟩
  obtain ⟨since, rest, rfl, unlocked⟩ := split_of_locker locker
  obtain ⟨asked, leave, rfl, head, poses, began⟩ :=
    (always_split gated : Gated number (.locked g) rest) something
  have once : .locked g ∉ .consulted .complete g.client g.claimed true :: (answers ++ since) := by
    simp only [List.mem_cons, List.mem_append, reduceCtorEq, false_or, not_or]
    refine ⟨fun h => (by cases background _ h), fun h => ?_⟩
    simpa [Event.locks, hr] using unlocked _ h
  have parts := preparation_split once poses head
  have unstarted :=
    unstarted_of_held (k := ⟨g.client, g.claimed⟩) gated unlocked hr (by simp [held])
  have split : since ++ .locked g :: .consulted .prepare g.client g.claimed true ::
      (asked ++ leave) =
      (since ++ [.locked g, .consulted .prepare g.client g.claimed true]) ++ (asked ++ leave) := by
    simp
  rw [split] at suffix gated opened
  exact ⟨_, asked, leave, suffix, by simpa [entries] using parts.1,
    by simpa [entries] using parts.2, began, fun n task => by simp [unstarted], gated, opened⟩

theorem Course.remembered (course : Course number g earlier since asked leave)
    (known : leave.gate? ⟨g.client, g.claimed⟩ ≠ none)
    (idle : ∀ n task l, .gateStarted n task l ∉ asked) : GateOpened number g earlier := by
  have remembers := gate?_ne_none_iff.mp known
  refine ⟨fun _ => ⟨fun task started => ?_, ?_⟩,
    fun forgotten => absurd (course.prior ▸ remembers) forgotten⟩
  · rw [course.prepared] at started
    exact idle _ _ _ (by simpa using started)
  · obtain ⟨n, task, finished⟩ := finished_of_opened course.opened
    obtain ⟨later, before, split⟩ := List.append_of_mem finished
    obtain ⟨rfl, started, -⟩ : n = number ∧ Opening before number task ⟨g.client, g.claimed⟩ :=
      always_split (split ▸ course.gated)
    have within : .gateStarted n task ⟨g.client, g.claimed⟩ ∈ since ++ (asked ++ leave) := by
      rw [split]
      exact List.mem_append_right _ (List.mem_cons_of_mem _ started)
    refine ⟨task, ?_, course.entries.subset finished⟩
    rw [course.prior]
    simpa [course.unstarted, idle] using within

theorem Course.forgotten {task : Nat} {after : List Event}
    (course : Course number g earlier since
      (after ++ [.gateStarted number task ⟨g.client, g.claimed⟩]) leave)
    (idle : ∀ n i l, .gateStarted n i l ∉ after) : GateOpened number g earlier := by
  obtain ⟨entries, prepared, prior, -, unstarted, gated, opened⟩ := course
  have split : since ++ (after ++ [.gateStarted number task ⟨g.client, g.claimed⟩] ++ leave) =
      (since ++ after) ++ .gateStarted number task ⟨g.client, g.claimed⟩ :: leave := by simp
  rw [split] at entries gated opened
  have anew : leave.gate? ⟨g.client, g.claimed⟩ = none := (always_split gated).2.1
  have started : .gateStarted number task ⟨g.client, g.claimed⟩ ∈ earlier.preparation g := by
    rw [prepared]
    simp
  refine ⟨fun remembers => absurd anew (gate?_ne_none_iff.mpr (prior ▸ remembers)),
    fun _ => ⟨⟨task, started⟩, ?_⟩⟩
  obtain ⟨i, finished, whose⟩ := opened_since gated (fun n i => by simp [unstarted, idle]) opened
  have finished : .gateFinished number i ⟨g.client, g.claimed⟩ .opens ∈ earlier :=
    entries.subset (List.mem_append_left _ finished)
  rcases whose with rfl | opening
  · exact .inl ⟨i, started, finished⟩
  · exact .inr ⟨i, prior ▸ opening, finished⟩

theorem gateOpened_of_gated (law : Always (Gated number) (.called g reply :: earlier))
    (something : g.claimed ≠ ∅) : GateOpened number g earlier := by
  obtain ⟨since, asked, leave, course⟩ := course_of_gated law something
  rcases course.began with ⟨known, idle⟩ | ⟨task, after, rfl, idle⟩
  · exact course.remembered known idle
  · exact course.forgotten idle

end

end Journal

open Journal

namespace Allocator

variable {s t : Allocator σ} {c : ClientId} {rs : ResourceSet}

/-- Its only advisor are gates of a number, and the journal shows what they know. -/
def Tended (number : Nat) (s : Allocator σ) : Prop :=
  ∃ g, s.advisors = [.gates number g] ∧ g.Mirrors number (fun _ => false) s.setting.journal

theorem Tended.note {e : Event} (h : s.Tended number) (other : e.isGate = false)
    (gated : Gated number e s.setting.journal) : (s.note e).Tended number := by
  obtain ⟨g, only, m⟩ := h
  exact ⟨g, only, m.note other gated⟩

/-- Nobody has asked the gates. -/
theorem Tended.grow (h : s.Tended number) (same : t.advisors = s.advisors)
    (grows : s.setting.Grows (fun e => e.isAloof = true) t.setting) : t.Tended number := by
  obtain ⟨g, only, m⟩ := h
  exact ⟨g, same.trans only, m.grows grows⟩

theorem Tended.gated (h : s.Tended number) : Always (Gated number) s.setting.journal := by
  obtain ⟨g, -, m⟩ := h
  exact m.gated

theorem question_gates {g : Gates} (only : s.advisors = [.gates number g]) (h : Hook) :
    let asked := Advisor.askGates W number g h c rs s.setting
    s.question W h c rs = (asked.1.approves,
      { s with
        advisors := [.gates number asked.2.1]
        setting := asked.2.2.note (.consulted h c rs asked.1.approves) }) := by
  have consult (x : Setting σ) : Chain.consult (Advisor.ask W h c rs) [.gates number g] x =
      ((Advisor.askGates W number g h c rs x).1.approves,
        [.gates number (Advisor.askGates W number g h c rs x).2.1],
        (Advisor.askGates W number g h c rs x).2.2) := by
    unfold Chain.consult
    dsimp only [Advisor.ask]
    split
    · rename_i approves
      rw [approves]
      rfl
    · rename_i refuses
      rw [Bool.not_eq_true] at refuses
      rw [refuses]
  unfold question Chain.question
  rw [only, consult]

theorem Tended.question (h : s.Tended number) (hook : Hook) (c : ClientId) (rs : ResourceSet)
    (free : hook = .prepare → ∀ r ∈ rs, s.setting.journal.holder r = none) :
    (s.question W hook c rs).2.Tended number := by
  obtain ⟨g, only, m⟩ := h
  rw [question_gates only]
  exact ⟨_, rfl, (m.asked hook c rs free).note rfl trivial⟩

theorem Tended.announce (h : s.Tended number) (c : ClientId) (rs : ResourceSet) :
    (s.announce W c rs).Tended number := by
  obtain ⟨g, only, m⟩ := h
  have told := m.asked (W := W) .released c rs (by simp)
  unfold Allocator.announce Chain.announce
  rw [only]
  exact ⟨_, rfl, told.note rfl trivial⟩

theorem Tended.poll (h : s.Tended number) (n task : Nat) (o : Option GateOutcome) :
    (s.poll n task o).2.Tended number := by
  obtain ⟨g, only, m⟩ := h
  unfold Allocator.poll
  rw [only]
  by_cases own : number = n
  · rw [pollGates, if_pos own]
    subst own
    exact ⟨_, rfl, m.poll task o⟩
  · rw [pollGates, if_neg own]
    exact ⟨g, rfl, m⟩

/-! ### What an answer shows -/

theorem question_entries {h : Hook} {approved : Bool}
    (asked : s.question W h c rs = (approved, t)) :
    ∃ es : Journal, t.setting.journal = .consulted h c rs approved :: (es ++ s.setting.journal) ∧
      ∀ e ∈ es, e.Poses h c rs := by
  obtain ⟨es, journal, poses, -⟩ := Setting.consult_poses W h c rs s.advisors s.setting
  refine ⟨es, ?_, poses⟩
  rw [← journal]
  cases asked
  rfl

theorem Tended.began (h : s.Tended number) (asked : s.question W .prepare c rs = (true, t)) :
    ∃ es : Journal, t.setting.journal = .consulted .prepare c rs true :: (es ++ s.setting.journal) ∧
      (∀ e ∈ es, e.Poses .prepare c rs) ∧ Began number ⟨c, rs⟩ es s.setting.journal := by
  obtain ⟨g, only, m⟩ := h
  obtain ⟨es, journal, poses⟩ := question_entries asked
  rw [question_gates only] at asked
  cases asked
  exact ⟨es, journal, poses, Advisor.began_askGates m (List.cons.inj journal).2⟩

theorem Tended.opened (h : s.Tended number) (asked : s.question W .complete c rs = (true, t)) :
    ∃ es : Journal,
      t.setting.journal = .consulted .complete c rs true :: (es ++ s.setting.journal) ∧
      (∀ e ∈ es, e.isBackground = true) ∧ s.setting.journal.gate? ⟨c, rs⟩ = some .opened := by
  obtain ⟨g, only, m⟩ := h
  obtain ⟨es, journal, poses⟩ := question_entries asked
  refine ⟨es, journal, fun e he => (poses e he).1, ?_⟩
  obtain ⟨y, polls, -, same⟩ := Advisor.askGates_cases W number g .complete c rs s.setting
  have approved : (g.complete ⟨c, rs⟩).approves = true := by
    rw [question_gates only, same] at asked
    exact congrArg Prod.fst asked
  have complete : g.complete ⟨c, rs⟩ = .yes := by
    unfold Gates.complete at approved ⊢
    split at approved <;> first | rfl | cases approved
  exact (m.state _).symm.trans (Gates.complete_eq_yes_iff.mp complete)

/-! ### Operations that ask nobody -/

theorem aloof_record (W : World σ) (d : Decision) (c : ClientId) (rs : ResourceSet)
    (detail : Option String) (s : Allocator σ) :
    s.setting.Grows (fun e => e.isAloof = true) (s.record W d c rs detail).setting := by
  unfold record recordEvent
  dsimp only
  split
  · exact ⟨[.decided d c rs detail], by simp [Event.isAloof], rfl⟩
  · exact ⟨[.decided d c rs detail], by simp [Event.isAloof], rfl⟩
  · exact ⟨[.audited _, .decided d c rs detail], by simp [Event.isAloof], rfl⟩

theorem Tended.record (h : s.Tended number) (d : Decision) (c : ClientId) (rs : ResourceSet)
    (detail : Option String) : (s.record W d c rs detail).Tended number :=
  h.grow (advisors_record W d c rs detail s) (aloof_record W d c rs detail s)

theorem Tended.submitAll (h : s.Tended number) (ss : List Submission) :
    Tended number { s with setting := s.setting.submitAll ss } :=
  h.grow rfl ((Setting.grows_submitAll _ ss).mono fun _ => Event.aloof_of_entered)

theorem Tended.followUp (h : s.Tended number) (cs : List Command) :
    (s.followUp cs).Tended number := by
  unfold Allocator.followUp
  split
  · exact h.submitAll _
  · exact h

theorem Tended.noteAll (h : s.Tended number) {es : List Event}
    (aloof : ∀ e ∈ es, e.isAloof = true) : (s.noteAll es).Tended number :=
  h.grow (advisors_noteAll es s) ⟨es.reverse, fun e he => aloof e (List.mem_reverse.mp he),
    congrArg Books.journal (journal_noteAll es s)⟩

theorem Tended.strip (h : s.Tended number) (c : ClientId) (rs : ResourceSet) (cause : FreeCause) :
    ((s.take c rs cause).2.cancelOrphaned c).Tended number := by
  have freed (pending : List Grant) :
      Tended number { (s.take c rs cause).2 with pending := pending } :=
    h.grow rfl (Setting.grows_note (P := fun e => e.isAloof = true) rfl s.setting)
  unfold cancelOrphaned
  refine (freed _).noteAll fun e he => ?_
  obtain ⟨g, -, rfl⟩ := List.mem_map.mp he
  rfl

theorem Tended.withdraw (h : s.Tended number) (c : ClientId) : (s.withdraw W c).Tended number := by
  have dropped (gone left : List Request) :
      (Allocator.noteAll (gone.map .withdrawn) { s with deferred := left }).Tended number := by
    refine Tended.noteAll (s := { s with deferred := left }) h fun e he => ?_
    obtain ⟨r, -, rfl⟩ := List.mem_map.mp he
    rfl
  unfold Allocator.withdraw
  dsimp only
  split
  · exact dropped _ _
  · exact (dropped _ _).record _ _ _ _

/-! ### Requests -/

theorem WritesQuietly.inOrder (h : WritesQuietly s t) (order : s.books.InOrder) :
    t.books.InOrder := by
  obtain ⟨es, quiet, same⟩ := h
  exact same ▸ order.write fun e he => Event.still_of_quiet (quiet e he)

theorem free_of_quiet (order : s.books.InOrder) (quiet : WritesQuietly s t)
    (free : ∀ r ∈ rs, s.table.holder r = none) : ∀ r ∈ rs, t.setting.journal.holder r = none := by
  intro r hr
  have table : t.books.table = s.table := quiet.table
  have ledger := (quiet.inOrder order).ledger r
  rw [table, free r hr] at ledger
  exact ledger.symm

theorem Tended.claim (h : s.Tended number) (order : s.books.InOrder) {claimed : ResourceSet}
    {locked : Bool} (free : ∀ r ∈ claimed, s.table.holder r = none)
    (result : s.claim W c claimed = (locked, t)) :
    t.Tended number ∧ (locked = true → t.setting.journal.JustPrepared number c claimed) := by
  have may := h.question (W := W) .may c claimed (by simp)
  obtain ⟨rfl, refused⟩ | ⟨u, allowed, rest⟩ := claim_cases (fun r hr => .inl (free r hr)) result
  · rw [refused] at may
    exact ⟨may, by simp⟩
  rw [allowed] at may
  obtain ⟨es, journal, -⟩ := question_entries allowed
  have unheld := free_of_quiet order (writes_question allowed (by simp)) free
  have prepare := may.question (W := W) .prepare c claimed fun _ => unheld
  rcases rest with ⟨rfl, v, failed, rfl⟩ | ⟨rfl, v, table, prepared, rfl, -⟩
  · rw [failed] at prepare
    exact ⟨prepare.announce c claimed, by simp⟩
  · rw [prepared] at prepare
    obtain ⟨asked, entries, poses, began⟩ := may.began prepared
    exact ⟨prepare, fun _ => ⟨asked, _, entries, by rw [journal]; rfl, poses, began⟩⟩

theorem Tended.tryAllocate (h : s.Tended number) (order : s.books.InOrder)
    {answer : Option (ResourceSet × ResourceSet)} (tried : s.tryAllocate W c rs = (answer, t)) :
    t.Tended number ∧ ∀ expanded claimed, answer = some (expanded, claimed) → claimed ≠ ∅ →
      t.setting.journal.JustPrepared number c claimed := by
  have expanding : (s.expand W rs).2.Tended number :=
    h.grow rfl (Setting.grows_note (P := fun e => e.isAloof = true) (e := .expanding rs) rfl _)
  obtain ⟨rfl, rfl⟩ | ⟨expanded, claimed, -, available, claims, rest⟩ := tryAllocate_expanded tried
  · exact ⟨expanding, by simp⟩
  rcases rest with ⟨rfl, rfl, rfl⟩ | ⟨locked, claim, rfl⟩
  · refine ⟨expanding, fun _ _ same something => ?_⟩
    cases same
    exact absurd rfl something
  · have free (r : ResourceId) (hr : r ∈ claimed) : (s.expand W rs).2.table.holder r = none := by
      obtain ⟨covered, other⟩ := (claims r).mp hr
      exact (available r covered).resolve_right other
    obtain ⟨tended, done⟩ := expanding.claim ((writes_expand W rs s).inOrder order) free claim
    refine ⟨tended, fun _ _ same _ => ?_⟩
    cases locked with
    | false => cases same
    | true =>
      cases same
      exact done rfl

/-! ### Deliveries -/

theorem Tended.isReady (h : s.Tended number) (earlier : List Grant) (g : Grant) :
    (s.isReady W earlier g).2.Tended number := by
  unfold Allocator.isReady
  split
  · exact h
  · split
    · exact h
    · exact h.question .complete g.client g.claimed (by simp)

/-- A grant that is ready has been called complete, if it claims anything. -/
theorem Tended.called (h : s.Tended number) (order : s.books.InOrder)
    (accounted : s.books.Accounted) {before after : List Grant} {g : Grant} (reply : Reply)
    (split : s.pending = before ++ g :: after) (ready : s.isReady W before g = (true, t)) :
    Gated number (.called g reply) t.setting.journal := by
  intro something
  have waits : g ∈ s.books.pending := by
    show g ∈ s.pending
    simp [split]
  have asked : s.question W .complete g.client g.claimed = (true, t) := by
    unfold Allocator.isReady at ready
    split at ready
    · cases ready
    · rw [if_neg (mt ResourceSet.isEmpty_iff.mp something)] at ready
      exact ready
  obtain ⟨es, journal, background, opened⟩ := h.opened asked
  refine ⟨es, _, journal, background, opened, fun r hr => ⟨accounted.traced g waits r hr, ?_⟩⟩
  exact (order.ledger r).symm.trans (order.covered g waits r (order.claims g waits r hr))

theorem Tended.deliver (h : t.Tended number) (g : Grant)
    (gated : ∀ reply, Gated number (.called g reply) t.setting.journal) :
    (t.deliver W g).Tended number := by
  have noted (w : σ) : (Allocator.note (.called g (t.call W g).1)
      { t with setting := { t.setting with world := w } }).Tended number :=
    Tended.note (s := { t with setting := { t.setting with world := w } }) h rfl (gated _)
  have called : (t.call W g).2.Tended number := (noted _).submitAll _
  have refused {u : Allocator σ} (called : u.Tended number) :
      (u.refuseGrant W g).Tended number := by
    have stripped := Tended.strip (s := u.count .addRefusal) called g.client g.expanded .refused
    have told : Tended number (Allocator.announceFreed W g.client
        (u.table.heldOf g.client g.expanded)
        (((u.count .addRefusal).take g.client g.expanded .refused).2.cancelOrphaned g.client)) := by
      unfold announceFreed
      split
      · exact stripped
      · exact stripped.announce _ _
    unfold refuseGrant
    dsimp only
    split
    · exact told.record _ _ _ _
    · exact (told.record _ _ _ _).followUp _
  unfold Allocator.deliver
  split <;> rename_i u answer <;> rw [answer] at called
  · exact Tended.record (s := u.count .addGrant) called _ _ _ _
  · exact refused called
  · exact refused called

/-! ### Every move -/

theorem Tended.accept (h : s.Tended number) (q : Queued) (rest : Queue) :
    (s.accept q rest).Tended number :=
  h.grow rfl ⟨[.took q], by simp [Event.isAloof], rfl⟩

theorem Move.tended (move : Move W s t) (order : s.books.InOrder) (accounted : s.books.Accounted)
    (h : s.Tended number) : t.Tended number := by
  cases move with
  | submit x => exact h.submitAll [x]
  | poll n task o => exact h.poll n task o
  | shift w => exact h
  | serve q rest => exact h.accept q rest
  | release q rest c rs => exact (h.accept q rest).announce c rs
  | free q rest c rs => exact (h.accept q rest).strip c rs .asked
  | tell c freed =>
    exact (Tended.record (s := s.count .addFree) h .free c freed none).followUp _
  | lock g t running obtained =>
    obtain ⟨tended, prepared⟩ := h.tryAllocate order obtained
    have gated : Gated number (.locked g) t.setting.journal := prepared _ _ rfl
    exact Tended.note (s := { t with pending := t.pending ++ [g] }) tended rfl gated
  | defer r t running failed =>
    obtain ⟨tended, -⟩ := h.tryAllocate order failed
    have deferred : Tended number (note (.deferred r) { t.count .addDeferral with
        deferred := t.deferred ++ [r] }) :=
      tended.grow rfl ⟨[.deferred r], by simp [Event.isAloof], rfl⟩
    exact deferred.record _ _ _ _
  | wait before g after t running split unready =>
    have looked := h.isReady (W := W) before g
    rw [unready] at looked
    exact looked
  | deliver before g after t running split ready =>
    have looked := h.isReady (W := W) before g
    rw [ready] at looked
    have gated (reply : Reply) : Gated number (.called g reply) t.setting.journal :=
      h.called order accounted reply split ready
    exact Tended.deliver (t := { t with pending := before ++ after }) looked g gated
  | retry =>
    unfold retryDeferred
    split
    · exact h
    · exact h.grow rfl ⟨[.retried s.deferred], by simp [Event.isAloof], rfl⟩
  | withdraw c => exact h.withdraw c
  | report seq => exact h.note rfl trivial
  | stop =>
    exact h.grow rfl ⟨[.stopped s.setting.queue.waiting s.deferred s.pending],
      by simp [Event.isAloof], rfl⟩

theorem run_gated (W : World σ) (number : Nat) (name : String) (sink : AuditSink) (w : σ)
    (hs : List (Happening σ)) :
    Always (Gated number)
      ((initial [.gates number { name := name }] sink w).run W hs).setting.journal := by
  have books {b b' : Books} (turn : Books.Turn b b') (h : b.InOrder ∧ b.Accounted) :
      b'.InOrder ∧ b'.Accounted := ⟨turn.inOrder h.1, turn.accounted h.1 h.2⟩
  have invariant := moves_invariant (W := W)
    (fun {s t} move (h : (s.books.InOrder ∧ s.books.Accounted) ∧ s.Tended number) =>
      (⟨Books.turns_invariant books move.turns h.1, move.tended h.1.1 h.1.2 h.2⟩ :
        (t.books.InOrder ∧ t.books.Accounted) ∧ t.Tended number))
    (run_moves W (initial [.gates number { name := name }] sink w) hs)
    ⟨⟨Books.initial_inOrder, Books.initial_accounted⟩, _, rfl, Gates.initial_mirrors name number⟩
  exact invariant.2.gated

/-- A client is called back over what a grant claims once a task for these resources and this client
has found its gate open. If the gates have heard of the release of every preparation before, and no
task is left from one, it is a task that the preparation of this grant has started. -/
theorem called_after_gate (W : World σ) (number : Nat) (name : String) (sink : AuditSink) (w : σ)
    (hs : List (Happening σ)) (later earlier : Journal) (g : Grant) (reply : Reply)
    (split : ((initial [.gates number { name := name }] sink w).run W hs).setting.journal =
      later ++ .called g reply :: earlier) (something : g.claimed ≠ ∅) :
    earlier.GateOpened number g := by
  have law := run_gated W number name sink w hs
  rw [split] at law
  exact gateOpened_of_gated (always_tail law) something

/-- A task that outlives the grant it was started for opens the next one. -/
theorem called_after_older_gate :
    let k : GateKey := ⟨⟨"x"⟩, .ofList [⟨"a"⟩]⟩
    let j := ((initial [.gates 0 { name := "door" }] .nowhere 0).run (.steady .yes)
      [asking "x" ["a"], .step, freeing "x" ["a"], .step, .step, .step, asking "x" ["a"], .step,
        .poll 0 0 (some .opens), .step]).setting.journal
    ∃ later g reply earlier, j = later ++ .called g reply :: earlier ∧ g.claimed = k.resources ∧
      ¬ Journal.OwnGateOpened earlier 0 g ∧
      ∃ task, (Journal.beforePreparation earlier g).Opening 0 task k ∧
        .gateFinished 0 task k .opens ∈ earlier := by
  intro k j
  let g : Grant := ⟨⟨⟨k.client, "x"⟩, k.resources, .normal, 4⟩, k.resources, k.resources⟩
  have split : j = j.take 1 ++ .called g .accept :: j.drop 2 := by decide +kernel
  have forgotten : ¬ (Journal.beforePreparation (j.drop 2) g).Remembers k :=
    mt gate?_ne_none_iff.mpr (not_not.mpr (by decide +kernel))
  have started : ∀ e ∈ Journal.preparation (j.drop 2) g, e.isStart = true →
      e = .gateStarted 0 1 k := by decide +kernel
  have unfinished : .gateFinished 0 1 k .opens ∉ j.drop 2 := by decide +kernel
  have other : ¬ Journal.OwnGateOpened (j.drop 2) 0 g := by
    rintro ⟨task, begun, finished⟩
    cases started _ begun rfl
    exact unfinished finished
  have opened := called_after_gate (.steady .yes) 0 "door" .nowhere 0 _ _ _ g .accept split
    (by decide)
  exact ⟨_, g, .accept, _, split, rfl, other, (opened.forgotten forgotten).2.resolve_left other⟩

/-- A client that asks again for what it gives up is called back before the gates hear of the
release, and without any gate of its own. -/
theorem called_past_gate :
    let j := ((initial [.gates 0 { name := "door" }] .nowhere 0).run (.steady .yes)
      [asking "x" ["a"], .step, .poll 0 0 (some .opens), .step, freeing "x" ["a"],
        asking "x" ["a"], .step, .step]).setting.journal
    ∃ later g reply earlier, j = later ++ .called g reply :: earlier ∧ g.claimed ≠ ∅ ∧
      ¬ Journal.OwnGateOpened earlier 0 g := by
  intro j
  let again : Grant :=
    ⟨⟨⟨⟨"x"⟩, "x"⟩, .ofList [⟨"a"⟩], .normal, 3⟩, .ofList [⟨"a"⟩], .ofList [⟨"a"⟩]⟩
  have split : j = j.take 1 ++ .called again .accept :: j.drop 2 := by decide +kernel
  have unstarted : ∀ e ∈ Journal.preparation (j.drop 2) again, e.isStart = false := by
    decide +kernel
  refine ⟨_, again, .accept, _, split, by decide, ?_⟩
  rintro ⟨task, started, -⟩
  cases unstarted _ started

end Allocator

end Allotment
