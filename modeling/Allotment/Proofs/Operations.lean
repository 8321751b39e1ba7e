import Allotment.Proofs.Books
import Allotment.Proofs.Frames

/-!
# What an operation writes in the books

One statement for each operation of an allocator: which entries it makes (`Books.write`), and what
else of the books it touches.
-/

namespace Allotment.Allocator

variable {σ : Type} {W : World σ} {s t : Allocator σ}

/-- Nothing of the books is touched but the journal, and that by entries of a kind. -/
def Writes (P : Event → Prop) (s t : Allocator σ) : Prop :=
  ∃ es : List Event, (∀ e ∈ es, P e) ∧ t.books = s.books.write es

abbrev WritesQuietly : Allocator σ → Allocator σ → Prop := Writes fun e => e.isQuiet = true

theorem Writes.trans {P : Event → Prop} {u : Allocator σ} (h : Writes P s t) (k : Writes P t u) :
    Writes P s u := by
  obtain ⟨es, he, ht⟩ := h
  obtain ⟨fs, hf, hu⟩ := k
  refine ⟨fs ++ es, fun e h => ?_, by rw [hu, ht]; simp [Books.write]⟩
  exact (List.mem_append.mp h).elim (hf e) (he e)

theorem writes_of_grows {P : Event → Prop} {x : Setting σ} (h : s.setting.Grows P x) :
    Writes P s { s with setting := x } := by
  obtain ⟨es, he, hx⟩ := h
  exact ⟨es, he, by simp [books, Books.write, hx]⟩

theorem quietly_of_background (h : Writes (fun e => e.isBackground = true) s t) :
    WritesQuietly s t := by
  obtain ⟨es, he, ht⟩ := h
  exact ⟨es, fun e m => Event.quiet_of_background (he e m), ht⟩

theorem WritesQuietly.turns (h : WritesQuietly s t) : Books.Turns s.books t.books := by
  obtain ⟨es, he, ht⟩ := h
  exact ht ▸ Books.turns_quiet es he

theorem Writes.phase {P : Event → Prop} (h : Writes P s t) : t.phase = s.phase := by
  obtain ⟨es, -, ht⟩ := h
  exact congrArg Books.phase ht

theorem Writes.table {P : Event → Prop} (h : Writes P s t) : t.table = s.table := by
  obtain ⟨es, -, ht⟩ := h
  exact congrArg Books.table ht

theorem Writes.pending {P : Event → Prop} (h : Writes P s t) : t.pending = s.pending := by
  obtain ⟨es, -, ht⟩ := h
  exact congrArg Books.pending ht

/-! ### Calls from the outside -/

theorem writes_submit (x : Submission) (s : Allocator σ) : WritesQuietly s (s.submit x) :=
  quietly_of_background
    (writes_of_grows ((Setting.grows_submit s.setting x).mono fun _ => Event.background_of_entered))

theorem writes_poll (number task : Nat) (o : Option GateOutcome) (s : Allocator σ) :
    WritesQuietly s (s.poll number task o).2 :=
  have polled := Setting.stirs_pollGates (A := fun _ => True) (fun _ _ => trivial)
    number task o s.advisors s.setting
  quietly_of_background (writes_of_grows polled.background)

/-! ### Calls to the outside -/

theorem writes_expand (W : World σ) (rs : ResourceSet) (s : Allocator σ) :
    WritesQuietly s (s.expand W rs).2 := ⟨[.expanding rs], by simp [Event.isQuiet], rfl⟩

theorem books_question (W : World σ) (h : Hook) (c : ClientId) (rs : ResourceSet)
    (s : Allocator σ) : ∃ es : List Event, (∀ e ∈ es, e.isBackground = true) ∧
      (s.question W h c rs).2.books =
        s.books.write (.consulted h c rs (s.question W h c rs).1 :: es) := by
  obtain ⟨es, he, hj⟩ :=
    (Setting.stirs_consult W.submits_any h c rs s.advisors s.setting).background
  refine ⟨es, he, ?_⟩
  show Books.mk _ _ _ _ (_ :: _) = Books.mk _ _ _ _ (_ :: _)
  rw [hj]
  rfl

/-- A question is noise in the books unless it calls a preparation complete. -/
theorem writes_question {h : Hook} {c : ClientId} {rs : ResourceSet} {approved : Bool}
    (asked : s.question W h c rs = (approved, t)) (open_ : h ≠ .complete ∨ approved = false) :
    WritesQuietly s t := by
  obtain ⟨es, he, hb⟩ := books_question W h c rs s
  rw [asked] at hb
  refine ⟨_, List.forall_mem_cons.mpr ⟨?_, fun e m => Event.quiet_of_background (he e m)⟩, hb⟩
  cases h <;> simp_all [Event.isQuiet]

theorem writes_announce (W : World σ) (c : ClientId) (rs : ResourceSet) (s : Allocator σ) :
    WritesQuietly s (s.announce W c rs) := by
  obtain ⟨es, he, hj⟩ :=
    (Setting.stirs_notify W.submits_any .released c rs s.advisors s.setting).background
  refine ⟨.consulted .released c rs true :: es, ?_, ?_⟩
  · exact List.forall_mem_cons.mpr ⟨rfl, fun e m => Event.quiet_of_background (he e m)⟩
  · show Books.mk _ _ _ _ (_ :: _) = Books.mk _ _ _ _ (_ :: _)
    rw [hj]
    rfl

theorem books_call (W : World σ) (g : Grant) (s : Allocator σ) :
    ∃ es : List Event, (∀ e ∈ es, ∃ q, e = .entered q) ∧
      (s.call W g).2.books = s.books.write (es ++ [.called g (s.call W g).1]) := by
  unfold call
  rcases W.call g.request.client g.requested s.setting.world with ⟨reply, submissions, w⟩
  obtain ⟨es, he, hj⟩ := Setting.grows_submitAll
    (({ s.setting with world := w } : Setting σ).note (.called g reply)) submissions
  refine ⟨es, he, ?_⟩
  simp [books, Books.write, hj]

theorem writes_followUp (cs : List Command) (s : Allocator σ) :
    WritesQuietly s (s.followUp cs) := by
  unfold followUp
  split
  · exact quietly_of_background (writes_of_grows
      (Setting.stirs_submitAll (A := fun _ => True) (fun _ _ => trivial) _).background)
  · exact ⟨[], by simp, rfl⟩

/-- Recording a decision can end in a crash. -/
theorem books_record (W : World σ) (d : Decision) (c : ClientId) (rs : ResourceSet)
    (detail : Option String) (s : Allocator σ) :
    ∃ (es : List Event) (phase : Phase), (∀ e ∈ es, e.isQuiet = true) ∧
      (phase = s.phase ∨ phase = .crashed) ∧
      (s.record W d c rs detail).books = { s.books.write es with phase } := by
  unfold record recordEvent
  dsimp only
  split
  · exact ⟨[.decided d c rs detail], s.phase, by simp [Event.isQuiet], .inl rfl, rfl⟩
  · exact ⟨[.decided d c rs detail], s.phase, by simp [Event.isQuiet], .inl rfl, rfl⟩
  · refine ⟨[.audited _, .decided d c rs detail], _, by simp [Event.isQuiet], ?_, rfl⟩
    split
    · exact .inl rfl
    · exact .inr rfl

theorem turns_record (W : World σ) (d : Decision) (c : ClientId) (rs : ResourceSet)
    (detail : Option String) (s : Allocator σ) :
    Books.Turns s.books (s.record W d c rs detail).books := by
  obtain ⟨es, phase, quiet, kept, same⟩ := books_record W d c rs detail s
  rw [same]
  exact .single (.quiet es phase quiet kept)

/-! ### The books themselves -/

theorem journal_noteAll (es : List Event) (s : Allocator σ) :
    (s.noteAll es).books = s.books.write es.reverse := by
  induction es generalizing s with
  | nil => rfl
  | cons e es ih =>
    refine (ih (s.note e)).trans ?_
    simp [Books.write, books, note]

theorem books_strip (c : ClientId) (rs : ResourceSet) (cause : FreeCause) (s : Allocator σ) :
    ((s.take c rs cause).2.cancelOrphaned c).books = s.books.strip c rs cause := by
  unfold cancelOrphaned
  rw [journal_noteAll]
  rfl

theorem books_drop (c : ClientId) (s : Allocator σ) :
    (noteAll ((s.deferred.filter (·.client.id == c)).map .withdrawn)
      { s with deferred := s.deferred.filter fun r => !(r.client.id == c) }).books =
    { s.books.write (s.books.withdrawals c) with
      deferred := s.deferred.filter fun r => !(r.client.id == c) } := by
  rw [journal_noteAll]
  rfl

/-! ### Allocating -/

/-- A call to the outside while a request is being decided. -/
inductive Ask (W : World σ) (s : Allocator σ) : Allocator σ → Prop
  | expand (rs : ResourceSet) : Ask W s (s.expand W rs).2
  | question (h : Hook) (c : ClientId) (rs : ResourceSet) (early : h ≠ .complete) :
      Ask W s (s.question W h c rs).2
  | announce (c : ClientId) (rs : ResourceSet) : Ask W s (s.announce W c rs)

abbrev Asks (W : World σ) : Allocator σ → Allocator σ → Prop := Relation.ReflTransGen (Ask W)

theorem ask_of_question {h : Hook} {c : ClientId} {rs : ResourceSet} {approved : Bool}
    (asked : s.question W h c rs = (approved, t)) (early : h ≠ .complete) : Ask W s t := by
  have ask := Ask.question (W := W) (s := s) h c rs early
  rwa [asked] at ask

theorem Asks.quietly (h : Asks W s t) : WritesQuietly s t := by
  induction h with
  | refl => exact ⟨[], by simp, rfl⟩
  | tail _ ask ih =>
    cases ask with
    | expand rs => exact ih.trans (writes_expand W rs _)
    | question h c rs early => exact ih.trans (writes_question rfl (.inl early))
    | announce c rs => exact ih.trans (writes_announce W c rs _)

theorem lock_available (W : World σ) {s : Allocator σ} {c : ClientId} {claimed : ResourceSet}
    (available : ∀ r ∈ claimed, s.table.holder r = none ∨ s.table.holder r = some c) :
    ∃ table, s.lock W c claimed = (true, { s with table }) ∧
      ∀ r, table.holder r = if r ∈ claimed then some c else s.table.holder r := by
  obtain ⟨table, ok⟩ := Table.allocateAll_of_available available
  refine ⟨table, ?_, Table.holder_allocateAll ok⟩
  unfold lock
  rw [ok]

/-- Free resources are refused, prepared in vain and called off, or locked. -/
theorem claim_cases {c : ClientId} {claimed : ResourceSet} {locked : Bool}
    (available : ∀ r ∈ claimed, s.table.holder r = none ∨ s.table.holder r = some c)
    (h : s.claim W c claimed = (locked, t)) :
    (locked = false ∧ s.question W .may c claimed = (false, t)) ∨
    ∃ u, s.question W .may c claimed = (true, u) ∧
      ((locked = false ∧ ∃ v, u.question W .prepare c claimed = (false, v) ∧
        t = v.announce W c claimed) ∨
      (locked = true ∧ ∃ v table, u.question W .prepare c claimed = (true, v) ∧
        t = { v with table } ∧
        ∀ r, table.holder r = if r ∈ claimed then some c else v.table.holder r)) := by
  unfold claim at h
  rcases may : s.question W .may c claimed with ⟨allowed, u⟩
  rw [may] at h
  cases allowed with
  | false =>
    cases h
    exact .inl ⟨rfl, rfl⟩
  | true =>
    refine .inr ⟨u, rfl, ?_⟩
    dsimp only at h
    rcases prepare : u.question W .prepare c claimed with ⟨prepared, v⟩
    rw [prepare] at h
    cases prepared with
    | false =>
      cases h
      exact .inl ⟨rfl, v, rfl, rfl⟩
    | true =>
      have quiet := (writes_question may (by simp)).trans (writes_question prepare (by simp))
      obtain ⟨table, done, holders⟩ := lock_available W (quiet.table ▸ available)
      dsimp only at h
      rw [done] at h
      cases h
      exact .inr ⟨rfl, v, table, rfl, rfl, holders⟩

/-- A request fails before its claim, has nothing to claim, or stands and falls with its claim. -/
theorem tryAllocate_expanded {c : ClientId} {rs : ResourceSet}
    {answer : Option (ResourceSet × ResourceSet)} (h : s.tryAllocate W c rs = (answer, t)) :
    (answer = none ∧ t = (s.expand W rs).2) ∨
    ∃ expanded claimed, (s.expand W rs).1 = some expanded ∧
      (∀ r ∈ expanded, s.table.holder r = none ∨ s.table.holder r = some c) ∧
      (∀ r, r ∈ claimed ↔ r ∈ expanded ∧ s.table.holder r ≠ some c) ∧
      ((answer = some (expanded, claimed) ∧ claimed = ∅ ∧ t = (s.expand W rs).2) ∨
      ∃ locked, (s.expand W rs).2.claim W c claimed = (locked, t) ∧
        answer = if locked then some (expanded, claimed) else none) := by
  have same : (s.expand W rs).2.table = s.table := rfl
  unfold tryAllocate at h
  rcases expand : s.expand W rs with ⟨found, u⟩
  rw [expand] at h same
  dsimp only at h same
  cases found with
  | none =>
    cases h
    exact .inl ⟨rfl, rfl⟩
  | some expanded =>
    dsimp only at h
    split at h
    · rename_i available
      have available := Table.isAvailableFor_iff.mp available
      rw [same] at available
      refine .inr ⟨expanded, u.unclaimed c expanded, rfl, available, fun r => ?_, ?_⟩
      · simp [unclaimed, same]
      · split at h
        · rename_i nothing
          cases h
          exact .inl ⟨rfl, ResourceSet.isEmpty_iff.mp nothing, rfl⟩
        · rcases claim : u.claim W c (u.unclaimed c expanded) with ⟨locked, v⟩
          rw [claim] at h
          refine .inr ⟨locked, ?_⟩
          cases locked <;> cases h <;> exact ⟨rfl, rfl⟩
    · cases h
      exact .inl ⟨rfl, rfl⟩

theorem tryAllocate_cases {c : ClientId} {rs : ResourceSet}
    {answer : Option (ResourceSet × ResourceSet)} (h : s.tryAllocate W c rs = (answer, t)) :
    ∃ u, Asks W s u ∧ u.advisors = s.advisors ∧
      ((answer = none ∧ t = u) ∨
      ∃ expanded claimed,
        (∀ r ∈ expanded, s.table.holder r = none ∨ s.table.holder r = some c) ∧
        (∀ r, r ∈ claimed ↔ r ∈ expanded ∧ s.table.holder r ≠ some c) ∧
        ((answer = some (expanded, claimed) ∧ claimed = ∅ ∧ t = u) ∨
        ∃ locked, u.claim W c claimed = (locked, t) ∧
          answer = if locked then some (expanded, claimed) else none)) := by
  refine ⟨(s.expand W rs).2, .single (.expand rs), rfl, (tryAllocate_expanded h).imp_right ?_⟩
  rintro ⟨expanded, claimed, -, cases⟩
  exact ⟨expanded, claimed, cases⟩

/-- What is claimed is free, and stays so in quiet. -/
theorem available_of_claimed {u : Allocator σ} {c : ClientId} {expanded claimed : ResourceSet}
    (quiet : WritesQuietly s u)
    (available : ∀ r ∈ expanded, s.table.holder r = none ∨ s.table.holder r = some c)
    (claims : ∀ r, r ∈ claimed ↔ r ∈ expanded ∧ s.table.holder r ≠ some c) :
    ∀ r ∈ claimed, u.table.holder r = none ∨ u.table.holder r = some c := by
  rw [quiet.table]
  exact fun r hr => available r ((claims r).mp hr).1

/-- A request that fails leaves nothing but the record of what was asked. -/
theorem tryAllocate_none {c : ClientId} {rs : ResourceSet}
    (h : s.tryAllocate W c rs = (none, t)) : Asks W s t := by
  obtain ⟨u, asks, -, ⟨-, rfl⟩ | ⟨expanded, claimed, available, claims, granted | claimed⟩⟩ :=
    tryAllocate_cases h
  · exact asks
  · cases granted.1
  · obtain ⟨locked, claim, answer⟩ := claimed
    obtain ⟨-, may⟩ | ⟨v, may, ⟨-, x, prepare, rfl⟩ | ⟨rfl, -⟩⟩ :=
      claim_cases (available_of_claimed asks.quietly available claims) claim
    · exact asks.tail (ask_of_question may (by simp))
    · have asked := asks.tail (ask_of_question may (by simp))
      exact (asked.tail (ask_of_question prepare (by simp))).tail (.announce c claimed)
    · cases answer

/-- A request that succeeds takes what its client did not hold yet, all of which was free. -/
theorem tryAllocate_some {c : ClientId} {rs expanded claimed : ResourceSet}
    (h : s.tryAllocate W c rs = (some (expanded, claimed), t)) :
    ∃ u table, Asks W s u ∧ t = { u with table } ∧
      (∀ r ∈ expanded, s.table.holder r = none ∨ s.table.holder r = some c) ∧
      (∀ r, r ∈ claimed ↔ r ∈ expanded ∧ s.table.holder r ≠ some c) ∧
      ∀ r, table.holder r = if r ∈ claimed then some c else s.table.holder r := by
  obtain ⟨u, asks, -, ⟨none, -⟩ | ⟨expanded, claimed, available, claims, granted | claimed⟩⟩ :=
    tryAllocate_cases h
  · cases none
  · obtain ⟨answer, rfl, rfl⟩ := granted
    cases answer
    exact ⟨t, t.table, asks, rfl, available, claims, fun r => by
      rw [asks.quietly.table, if_neg (ResourceSet.not_mem_empty r)]⟩
  · obtain ⟨locked, claim, answer⟩ := claimed
    obtain ⟨rfl, -⟩ | ⟨v, may, ⟨rfl, -⟩ | ⟨rfl, x, table, prepare, rfl, holders⟩⟩ :=
      claim_cases (available_of_claimed asks.quietly available claims) claim
    · cases answer
    · cases answer
    · cases answer
      have asked : Asks W s x := (asks.tail (ask_of_question may (by simp))).tail
        (ask_of_question prepare (by simp))
      exact ⟨x, table, asked, rfl, available, claims, fun r => by
        rw [holders, asked.quietly.table]⟩

theorem question_alone (W : World σ) (h : Hook) (c : ClientId) (rs : ResourceSet)
    (alone : s.advisors = []) :
    (s.question W h c rs).1 = true ∧ (s.question W h c rs).2.advisors = [] := by
  unfold question Chain.question
  rw [alone]
  exact ⟨rfl, rfl⟩

theorem claim_alone {c : ClientId} {claimed : ResourceSet} (alone : s.advisors = [])
    (available : ∀ r ∈ claimed, s.table.holder r = none ∨ s.table.holder r = some c) :
    (s.claim W c claimed).1 = true := by
  rcases claim : s.claim W c claimed with ⟨locked, t⟩
  have may := question_alone W .may c claimed alone
  obtain ⟨-, no⟩ | ⟨u, yes, ⟨-, v, no, -⟩ | ⟨rfl, -⟩⟩ := claim_cases available claim
  · exact absurd (may.1.symm.trans (congrArg Prod.fst no)) (by simp)
  · have still : u.advisors = [] := (congrArg (·.2.advisors) yes).symm.trans may.2
    have prepare := question_alone W .prepare c claimed still
    exact absurd (prepare.1.symm.trans (congrArg Prod.fst no)) (by simp)
  · rfl

/-- Without advisors a request fails only for what somebody else holds. -/
theorem tryAllocate_alone {c : ClientId} {rs expanded : ResourceSet} (alone : s.advisors = [])
    (expand : (s.expand W rs).1 = some expanded)
    (available : ∀ r ∈ expanded, s.table.holder r = none ∨ s.table.holder r = some c) :
    (s.tryAllocate W c rs).1 ≠ none := by
  let u := (s.expand W rs).2
  have found : s.expand W rs = (some expanded, u) := Prod.ext expand rfl
  have table : u.table = s.table := rfl
  have claimed : (u.claim W c (u.unclaimed c expanded)).1 = true := claim_alone alone
    fun r hr => available r (ResourceSet.mem_filter.mp hr).1
  unfold tryAllocate
  rw [found]
  dsimp only
  rw [table, if_pos (Table.isAvailableFor_iff.mpr available)]
  split
  · simp
  · rcases claim : u.claim W c (u.unclaimed c expanded) with ⟨locked, v⟩
    rw [claim] at claimed
    obtain rfl : locked = true := claimed
    simp

theorem turns_locked {g : Grant} (running : s.phase = .running)
    (h : s.tryAllocate W g.client g.requested = (some (g.expanded, g.claimed), t)) :
    Books.Turns s.books (note (.locked g) { t with pending := t.pending ++ [g] }).books := by
  obtain ⟨u, table, asks, rfl, available, claimed, holders⟩ := tryAllocate_some h
  have quiet := asks.quietly
  have same : u.table = s.table := quiet.table
  rw [← same] at available claimed holders
  exact quiet.turns.tail (.lock ⟨quiet.phase.trans running, available, claimed, holders⟩)

theorem turns_defer {r : Request} (running : s.phase = .running)
    (h : s.tryAllocate W r.client.id r.resources = (none, t)) :
    Books.Turns s.books (t.defer W r).books := by
  have quiet := (tryAllocate_none h).quietly
  have deferred := quiet.turns.tail (.defer r (quiet.phase.trans running))
  exact deferred.trans (turns_record W .defer r.client.id r.resources none
    (note (.deferred r) { t.count .addDeferral with deferred := t.deferred ++ [r] }))

/-! ### Delivering -/

theorem isReady_false {earlier : List Grant} {g : Grant}
    (h : s.isReady W earlier g = (false, t)) : WritesQuietly s t := by
  unfold isReady at h
  split at h
  · cases h
    exact ⟨[], by simp, rfl⟩
  · split at h
    · cases h
    · exact writes_question h (.inr rfl)

/-- A grant is ready once the advisors have prepared what it claims. -/
theorem isReady_true {earlier : List Grant} {g : Grant}
    (h : s.isReady W earlier g = (true, t)) :
    (∀ k ∈ earlier, k.holdsBack g = false) ∧
      ∃ es : List Event, (∀ e ∈ es, e.isBackground = true) ∧
        t.books = s.books.write (g.approval ++ es) := by
  unfold isReady at h
  split at h
  · cases h
  · rename_i free
    refine ⟨fun k hk => by simpa using fun held => free (List.any_eq_true.mpr ⟨k, hk, held⟩), ?_⟩
    split at h
    · rename_i nothing
      cases h
      exact ⟨[], by simp, by simp [Grant.approval, nothing, Books.write]⟩
    · rename_i something
      obtain ⟨es, he, hb⟩ := books_question W .complete g.client g.claimed s
      rw [h] at hb
      exact ⟨es, he, by simpa [Grant.approval, Grant.prepared, something] using hb⟩

/-- A client is called: the grant has left the tentative ones, and nobody has reacted yet. -/
theorem books_delivered (W : World σ) (before after : List Grant) {s t : Allocator σ} {g : Grant}
    {es : List Event} (ready : t.books = s.books.write (g.approval ++ es)) :
    ∃ fs : List Event, (∀ e ∈ fs, ∃ q, e = .entered q) ∧
      (call W g { t with pending := before ++ after }).2.books =
        ((s.books.write es).handOver before g after
          (call W g { t with pending := before ++ after }).1).write fs := by
  obtain ⟨fs, hf, hb⟩ := books_call W g { t with pending := before ++ after }
  refine ⟨fs, hf, hb.trans ?_⟩
  show Books.write _ { t.books with pending := before ++ after } = _
  rw [ready]
  simp [Books.write, Books.handOver, Grant.delivery]

theorem turns_acceptGrant (W : World σ) (g : Grant) (s : Allocator σ) :
    Books.Turns s.books (s.acceptGrant W g).books := turns_record W _ _ _ _ (s.count .addGrant)

theorem writes_announceFreed (W : World σ) (c : ClientId) (freed : ResourceSet)
    (s : Allocator σ) : WritesQuietly s (s.announceFreed W c freed) := by
  unfold announceFreed
  split
  · exact ⟨[], by simp, rfl⟩
  · exact writes_announce W c freed s

theorem turns_refuseGrant (W : World σ) (g : Grant) (s : Allocator σ) :
    Books.Turns (s.books.strip g.client g.expanded .refused) (s.refuseGrant W g).books := by
  have stripped := books_strip g.client g.expanded .refused (s.count .addRefusal)
  have told := (writes_announceFreed W g.client (s.table.heldOf g.client g.expanded)
    (((s.count .addRefusal).take g.client g.expanded .refused).2.cancelOrphaned g.client)).turns
  rw [stripped] at told
  refine (told.trans (turns_record W .refuse g.client g.requested
    (some (refusalDetail (s.table.heldOf g.client g.expanded))) _)).trans ?_
  unfold refuseGrant
  dsimp only
  split
  · exact .refl
  · exact (writes_followUp _ _).turns

theorem turns_deliver {before after : List Grant} {g : Grant} (running : s.phase = .running)
    (split : s.pending = before ++ g :: after) (h : s.isReady W before g = (true, t)) :
    Books.Turns s.books (deliver W g { t with pending := before ++ after }).books := by
  obtain ⟨free, es, he, hb⟩ := isReady_true h
  obtain ⟨fs, hf, called⟩ := books_delivered W before after hb
  have asked : Books.Turns s.books (s.books.write es) :=
    Books.turns_quiet es fun e m => Event.quiet_of_background (he e m)
  have ready : (s.books.write es).Ready before g after := ⟨running, split, free⟩
  have refused (u : Allocator σ) (reply : Reply) (no : reply ≠ .accept)
      (hu : u.books = ((s.books.write es).handOver before g after reply).write fs) :
      Books.Turns s.books (u.refuseGrant W g).books := by
    refine (asked.tail ?_).trans (turns_refuseGrant W g u)
    rw [hu]
    exact .refuse reply fs ready no hf
  unfold deliver
  rcases answer : call W g { t with pending := before ++ after } with ⟨reply, u⟩
  rw [answer] at called
  cases reply with
  | accept =>
    refine ((asked.tail (.accept ready)).trans ?_).trans (turns_acceptGrant W g u)
    rw [called]
    exact Books.turns_quiet fs fun e m =>
      Event.quiet_of_background (Event.background_of_entered (hf e m))
  | refuse => exact refused u .refuse (by simp) called
  | breakOff => exact refused u .breakOff (by simp) called

/-! ### Retrying and withdrawing -/

theorem turns_retryDeferred (running : s.phase = .running) :
    Books.Turns s.books s.retryDeferred.books := by
  unfold retryDeferred
  split
  · exact .refl
  · exact .single (.retry running)

/-- A withdrawal drops deferred requests and records that. -/
theorem books_withdraw (W : World σ) (c : ClientId) (s : Allocator σ) :
    ∃ (es : List Event) (phase : Phase), (∀ e ∈ es, e.isQuiet = true) ∧
      (phase = s.phase ∨ phase = .crashed) ∧
      (s.withdraw W c).books =
        { ({ s.books.write (s.books.withdrawals c) with
            deferred := s.deferred.filter fun r => !(r.client.id == c) } : Books).write es with
          phase } := by
  let gone := s.deferred.filter (·.client.id == c)
  let left := noteAll (gone.map .withdrawn)
    { s with deferred := s.deferred.filter fun r => !(r.client.id == c) }
  have dropped : left.books = { s.books.write (s.books.withdrawals c) with
      deferred := s.deferred.filter fun r => !(r.client.id == c) } := books_drop c s
  unfold withdraw
  dsimp only
  split
  · exact ⟨[], s.phase, by simp, .inl rfl, dropped⟩
  · obtain ⟨es, phase, quiet, kept, same⟩ := books_record W .withdraw c (union gone) none left
    have going : left.phase = s.phase := congrArg Books.phase dropped
    exact ⟨es, phase, quiet, going ▸ kept, dropped ▸ same⟩

theorem turns_withdraw (c : ClientId) (running : s.phase = .running) :
    Books.Turns s.books (s.withdraw W c).books := by
  obtain ⟨es, phase, quiet, kept, same⟩ := books_withdraw W c s
  have dropped := Relation.ReflTransGen.single (Books.Turn.withdraw (b := s.books) c running)
  rw [same]
  exact dropped.tail (.quiet es phase quiet kept)

end Allotment.Allocator
