import Allotment.Proofs.Deeds

/-!
# Commands of different clients

A deed depends on the resources that it is about and on what its own client says. So it is the same
before and after the deed of somebody else that is about other resources (`deed_after`), and it does
not matter which of the two comes first (`independent_commands_commute`).
-/

namespace Allotment

/-- Only `c` gets anything, and only `c` is called. -/
structure Deed.Concerns (c : ClientId) (x : Deed) : Prop where
  heir : x.heir = none ∨ x.heir = some c
  calls : ∀ k ∈ x.yield.calls, k.1.client = c

/-- Everybody accepts every other grant, and withdraws what it still waits for at each. Nothing is
expanded. -/
def World.fickle : World (List ClientId × Nat) where
  expand rs w := (some rs, w)
  advise _ _ _ _ w := (.yes, [], w)
  tasks _ _ w := ([], w)
  call d _ w :=
    (if w.1.count d.id % 2 = 0 then .accept else .refuse, [⟨.withdraw d.id, .high⟩],
      (d.id :: w.1, w.2))
  audit _ w := (true, w)
  stamp w := (.numbered w.2 0, (w.1, w.2 + 1))

theorem World.unswayed_fickle : World.fickle.Unswayed where
  expand _ _ _ _ := rfl
  call d rs e ps w other := by
    simp [answer, fickle, List.count_cons_of_ne other.symm]
  audit _ _ _ _ := rfl
  stamp _ _ _ := rfl

namespace Allocator

variable {σ : Type} {W : World σ} {E : ResourceSet → ResourceSet} {s t u v : Allocator σ}
  {p q : Queued} {c d : ClientId} {x y : Deed} {xs ys : ResourceSet}

/-! ### What a deed depends on -/

theorem concerns_ofReply (g : Grant) (a : Reply × List Submission) :
    (Deed.ofReply g a).Concerns g.client := by
  obtain ⟨reply, ss⟩ := a
  cases reply with
  | accept => exact ⟨.inr rfl, by simp [Deed.ofReply]⟩
  | refuse | breakOff => exact ⟨.inl rfl, by simp [Deed.ofReply]⟩

theorem concerns_ofFree (c : ClientId) (freed : ResourceSet) :
    (Deed.ofFree c freed).Concerns c := by
  refine ⟨.inl rfl, ?_⟩
  unfold Deed.ofFree
  split <;> simp

theorem deed_concerns (own : q.command.clientId? = some c) : (s.deed W E q).served.Concerns c := by
  have deed : (s.deed W E q).Concerns c := by
    unfold deed
    cases command : q.command with
    | allocate e rs =>
      rw [command] at own
      obtain rfl : e.id = c := Option.some.inj own
      dsimp only
      split
      · exact concerns_ofReply ⟨⟨e, rs, q.priority, q.seq⟩, E rs, s.unclaimed e.id (E rs)⟩ _
      · exact ⟨.inl rfl, by simp [Deed.ofDeferral]⟩
    | free e rs | freeAll e =>
      rw [command] at own
      obtain rfl : e = c := Option.some.inj own
      exact concerns_ofFree _ _
    | _ => exact ⟨.inl rfl, by simp⟩
  refine ⟨deed.heir, ?_⟩
  simpa [Deed.served, Yield.andThen] using deed.calls

theorem deed_within (about : s.footprint E q.command = some xs) :
    ∀ r ∈ (s.deed W E q).area, r ∈ xs := by
  intro r
  unfold deed
  cases command : q.command with
  | allocate e rs =>
    rw [command] at about
    obtain rfl : E rs = xs := Option.some.inj about
    dsimp only
    split
    · rw [Deed.area_ofReply]
      exact id
    · exact fun nothing => absurd nothing (ResourceSet.not_mem_empty r)
  | free e rs | freeAll e =>
    rw [command] at about
    obtain rfl := Option.some.inj about
    exact id
  | _ =>
    rw [command] at about
    cases about

/-- What is done for somebody else gives `d` nothing, and takes nothing from it that it is not
about. -/
theorem Does.holds_still (done : Does W x s t) (concerns : x.Concerns c) (other : c ≠ d)
    {r : ResourceId} (apart : r ∈ x.area → s.table.holder r ≠ some d) :
    t.table.holder r = some d ↔ s.table.holder r = some d := by
  rw [done.holder]
  split
  · rename_i touched
    have foreign : x.heir ≠ some d := by
      intro gets
      obtain nobody | own := concerns.heir
      · cases nobody.symm.trans gets
      · exact other (Option.some.inj (own.symm.trans gets))
    exact iff_of_false foreign (apart touched)
  · rfl

/-- What is done for somebody else, elsewhere, changes nothing for a deed. -/
theorem deed_after (done : Does W x s t) (concerns : x.Concerns c) (other : c ≠ d)
    (own : q.command.clientId? = some d) (about : s.footprint E q.command = some ys)
    (apart : ∀ r ∈ x.area, r ∉ ys) : t.deed W E q = s.deed W E q := by
  unfold deed
  cases command : q.command with
  | allocate e rs =>
    rw [command] at own about
    obtain rfl : e.id = d := Option.some.inj own
    obtain rfl : E rs = ys := Option.some.inj about
    have elsewhere : ∀ r ∈ E rs, t.table.holder r = s.table.holder r := by
      intro r member
      rw [done.holder, if_neg fun touched => apart r touched member]
    have available : t.table.isAvailableFor (E rs) e.id = s.table.isAvailableFor (E rs) e.id := by
      rw [Bool.eq_iff_iff, Table.isAvailableFor_iff, Table.isAvailableFor_iff]
      apply forall₂_congr
      intro r member
      rw [elsewhere r member]
    have unclaimed : t.unclaimed e.id (E rs) = s.unclaimed e.id (E rs) := by
      apply ResourceSet.ext
      intro r
      simp only [Allocator.unclaimed, ResourceSet.mem_filter]
      apply and_congr_right
      intro member
      rw [elsewhere r member]
    have answer : W.answer e rs t.setting.world = W.answer e rs s.setting.world := by
      apply done.yields.answers
      intro k called
      rw [concerns.calls k called]
      exact other.symm
    dsimp only
    rw [available, unclaimed, answer]
  | free e rs =>
    rw [command] at own about
    obtain rfl : e = d := Option.some.inj own
    obtain rfl := Option.some.inj about
    refine congrArg (Deed.ofFree e) (ResourceSet.ext fun r => ?_)
    rw [Table.mem_heldOf, Table.mem_heldOf]
    apply and_congr_right
    intro member
    apply done.holds_still concerns other
    intro touched held
    exact apart r touched (Table.mem_heldOf.mpr ⟨member, held⟩)
  | freeAll e =>
    rw [command] at own about
    obtain rfl : e = d := Option.some.inj own
    obtain rfl := Option.some.inj about
    refine congrArg (Deed.ofFree e) (ResourceSet.ext fun r => ?_)
    rw [Table.mem_allocationsOf, Table.mem_allocationsOf]
    apply done.holds_still concerns other
    intro touched held
    exact apart r touched (Table.mem_allocationsOf.mpr held)
  | _ => rfl

/-! ### Either order -/

/-- Two ways to go on from `s` come to the same, but for the order in which requests are deferred,
commands wait, and different clients are called. -/
structure Interchange (s u v : Allocator σ) : Prop where
  table : u.table = v.table
  calls : ∀ c, u.setting.journal.calls.filter (·.1.client == c) =
    v.setting.journal.calls.filter (·.1.client == c)
  deferred : u.deferred.Perm v.deferred
  counters : u.counters = v.counters
  submitted : ∃ ss : List Submission,
    u.setting.queue.submissions.Perm (ss ++ s.setting.queue.submissions) ∧
    v.setting.queue.submissions.Perm (ss ++ s.setting.queue.submissions)

theorem interchange_refl (s : Allocator σ) : Interchange s s s :=
  ⟨rfl, fun _ => rfl, .refl _, rfl, [], .refl _, .refl _⟩

theorem Does.commute {t' : Allocator σ} (opened : s.setting.queue.closed = false)
    (first : Does W x s t) (second : Does W y t u) (first' : Does W y s t')
    (second' : Does W x t' v) (concerns : x.Concerns c) (concerns' : y.Concerns d) (other : c ≠ d)
    (apart : ∀ r ∈ x.area, r ∉ y.area) : Interchange s u v where
  table := by
    apply Table.ext
    intro r
    rw [second.holder, first.holder, second'.holder, first'.holder]
    by_cases touched : r ∈ x.area
    · rw [if_pos touched, if_pos touched, if_neg (apart r touched)]
    · rw [if_neg touched, if_neg touched]
  calls e := by
    rw [second.yields.calls, first.yields.calls, second'.yields.calls, first'.yields.calls]
    -- One of the two does not call `e`.
    have uncalled {z : Deed} {b : ClientId} (concerns : z.Concerns b) (foreign : b ≠ e) :
        z.yield.calls.filter (·.1.client == e) = [] := by
      apply List.filter_eq_nil_iff.mpr
      intro k called
      rw [concerns.calls k called]
      simpa using foreign
    simp only [List.filter_append]
    by_cases own : c = e
    · rw [uncalled concerns' (own ▸ other.symm), List.nil_append, List.nil_append]
    · rw [uncalled concerns own, List.nil_append, List.nil_append]
  deferred := by
    rw [second.yields.deferred, first.yields.deferred, second'.yields.deferred,
      first'.yields.deferred, List.append_assoc, List.append_assoc]
    exact List.perm_append_comm.append_left _
  counters := by
    rw [second.yields.counters, first.yields.counters, second'.yields.counters,
      first'.yields.counters, Counters.plus_right_comm]
  submitted := by
    refine ⟨y.yield.submissions ++ x.yield.submissions, ?_, ?_⟩
    · rw [List.append_assoc]
      exact (second.yields.submissions (first.yields.closed.trans opened)).trans
        ((first.yields.submissions opened).append_left _)
    · have both := (second'.yields.submissions (first'.yields.closed.trans opened)).trans
        ((first'.yields.submissions opened).append_left _)
      rw [← List.append_assoc] at both
      exact both.trans (List.perm_append_comm.append_right _)

theorem footprint_some (about : s.footprint E q.command = some xs) (t : Allocator σ) :
    (∃ zs, t.footprint E q.command = some zs) ∧ ∃ e, q.command.clientId? = some e := by
  cases command : q.command with
  | allocate | free | freeAll => exact ⟨⟨_, rfl⟩, _, rfl⟩
  | _ =>
    rw [command] at about
    cases about

/-- Two commands of different clients are served one after the other, if the sink survives. -/
theorem serve_both (pure : ∀ rs w, (W.expand rs w).1 = some (E rs)) (unswayed : W.Unswayed)
    (running : s.phase = .running) (alone : s.advisors = []) (idle : s.pending = [])
    (mine : p.command.clientId? = some c) (yours : q.command.clientId? = some d) (other : c ≠ d)
    (first : s.footprint E p.command = some xs) (second : s.footprint E q.command = some ys)
    (apart : ∀ r ∈ xs, r ∉ ys) :
    ((s.serve W p).serve W q).Broken W ∨
      Does W (s.deed W E p).served s (s.serve W p) ∧
      Does W (s.deed W E q).served (s.serve W p) ((s.serve W p).serve W q) := by
  obtain broken | done := does_serve pure unswayed running alone idle first
  · have stopped : (s.serve W p).isRunning = false := by
      simp [isRunning, broken.1]
    refine .inl ?_
    rwa [serve, if_neg (by simp [stopped])]
  · obtain ⟨zs, still⟩ := (footprint_some second (s.serve W p)).1
    have same := deed_after done (deed_concerns mine) other yours second fun r touched =>
      apart r (deed_within first r touched)
    obtain broken | further := does_serve pure unswayed (done.phase.trans running)
      (done.yields.advisors.trans alone) (done.yields.pending.trans idle) still
    · exact .inl broken
    · rw [same] at further
      exact .inr ⟨done, further⟩

/-- Let no advisor be asked, let the expander always answer the same, and let clients heed nobody
else. In every history, of two commands of different clients that request, free or free everything,
and are about different resources, either may be served first: unless the sink breaks, it makes no
difference to the table, the calls of each client, which requests are deferred, the counters, and
what is submitted. -/
theorem independent_commands_commute (pure : ∀ rs w, (W.expand rs w).1 = some (E rs))
    (unswayed : W.Unswayed) (sink : AuditSink) (w : σ) (hs : List (Happening σ)) :
    let s := (initial [] sink w).run W hs
    ∀ (p q : Queued) (xs ys : ResourceSet), p.command.clientId? ≠ q.command.clientId? →
      s.footprint E p.command = some xs → s.footprint E q.command = some ys →
      (∀ r ∈ xs, r ∉ ys) →
      ((s.serve W p).serve W q).Broken W ∨ ((s.serve W q).serve W p).Broken W ∨
        Interchange s ((s.serve W p).serve W q) ((s.serve W q).serve W p) := by
  intro s p q xs ys different first second apart
  by_cases running : s.phase = .running
  · obtain ⟨alone, idle⟩ := settled_run W sink w hs
    obtain ⟨-, c, mine⟩ := footprint_some first s
    obtain ⟨-, d, yours⟩ := footprint_some second s
    have other : c ≠ d := by
      rintro rfl
      exact different (mine.trans yours.symm)
    have opened : s.setting.queue.closed = false :=
      (run_holds (P := fun _ => True) (fun _ _ => id) (fun _ _ => id) [] sink w hs
        trivial).1.regular.opened running
    obtain broken | ⟨done, further⟩ := serve_both pure unswayed running alone idle mine yours
      other first second apart
    · exact .inl broken
    obtain broken | ⟨done', further'⟩ := serve_both pure unswayed running alone idle yours mine
      other.symm second first fun r member touched => apart r touched member
    · exact .inr (.inl broken)
    refine .inr (.inr (Does.commute opened done further done' further' (deed_concerns mine)
      (deed_concerns yours) other ?_))
    intro r touched also
    exact apart r (deed_within first r touched) (deed_within second r also)
  · have rests (k : Queued) : s.serve W k = s := by
      rw [serve, if_neg (mt isRunning_iff.mp running)]
    rw [rests p, rests q, rests p]
    exact .inr (.inr (interchange_refl s))

/-- A refusal, which frees what its client had before as well, and a release of something else. -/
theorem refusal_beside_release :
    let s := (initial [] .nowhere ([], 0)).run World.fickle
      [asking "x" ["a"], .step, .step, asking "y" ["c"], .step]
    let xs : ResourceSet := .ofList [⟨"a"⟩, ⟨"b"⟩]
    let ys : ResourceSet := .ofList [⟨"c"⟩]
    let p : Queued := ⟨.allocate ⟨⟨"x"⟩, "x"⟩ xs, .normal, 4⟩
    let q : Queued := ⟨.freeAll ⟨"y"⟩, .normal, 5⟩
    (∀ rs w, (World.fickle.expand rs w).1 = some (id rs)) ∧ World.fickle.Unswayed ∧
    p.command.clientId? ≠ q.command.clientId? ∧ s.footprint id p.command = some xs ∧
    s.footprint id q.command = some ys ∧ (∀ r ∈ xs, r ∉ ys) ∧
    s.setting.journal.calls.map (·.2) = [.accept, .accept] ∧
    ((s.serve World.fickle p).setting.journal.calls.map (·.2)) = [.refuse, .accept, .accept] ∧
    Interchange s ((s.serve World.fickle p).serve World.fickle q)
      ((s.serve World.fickle q).serve World.fickle p) := by
  intro s xs ys p q
  have pure : ∀ rs w, (World.fickle.expand rs w).1 = some (id rs) := fun _ _ => rfl
  have different : p.command.clientId? ≠ q.command.clientId? := by decide
  have first : s.footprint id p.command = some xs := rfl
  have second : s.footprint id q.command = some ys := by decide +kernel
  have apart : ∀ r ∈ xs, r ∉ ys := by
    show ∀ r ∈ xs.toList, r ∉ ys
    decide
  refine ⟨pure, World.unswayed_fickle, different, first, second, apart, by decide +kernel,
    by decide +kernel, ?_⟩
  obtain ⟨-, e, w, broken⟩ | ⟨-, e, w, broken⟩ | same :=
    independent_commands_commute pure World.unswayed_fickle .nowhere ([], 0)
      [asking "x" ["a"], .step, .step, asking "y" ["c"], .step] p q xs ys different first second
      apart
  · cases broken
  · cases broken
  · exact same

end Allocator

end Allotment
