import Mathlib.Data.List.Induction
import Allotment.Proofs.Conservation

/-!
# When advisors are asked

Every question that an advisor is asked is due (`Due`): leave and preparation concern what a request
lacks and nobody holds, completion concerns a tentative grant that nothing holds back. What is due
is read off the entries before the question, so a journal is followed entry by entry (`Extends`).
-/

namespace Allotment

variable {σ : Type} {W : World σ}

namespace Event

/-- What an advisor, or all of them together, were asked. -/
def question? : Event → Option (Hook × ClientId × ResourceSet)
  | advised _ h c rs _ | consulted h c rs _ => some (h, c, rs)
  | _ => none

def verdict? : Event → Option (AdvisorTag × Bool)
  | advised tag _ _ _ answer => some (tag, answer.approves)
  | _ => none

/-- Written down while the advisors are asked one thing. -/
def Poses (h : Hook) (c : ClientId) (rs : ResourceSet) (e : Event) : Prop :=
  e.isBackground = true ∧ ∀ q, e.question? = some q → q = (h, c, rs)

/-- Written down while somebody is asked, and not itself a question. -/
def Mute (e : Event) : Prop := e.isBackground = true ∧ e.question? = none

/-- Asks for nothing: advisors are at most told of a release. -/
def Silent (e : Event) : Prop := ∀ h c rs, e.question? = some (h, c, rs) → h = .released

theorem mute_of_entered {e : Event} (h : ∃ q, e = .entered q) : e.Mute := by
  obtain ⟨q, rfl⟩ := h
  exact ⟨rfl, rfl⟩

theorem mute_of_poll {e : Event} (h : e.isPoll = true) : e.Mute := by
  cases e with
  | gateAsked | gateFinished => exact ⟨rfl, rfl⟩
  | _ => cases h

theorem Mute.poses {e : Event} (mute : e.Mute) (h : Hook) (c : ClientId) (rs : ResourceSet) :
    e.Poses h c rs := ⟨mute.1, fun q asked => by cases mute.2.symm.trans asked⟩

theorem silent_of_poses {e : Event} {c : ClientId} {rs : ResourceSet}
    (poses : e.Poses .released c rs) : e.Silent := by
  intro h d xs asked
  cases poses.2 _ asked
  rfl

theorem silent_of_none {e : Event} (none : e.question? = none) : e.Silent :=
  fun _ _ _ asked => by cases none.symm.trans asked

theorem silent_of_mute {e : Event} (mute : e.Mute) : e.Silent := silent_of_none mute.2

/-- The tentative grants after the event, given those before it. -/
def tentative : Event → List Grant → List Grant
  | locked g, gs => gs ++ [g]
  | called g _, gs | cancelled g, gs => gs.filter (· ≠ g)
  | stopped .., _ => []
  | _, gs => gs

theorem tentative_of_remark {e : Event} (h : e.isRemark = true) (gs : List Grant) :
    e.tentative gs = gs := by
  cases e <;> first | rfl | cases h

theorem tentative_of_background {e : Event} (h : e.isBackground = true) (gs : List Grant) :
    e.tentative gs = gs := by
  cases e <;> first | rfl | cases h

end Event

namespace Journal

/-! ### What the journal says of a moment -/

/-- The tentative grants, oldest first. -/
def pending (j : Journal) : List Grant := j.foldr Event.tentative []

/-- The advisors that have answered, and whether they approved, in the order in which they did. -/
def verdicts (es : List Event) : List (AdvisorTag × Bool) := es.reverse.filterMap Event.verdict?

theorem pending_append {es : List Event} (h : ∀ e ∈ es, ∀ gs, e.tentative gs = gs) (j : Journal) :
    pending (es ++ j) = pending j := by
  induction es with
  | nil => rfl
  | cons e es ih =>
    obtain ⟨he, h⟩ := List.forall_mem_cons.mp h
    exact (he _).trans (ih h)

theorem pending_cancelled (gs : List Grant) (j : Journal) :
    pending ((gs.map .cancelled).reverse ++ j) = (pending j).filter (· ∉ gs) := by
  induction gs generalizing j with
  | nil => simp
  | cons g gs ih =>
    rw [List.map_cons, List.reverse_cons, List.append_assoc, List.singleton_append, ih]
    show ((pending j).filter (· ≠ g)).filter (· ∉ gs) = _
    simp [List.filter_filter, Bool.and_comm]

theorem verdicts_append (es fs : List Event) :
    verdicts (es ++ fs) = verdicts fs ++ verdicts es := by
  simp [verdicts]

theorem verdicts_mute {es : List Event} (h : ∀ e ∈ es, e.Mute) : verdicts es = [] := by
  refine List.filterMap_eq_nil_iff.mpr fun e he => ?_
  have mute := h e (List.mem_reverse.mp he)
  cases e with
  | advised => cases mute.2
  | _ => rfl

/-- What `c` lacks for having `expanded` is `rs`, and nobody holds any of it. -/
structure Lacks (j : Journal) (c : ClientId) (expanded rs : ResourceSet) : Prop where
  nonempty : rs ≠ ∅
  missing : ∀ r, r ∈ rs ↔ r ∈ expanded ∧ j.holder r ≠ some c
  free : ∀ r ∈ rs, j.holder r = none

/-- A tentative grant claims `rs` for `c`, which holds all of it, and no earlier one holds it
back. -/
structure Awaited (j : Journal) (c : ClientId) (rs : ResourceSet) : Prop where
  nonempty : rs ≠ ∅
  held : ∀ r ∈ rs, j.holder r = some c
  grant : ∃ before g after, j.pending = before ++ g :: after ∧ g.client = c ∧ g.claimed = rs ∧
    ∀ k ∈ before, k.client = c → ∀ r ∈ k.expanded, r ∉ g.expanded ∧ r ∉ rs

section
variable {j : Journal} {h : Hook} {c : ClientId} {expanded rs : ResourceSet} {es : List Event}

theorem holder_since (poses : ∀ e ∈ es, e.Poses h c rs) (r : ResourceId) :
    holder (es ++ j) r = holder j r :=
  holder_append (fun e he => Event.still_of_quiet (Event.quiet_of_background (poses e he).1)) j r

theorem Lacks.since (lacks : j.Lacks c expanded rs) (poses : ∀ e ∈ es, e.Poses h c rs) :
    Lacks (es ++ j) c expanded rs where
  nonempty := lacks.nonempty
  missing r := by
    rw [holder_since poses]
    exact lacks.missing r
  free r hr := (holder_since poses r).trans (lacks.free r hr)

theorem Awaited.since (awaited : j.Awaited c rs) (poses : ∀ e ∈ es, e.Poses h c rs) :
    Awaited (es ++ j) c rs where
  nonempty := awaited.nonempty
  held r hr := (holder_since poses r).trans (awaited.held r hr)
  grant := by
    rw [pending_append fun e he => Event.tentative_of_background (poses e he).1]
    exact awaited.grant

end

/-! ### Journals that go on -/

/-- `j` goes on, each further entry being as `P` wants it, given the entries before it. -/
inductive Extends (P : Event → Journal → Prop) (j : Journal) : Journal → Prop
  | refl : Extends P j j
  | note {k : Journal} (before : Extends P j k) (e : Event) (fits : P e k) : Extends P j (e :: k)

section
variable {P Q : Event → Journal → Prop} {i j k : Journal}

theorem Extends.trans (h : Extends P i j) (further : Extends P j k) : Extends P i k := by
  induction further with
  | refl => exact h
  | note _ e fits ih => exact ih.note e fits

theorem Extends.imp (h : Extends P j k) (imp : ∀ e l, P e l → Q e l) : Extends Q j k := by
  induction h with
  | refl => exact .refl
  | note _ e fits ih => exact ih.note e (imp e _ fits)

theorem Extends.always (h : Extends P j k) (start : Always P j) : Always P k := by
  induction h with
  | refl => exact start
  | note _ e fits ih => exact ⟨fits, ih⟩

theorem extends_append {R : Event → Prop} {es : List Event} (h : ∀ e ∈ es, R e)
    (fits : ∀ e since, R e → (∀ x ∈ since, R x) → P e (since ++ j)) : Extends P j (es ++ j) := by
  induction es with
  | nil => exact .refl
  | cons e es ih =>
    obtain ⟨he, h⟩ := List.forall_mem_cons.mp h
    exact (ih h).note e (fits e es he h)

end

end Journal

open Journal

namespace Setting

variable {x y : Setting σ}

/-! ### Asking the advisors -/

theorem mute_submitAll (x : Setting σ) (ss : List Submission) :
    Grows Event.Mute x (x.submitAll ss) :=
  (grows_submitAll x ss).mono fun _ => Event.mute_of_entered

theorem mute_poll (number : Nat) (g : Gates) (i : Nat) (o : Option GateOutcome) (x : Setting σ) :
    Grows Event.Mute x (Advisor.poll number g i o x).2.2 := by
  obtain ⟨y, -, -, polls, same⟩ := poll_cases number g i o x
  rw [same]
  exact (polls.mono fun _ => Event.mute_of_poll).trans (mute_submitAll y _)

theorem mute_pollAll (number : Nat) (polls : List (Nat × Option GateOutcome)) (g : Gates)
    (x : Setting σ) : Grows Event.Mute x (Advisor.pollAll number polls g x).2 := by
  unfold Advisor.pollAll
  induction polls generalizing g x with
  | nil => exact grows_refl x
  | cons p polls ih => exact (mute_poll number g p.1 p.2 x).trans (ih _ _)

theorem mute_pollGates (number i : Nat) (o : Option GateOutcome) (as : List Advisor)
    (x : Setting σ) : Grows Event.Mute x (Allocator.pollGates number i o as x).2.2 := by
  obtain same | ⟨n, g, same⟩ := pollGates_cases number i o as x <;> rw [same]
  · exact grows_refl x
  · exact mute_poll n g i o x

theorem name_pollAll (number : Nat) (polls : List (Nat × Option GateOutcome)) (g : Gates)
    (x : Setting σ) : (Advisor.pollAll number polls g x).1.name = g.name := by
  unfold Advisor.pollAll
  induction polls generalizing g x with
  | nil => rfl
  | cons p polls ih =>
    obtain ⟨y, -, -, -, same⟩ := poll_cases number g p.1 p.2 x
    show (List.foldl _ (Advisor.poll number g p.1 p.2 x).2 polls).1.name = g.name
    rw [same, ih, Gates.name_poll]

/-- An advisor that is asked makes one entry of its own, with its answer. -/
theorem ask_between (W : World σ) (h : Hook) (c : ClientId) (rs : ResourceSet) (a : Advisor)
    (x : Setting σ) :
    ∃ y, Grows Event.Mute x y ∧
      Grows Event.Mute (y.note (.advised a.tag h c rs (Advisor.ask W h c rs a x).1))
        (Advisor.ask W h c rs a x).2.2 := by
  cases a with
  | zones z => exact ⟨x, grows_refl x, grows_refl _⟩
  | outside number name => exact ⟨_, grows_of_journal rfl, mute_submitAll _ _⟩
  | gates number g =>
    dsimp only [Advisor.ask, Advisor.askGates, Advisor.tag]
    have named := g.name_ask h c rs
    generalize g.ask h c rs = asked at named ⊢
    obtain ⟨answer, started, g'⟩ := asked
    have polled (polls : List (Nat × Option GateOutcome)) {z : Setting σ}
        (before : Grows Event.Mute x z) : ∃ y, Grows Event.Mute x y ∧
          Grows Event.Mute (y.note (.advised (.gates g.name) h c rs answer))
            ((Advisor.pollAll number polls g' z).2.note
              (.advised (.gates (Advisor.pollAll number polls g' z).1.name) h c rs answer)) := by
      refine ⟨_, before.trans (mute_pollAll number polls g' z), ?_⟩
      rw [name_pollAll, show g'.name = g.name from named]
      exact grows_refl _
    refine polled _ ?_
    cases started with
    | false => exact grows_of_journal rfl
    | true => exact (grows_note ⟨rfl, rfl⟩ x).trans (grows_of_journal rfl)

theorem ask_poses (W : World σ) (h : Hook) (c : ClientId) (rs : ResourceSet) (a : Advisor)
    (x : Setting σ) :
    ∃ es : List Event, (Advisor.ask W h c rs a x).2.2.journal = es ++ x.journal ∧
      (∀ e ∈ es, e.Poses h c rs) ∧
      verdicts es = [(a.tag, (Advisor.ask W h c rs a x).1.approves)] := by
  obtain ⟨y, ⟨before, muteBefore, hy⟩, after, muteAfter, journal⟩ := ask_between W h c rs a x
  refine ⟨after ++ .advised a.tag h c rs (Advisor.ask W h c rs a x).1 :: before, ?_, ?_, ?_⟩
  · rw [journal, journal_note, hy, List.append_assoc, List.cons_append]
  · intro e he
    rcases List.mem_append.mp he with he | he
    · exact (muteAfter e he).poses h c rs
    · rcases List.mem_cons.mp he with rfl | he
      · exact ⟨rfl, fun q asked => (Option.some.inj asked).symm⟩
      · exact (muteBefore e he).poses h c rs
  · rw [List.append_cons, verdicts_append, verdicts_append, verdicts_mute muteAfter,
      verdicts_mute muteBefore]
    rfl

/-- Advisors that approve together have all been asked, and have approved one by one. -/
theorem consult_poses (W : World σ) (h : Hook) (c : ClientId) (rs : ResourceSet)
    (as : List Advisor) (x : Setting σ) :
    ∃ es : List Event,
      (Chain.consult (Advisor.ask W h c rs) as x).2.2.journal = es ++ x.journal ∧
      (∀ e ∈ es, e.Poses h c rs) ∧
      ((Chain.consult (Advisor.ask W h c rs) as x).1 = true →
        verdicts es = as.map fun a => (a.tag, true)) := by
  induction as generalizing x with
  | nil => exact ⟨[], rfl, by simp, fun _ => rfl⟩
  | cons a as ih =>
    obtain ⟨es, journal, poses, verdict⟩ := ask_poses W h c rs a x
    unfold Chain.consult
    dsimp only
    split
    · rename_i approved
      obtain ⟨fs, further, posesToo, verdictsToo⟩ := ih (Advisor.ask W h c rs a x).2.2
      refine ⟨fs ++ es, ?_, fun e he => ?_, fun all => ?_⟩
      · rw [further, journal, List.append_assoc]
      · exact (List.mem_append.mp he).elim (posesToo e) (poses e)
      · rw [verdicts_append, verdict, verdictsToo all, approved]
        rfl
    · exact ⟨es, journal, poses, fun no => by cases no⟩

theorem notify_poses (W : World σ) (h : Hook) (c : ClientId) (rs : ResourceSet)
    (as : List Advisor) (x : Setting σ) :
    Grows (Event.Poses h c rs) x (Chain.notify (Advisor.ask W h c rs) as x).2 := by
  induction as generalizing x with
  | nil => exact grows_refl x
  | cons a as ih =>
    obtain ⟨es, journal, poses, -⟩ := ask_poses W h c rs a x
    exact Grows.trans ⟨es, poses, journal⟩ (ih _)

end Setting

/-! ### Tentative grants -/

namespace Docket

variable {d e : Docket} {q : Queued} {rest : Queue}

theorem Conserved.nodup_pending (h : d.Conserved) (regular : d.Regular) : d.pending.Nodup := by
  refine List.Nodup.of_map (·.request) (List.nodup_iff_count_le_one.mpr fun r => ?_)
  have total := h r
  have once := List.nodup_iff_count_le_one.mp regular.nodup_entered r.queued
  unfold unsettled at total
  omega

/-- The journal shows which grants are tentative. -/
structure Shown (d : Docket) : Prop where
  conserved : d.Conserved
  pending : d.pending = d.journal.pending

theorem Shown.act (act : Act W d e) (sound : d.Sound) (h : d.Shown) : e.Shown := by
  refine ⟨h.conserved.act act sound, ?_⟩
  have shown := h.pending
  cases act with
  | remark x remark => exact shown.trans (Event.tentative_of_remark remark _).symm
  | enter | crash | defer | retry | report | dismiss | notify | forgo => exact shown
  | @lock g table => exact congrArg (· ++ [g]) shown
  | withdraw q c =>
    refine shown.trans (pending_append (fun x hx gs => ?_) d.journal).symm
    obtain ⟨r, rfl⟩ := Books.mem_withdrawals hx
    rfl
  | stop => rfl
  | @call before g after reply unasked ready =>
    have split : d.pending = before ++ g :: after := ready.split
    -- The entry names the grant, not its place: no other grant is the same.
    have nodup := h.conserved.nodup_pending sound.regular
    rw [split, List.nodup_middle, List.nodup_cons] at nodup
    have others : (before ++ after).filter (· ≠ g) = before ++ after := by
      refine List.filter_eq_self.mpr fun k hk => ?_
      have other : k ≠ g := fun same => nodup.1 (same ▸ hk)
      simpa using other
    show before ++ after = (Journal.pending d.journal).filter (· ≠ g)
    rw [← shown, split, ← others]
    simp
  | strip c rs cause =>
    show d.pending.filter _ = Journal.pending (_ ++ .freed c _ cause :: d.journal)
    rw [pending_cancelled]
    show _ = (Journal.pending d.journal).filter _
    rw [← shown]
    refine List.filter_congr fun g hg => ?_
    simp [Books.orphans, List.mem_filter, hg]

theorem Shown.take (next : Next d q rest) (h : d.Shown) : (d.take q rest).Shown :=
  ⟨h.conserved.take next, h.pending⟩

end Docket

namespace Allocator

open Docket

variable {s t : Allocator σ}

/-! ### What is due -/

/-- The next command of `s` is a request of `c`, which is expanded; `j` is the journal then. -/
def Expands (W : World σ) (s : Allocator σ) (c : ClientId) (expanded : ResourceSet)
    (j : Journal) : Prop :=
  ∃ q rest client requested, s.phase = .running ∧ s.setting.queue.take? = some (q, rest) ∧
    q.command = .allocate client requested ∧ client.id = c ∧
    ((s.accept q rest).expand W requested).1 = some expanded ∧
    j = .expanding requested :: .took q :: s.setting.journal

/-- An advisor may be asked this while `s` serves its next command; `j` is the journal then. Leave
is asked for what a request lacks. The preparation of that is asked for as soon as all advisors have
given leave for it, one after the other. -/
def Due (W : World σ) (s : Allocator σ) : Hook → ClientId → ResourceSet → Journal → Prop
  | .may, c, rs, j => ∃ expanded opened since, s.Expands W c expanded opened ∧
      j.Lacks c expanded rs ∧ (∀ e ∈ since, e.Poses .may c rs) ∧ j = since ++ opened
  | .prepare, c, rs, j => ∃ expanded opened asked since, s.Expands W c expanded opened ∧
      j.Lacks c expanded rs ∧ (∀ e ∈ asked, e.Poses .may c rs) ∧
      verdicts asked = s.advisors.map (fun a => (a.tag, true)) ∧
      (∀ e ∈ since, e.Poses .prepare c rs) ∧
      j = since ++ .consulted .may c rs true :: (asked ++ opened)
  | .complete, c, rs, j => j.Awaited c rs
  | .released, _, _, _ => True

/-- If advisors are asked anything, it is due. -/
def Proper (W : World σ) (s : Allocator σ) (e : Event) (j : Journal) : Prop :=
  ∀ h c rs, e.question? = some (h, c, rs) → s.Due W h c rs j

theorem proper_of_silent {e : Event} (silent : e.Silent) (j : Journal) : s.Proper W e j := by
  intro h c rs asked
  obtain rfl := silent h c rs asked
  trivial

theorem extends_of_silent {x y : Setting σ} (grows : x.Grows Event.Silent y) :
    Extends (s.Proper W) x.journal y.journal := by
  obtain ⟨es, silent, journal⟩ := grows
  rw [journal]
  exact extends_append silent fun e since silent _ => proper_of_silent silent _

/-- A question is proper if it stays due while the advisors are asked. -/
theorem extends_question {u : Allocator σ} {h : Hook} {c : ClientId} {rs : ResourceSet}
    (due : ∀ since : List Event, (∀ e ∈ since, e.Poses h c rs) →
      s.Due W h c rs (since ++ u.setting.journal)) :
    Extends (s.Proper W) u.setting.journal (u.question W h c rs).2.setting.journal := by
  obtain ⟨es, journal, poses, -⟩ := Setting.consult_poses W h c rs u.advisors u.setting
  show Extends _ _ (_ :: Setting.journal _)
  rw [journal]
  refine .note (extends_append poses fun e since asks poses h' c' rs' asked => ?_) _ ?_
  · cases asks.2 _ asked
    exact due since poses
  · intro h' c' rs' asked
    cases asked
    exact due es poses

/-! ### Operations that ask for nothing -/

theorem silent_record (W : World σ) (d : Decision) (c : ClientId) (rs : ResourceSet)
    (detail : Option String) (s : Allocator σ) :
    s.setting.Grows Event.Silent (s.record W d c rs detail).setting := by
  unfold record recordEvent
  dsimp only
  split
  · exact ⟨[.decided d c rs detail], by simp [Event.Silent, Event.question?], rfl⟩
  · exact ⟨[.decided d c rs detail], by simp [Event.Silent, Event.question?], rfl⟩
  · exact ⟨[.audited _, .decided d c rs detail], by simp [Event.Silent, Event.question?], rfl⟩

theorem silent_followUp (cs : List Command) (s : Allocator σ) :
    s.setting.Grows Event.Silent (s.followUp cs).setting := by
  unfold followUp
  split
  · exact (Setting.mute_submitAll _ _).mono fun _ => Event.silent_of_mute
  · exact Setting.grows_refl _

theorem silent_announce (W : World σ) (c : ClientId) (rs : ResourceSet) (s : Allocator σ) :
    s.setting.Grows Event.Silent (s.announce W c rs).setting := by
  have told := (Setting.notify_poses W .released c rs s.advisors s.setting).mono
    fun _ => Event.silent_of_poses
  refine told.trans (Setting.grows_note ?_ _)
  intro h d xs asked
  cases asked
  rfl

theorem silent_call (W : World σ) (g : Grant) (s : Allocator σ) :
    s.setting.Grows Event.Silent (s.call W g).2.setting := by
  have called : s.setting.Grows Event.Silent
      (({ s.setting with world := (W.call g.request.client g.requested s.setting.world).2.2 } :
        Setting σ).note (.called g (s.call W g).1)) :=
    ⟨[_], by simp [Event.Silent, Event.question?], rfl⟩
  exact called.trans ((Setting.mute_submitAll _ _).mono fun _ => Event.silent_of_mute)

theorem silent_noteAll (es : List Event) (h : ∀ e ∈ es, e.question? = none) (s : Allocator σ) :
    s.setting.Grows Event.Silent (s.noteAll es).setting :=
  ⟨es.reverse, fun e he => Event.silent_of_none (h e (List.mem_reverse.mp he)),
    congrArg Books.journal (journal_noteAll es s)⟩

theorem silent_strip (c : ClientId) (rs : ResourceSet) (cause : FreeCause) (s : Allocator σ) :
    s.setting.Grows Event.Silent ((s.take c rs cause).2.cancelOrphaned c).setting := by
  have freed : s.setting.Grows Event.Silent (s.take c rs cause).2.setting :=
    Setting.grows_note (Event.silent_of_none rfl) s.setting
  refine freed.trans (silent_noteAll _ (fun e he => ?_) _)
  obtain ⟨g, -, rfl⟩ := List.mem_map.mp he
  rfl

theorem silent_announceFreed (W : World σ) (c : ClientId) (freed : ResourceSet)
    (s : Allocator σ) : s.setting.Grows Event.Silent (s.announceFreed W c freed).setting := by
  unfold announceFreed
  split
  · exact Setting.grows_refl _
  · exact silent_announce W c freed s

theorem silent_refuseGrant (W : World σ) (g : Grant) (s : Allocator σ) :
    s.setting.Grows Event.Silent (s.refuseGrant W g).setting := by
  let freed := s.table.heldOf g.client g.expanded
  have stripped := silent_strip g.client g.expanded .refused (s.count .addRefusal)
  have told := stripped.trans ((silent_announceFreed W g.client freed _).trans
    (silent_record W .refuse g.client g.requested (some (refusalDetail freed)) _))
  unfold refuseGrant
  dsimp only
  split
  · exact told
  · exact told.trans (silent_followUp _ _)

theorem silent_deliver (W : World σ) (g : Grant) (s : Allocator σ) :
    s.setting.Grows Event.Silent (s.deliver W g).setting := by
  have called := silent_call W g s
  unfold deliver
  rcases answer : s.call W g with ⟨reply, u⟩
  rw [answer] at called
  cases reply with
  | accept => exact called.trans (silent_record W .grant g.client g.requested none _)
  | refuse => exact called.trans (silent_refuseGrant W g u)
  | breakOff => exact called.trans (silent_refuseGrant W g u)

theorem silent_withdraw (W : World σ) (c : ClientId) (s : Allocator σ) :
    s.setting.Grows Event.Silent (s.withdraw W c).setting := by
  let left := { s with deferred := s.deferred.filter fun r => !(r.client.id == c) }
  have dropped := silent_noteAll ((s.deferred.filter (·.client.id == c)).map .withdrawn)
    (fun e he => by
      obtain ⟨r, -, rfl⟩ := List.mem_map.mp he
      rfl) left
  unfold withdraw
  dsimp only
  split
  · exact dropped
  · exact dropped.trans (silent_record W _ _ _ _ _)

theorem silent_lock (W : World σ) (c : ClientId) (claimed : ResourceSet) (s : Allocator σ) :
    s.setting.Grows Event.Silent (s.lock W c claimed).2.setting := by
  unfold lock
  split
  · exact Setting.grows_refl _
  · exact silent_announce W c claimed _

/-! ### Requests -/

theorem extends_claim {u : Allocator σ} {c : ClientId} {expanded claimed : ResourceSet}
    (opened : s.Expands W c expanded u.setting.journal)
    (lacks : u.setting.journal.Lacks c expanded claimed) (advisors : u.advisors = s.advisors) :
    Extends (s.Proper W) u.setting.journal (u.claim W c claimed).2.setting.journal := by
  have may : Extends (s.Proper W) u.setting.journal
      (u.question W .may c claimed).2.setting.journal :=
    extends_question fun since poses => ⟨expanded, _, since, opened, lacks.since poses, poses, rfl⟩
  obtain ⟨asked, journal, poses, verdict⟩ :=
    Setting.consult_poses W .may c claimed u.advisors u.setting
  unfold claim
  rcases answer : u.question W .may c claimed with ⟨allowed, v⟩
  rw [answer] at may
  cases allowed with
  | false => exact may
  | true =>
    have given : (Chain.consult (Advisor.ask W .may c claimed) u.advisors u.setting).1 = true :=
      congrArg Prod.fst answer
    have same : v.setting.journal =
        .consulted .may c claimed true :: (asked ++ u.setting.journal) := by
      rw [← journal, ← given]
      exact (congrArg (·.2.setting.journal) answer).symm
    -- Nobody got hold of anything while leave was asked for.
    have lacking : v.setting.journal.Lacks c expanded claimed := by
      have kept := lacks.since poses
      rw [same]
      exact ⟨kept.nonempty, kept.missing, kept.free⟩
    have prepare : Extends (s.Proper W) v.setting.journal
        (v.question W .prepare c claimed).2.setting.journal :=
      extends_question fun since posed => by
        refine ⟨expanded, _, asked, since, opened, lacking.since posed, poses, ?_, posed, ?_⟩
        · rw [verdict given, advisors]
        · rw [same]
    dsimp only
    rcases answer : v.question W .prepare c claimed with ⟨prepared, x⟩
    rw [answer] at prepare
    cases prepared with
    | false => exact (may.trans prepare).trans (extends_of_silent (silent_announce W c claimed x))
    | true => exact (may.trans prepare).trans (extends_of_silent (silent_lock W c claimed x))

theorem extends_tryAllocate {q : Queued} {rest : Queue} {client : Client}
    {requested : ResourceSet} (running : s.phase = .running)
    (next : s.setting.queue.take? = some (q, rest))
    (command : q.command = .allocate client requested)
    (ledger : ∀ r, s.table.holder r = s.setting.journal.holder r) :
    Extends (s.Proper W) (s.accept q rest).setting.journal
      ((s.accept q rest).tryAllocate W client.id requested).2.setting.journal := by
  have expanding : Extends (s.Proper W) (s.accept q rest).setting.journal
      ((s.accept q rest).expand W requested).2.setting.journal :=
    .note .refl _ (proper_of_silent (Event.silent_of_none rfl) _)
  unfold tryAllocate
  rcases expand : (s.accept q rest).expand W requested with ⟨found, u⟩
  rw [expand] at expanding
  have journal : u.setting.journal = .expanding requested :: .took q :: s.setting.journal :=
    (congrArg (·.2.setting.journal) expand).symm
  have table : u.table = s.table := (congrArg (·.2.table) expand).symm
  have advisors : u.advisors = s.advisors := (congrArg (·.2.advisors) expand).symm
  cases found with
  | none => exact expanding
  | some expanded =>
    dsimp only
    split
    · rename_i available
      split
      · exact expanding
      · rename_i something
        have opened : s.Expands W client.id expanded u.setting.journal :=
          ⟨q, rest, client, requested, running, next, command, rfl, congrArg Prod.fst expand,
            journal⟩
        have holder (r : ResourceId) : u.setting.journal.holder r = u.table.holder r := by
          rw [journal, table, ledger]
          rfl
        have missing (r : ResourceId) : r ∈ u.unclaimed client.id expanded ↔
            r ∈ expanded ∧ u.table.holder r ≠ some client.id := by
          simp [unclaimed]
        have lacks :
            u.setting.journal.Lacks client.id expanded (u.unclaimed client.id expanded) := by
          refine ⟨fun nothing => something (ResourceSet.isEmpty_iff.mpr nothing), fun r => ?_,
            fun r hr => ?_⟩
          · rw [holder]
            exact missing r
          · obtain ⟨covered, other⟩ := (missing r).mp hr
            rw [holder]
            exact (Table.isAvailableFor_iff.mp available r covered).resolve_right other
        have claimed := extends_claim opened lacks advisors
        rcases claim : u.claim W client.id (u.unclaimed client.id expanded) with ⟨locked, v⟩
        rw [claim] at claimed
        cases locked <;> exact expanding.trans claimed
    · exact expanding

/-! ### Tentative grants -/

/-- What the journal shows of an allocator that is about to look at its tentative grants. -/
structure Reliable (d : Docket) : Prop where
  sound : d.Sound
  shown : d.Shown

theorem Reliable.act {d e : Docket} (act : Act W d e) (h : Reliable d) : Reliable e :=
  ⟨h.sound.act act, h.shown.act act h.sound⟩

theorem Reliable.acts {d e : Docket} (acts : Acts W d e) (h : Reliable d) : Reliable e :=
  acts_invariant Reliable.act acts h

theorem extends_isReady {u : Allocator σ} {k : Nat} {before after : List Grant} {g : Grant}
    (reliable : Reliable (u.docket none k)) (split : u.pending = before ++ g :: after) :
    Extends (s.Proper W) u.setting.journal (u.isReady W before g).2.setting.journal := by
  have order : u.books.InOrder := reliable.sound.inOrder
  have shown : u.pending = u.setting.journal.pending := reliable.shown.pending
  have waits : g ∈ u.pending := by simp [split]
  unfold isReady
  split
  · exact .refl
  · rename_i free
    split
    · exact .refl
    · rename_i something
      have awaited : u.setting.journal.Awaited g.client g.claimed := by
        refine ⟨fun nothing => something (ResourceSet.isEmpty_iff.mpr nothing), fun r hr => ?_,
          before, g, after, shown.symm.trans split, rfl, rfl, fun k hk same r hr => ?_⟩
        · exact (order.ledger r).symm.trans (order.covered g waits r (order.claims g waits r hr))
        · have apart : r ∉ g.expanded := fun both => free (List.any_eq_true.mpr ⟨k, hk, by
            simp [Grant.holdsBack, same, ResourceSet.meets_iff.mpr ⟨r, hr, both⟩]⟩)
          exact ⟨apart, fun claimed => apart (order.claims g waits r claimed)⟩
      exact extends_question fun since poses => awaited.since poses

theorem extends_deliveries {u v : Allocator σ} {k : Nat} (reliable : Reliable (u.docket none k))
    (h : Deliveries W u v) : Extends (s.Proper W) u.setting.journal v.setting.journal := by
  induction h with
  | refl => exact .refl
  | @tail x y looked delivery ih =>
    refine ih.trans ?_
    have known : Reliable (x.docket none k) := reliable.acts (Deliveries.acts looked)
    cases delivery with
    | wait before g after _ running split unready =>
      have asked := extends_isReady (s := s) (W := W) known split
      rwa [unready] at asked
    | deliver before g after z running split ready =>
      have asked := extends_isReady (s := s) (W := W) known split
      rw [ready] at asked
      have called := silent_deliver W g { z with pending := before ++ after }
      exact asked.trans (extends_of_silent called)

theorem extends_free {u : Allocator σ} (c : ClientId) (rs : ResourceSet)
    (reliable : Reliable (u.docket none 0)) (running : u.phase = .running) :
    Extends (s.Proper W) u.setting.journal (u.free W c rs).setting.journal := by
  let freed := u.table.heldOf c rs
  let stripped := (u.take c rs .asked).2.cancelOrphaned c
  have strip := act_strip (W := W) (k := 0) c rs .asked (s := u) (i := none)
    (by simp [Unasked, docket]) running
  have taken : Extends (s.Proper W) u.setting.journal stripped.setting.journal :=
    extends_of_silent (silent_strip c rs .asked u)
  have released := taken.trans
    (extends_deliveries (reliable.act strip) (releaseBlocked_deliveries W c stripped))
  obtain ⟨-, quiet⟩ | ⟨-, -, told⟩ := afterFree_cases W c freed (u.take c rs .asked).2
  · rw [show u.free W c rs = stripped.releaseBlocked W c from quiet]
    exact released
  · rw [show u.free W c rs = _ from told]
    have recorded := silent_record W .free c freed none
      ((stripped.releaseBlocked W c).count .addFree)
    exact released.trans (extends_of_silent (recorded.trans (silent_followUp _ _)))

/-! ### Histories -/

theorem extends_allocate {q : Queued} {rest : Queue} {client : Client} {requested : ResourceSet}
    (running : s.phase = .running) (next : s.setting.queue.take? = some (q, rest))
    (command : q.command = .allocate client requested) (reliable : Reliable (s.docket none 0)) :
    Extends (s.Proper W) (s.accept q rest).setting.journal
      ((s.accept q rest).allocate W ⟨client, requested, q.priority, q.seq⟩).setting.journal := by
  let r : Request := ⟨client, requested, q.priority, q.seq⟩
  have hand : q = r.queued := by
    cases q
    cases command
    rfl
  have took : Reliable ((s.accept q rest).docket (some r.queued) 0) :=
    ⟨hand ▸ reliable.sound.take ⟨running, rfl, rfl, next⟩,
      hand ▸ reliable.shown.take ⟨running, rfl, rfl, next⟩⟩
  have tried := extends_tryAllocate (W := W) running next command reliable.sound.inOrder.ledger
  unfold allocate
  rcases h : (s.accept q rest).tryAllocate W client.id requested with ⟨_ | ⟨expanded, claimed⟩, t⟩
  · rw [h] at tried
    have deferred : t.setting.Grows Event.Silent (t.defer W r).setting :=
      (Setting.grows_note (Event.silent_of_none rfl) t.setting).trans
        (silent_record W .defer client.id requested none _)
    exact tried.trans (extends_of_silent deferred)
  · rw [h] at tried
    let g : Grant := ⟨r, expanded, claimed⟩
    have lock := acts_lock (g := g) (t := t) (k := 0) (s := s.accept q rest) running h
    have known := took.acts lock
    have phase := phase_tryAllocate W client.id requested (s.accept q rest)
    rw [h] at phase
    have locked : Extends (s.Proper W) t.setting.journal (.locked g :: t.setting.journal) :=
      .note .refl _ (proper_of_silent (Event.silent_of_none rfl) _)
    refine (tried.trans locked).trans (extends_deliveries known ?_)
    exact completeIfPrepared_deliveries W _ (phase.trans running)

theorem extends_process {q : Queued} {rest : Queue} (running : s.phase = .running)
    (next : s.setting.queue.take? = some (q, rest)) (reliable : Reliable (s.docket none 0)) :
    Extends (s.Proper W) (s.accept q rest).setting.journal
      ((s.accept q rest).process W q).setting.journal := by
  have took : Reliable ((s.accept q rest).docket (some q) 0) :=
    ⟨reliable.sound.take ⟨running, rfl, rfl, next⟩, reliable.shown.take ⟨running, rfl, rfl, next⟩⟩
  have dismissed (other : ∀ c rs, q.command ≠ .allocate c rs) (retry : q.command ≠ .retryDeferred) :
      Reliable ((s.accept q rest).docket none 0) :=
    took.act (W := W) (act_dismiss other fun e => absurd e retry)
  have noted {e : Event} (none : e.question? = none) (x : Setting σ) :
      Extends (s.Proper W) x.journal (e :: x.journal) :=
    .note .refl _ (proper_of_silent (Event.silent_of_none none) _)
  unfold process
  cases command : q.command with
  | allocate client requested => exact extends_allocate running next command reliable
  | released c rs => exact extends_of_silent (silent_announce W c rs _)
  | checkPrepared c rs =>
    exact extends_deliveries (dismissed (by simp [command]) (by simp [command]))
      (checkPrepared_deliveries W c rs running)
  | retryDeferred =>
    dsimp only
    unfold retryDeferred
    split
    · exact .refl
    · exact noted rfl _
  | free c rs => exact extends_free c rs (dismissed (by simp [command]) (by simp [command])) running
  | freeAll c => exact extends_free c _ (dismissed (by simp [command]) (by simp [command])) running
  | withdraw c => exact extends_of_silent (silent_withdraw W c _)
  | snapshot => exact noted rfl _
  | shutdown => exact noted rfl _

theorem extends_step (reliable : Reliable (s.docket none 0)) :
    Extends (s.Proper W) s.setting.journal (s.step W).setting.journal := by
  obtain idle | ⟨running, q, rest, next, served⟩ := step_cases W s
  · rw [idle]
    exact .refl
  · rw [served]
    have took : Extends (s.Proper W) s.setting.journal (s.accept q rest).setting.journal :=
      .note .refl _ (proper_of_silent (Event.silent_of_none rfl) _)
    exact took.trans (extends_process running next reliable)

/-- The question of an entry, if it is one, was due in a step of the history. -/
def Asked (W : World σ) (s : Allocator σ) (hs : List (Happening σ)) (e : Event) (j : Journal) :
    Prop :=
  ∀ h c rs, e.question? = some (h, c, rs) →
    ∃ ks ls, hs = ks ++ .step :: ls ∧ (s.run W ks).Due W h c rs j

theorem run_asked (W : World σ) (advisors : List Advisor) (sink : AuditSink) (w : σ)
    (hs : List (Happening σ)) :
    Reliable (((initial advisors sink w).run W hs).docket none 0) ∧
      Always (Asked W (initial advisors sink w) hs)
        ((initial advisors sink w).run W hs).setting.journal := by
  have reliable (ks : List (Happening σ)) :
      Reliable (((initial advisors sink w).run W ks).docket none 0) := by
    obtain ⟨sound, shown⟩ := run_holds (P := Docket.Shown) (fun act sound h => h.act act sound)
      (fun next _ h => h.take next) advisors sink w ks ⟨fun _ => rfl, rfl⟩
    exact ⟨sound, shown⟩
  refine ⟨reliable hs, ?_⟩
  induction hs using List.reverseRecOn with
  | nil => trivial
  | append_singleton ks h ih =>
    let s := (initial advisors sink w).run W ks
    -- What was due in an earlier step was due in a step of the longer history.
    have kept : Always (Asked W (initial advisors sink w) (ks ++ [h])) s.setting.journal := by
      refine ih.imp fun e j asked hook c rs question => ?_
      obtain ⟨as, bs, rfl, due⟩ := asked hook c rs question
      exact ⟨as, bs ++ [h], by simp, due⟩
    have mute {x : Setting σ} (grows : s.setting.Grows Event.Mute x) :
        Always (Asked W (initial advisors sink w) (ks ++ [h])) x.journal := by
      obtain ⟨es, mute, journal⟩ := grows
      rw [journal]
      refine always_append (fun e he j hook c rs question => ?_) kept
      cases (mute e he).2.symm.trans question
    rw [run_append]
    show Always _ (s.apply W h).setting.journal
    cases h with
    | submit x =>
      exact mute ((Setting.grows_submit s.setting x).mono fun _ => Event.mute_of_entered)
    | poll number task o => exact mute (Setting.mute_pollGates number task o s.advisors s.setting)
    | shift w => exact kept
    | step =>
      refine Extends.always (Extends.imp (extends_step (reliable ks)) ?_) kept
      exact fun e j proper hook c rs question => ⟨ks, [], rfl, proper hook c rs question⟩

/-- Every question that is asked of an advisor, or of all of them together, is asked while a command
is served, and is due then. Here the entries before the question show who holds what, as the table
does, and which grants are tentative. -/
theorem advisors_asked_when_due (W : World σ) (advisors : List Advisor) (sink : AuditSink) (w : σ)
    (hs : List (Happening σ)) :
    let state := fun ks => (initial advisors sink w).run W ks
    let j := (state hs).setting.journal
    (∀ r, (state hs).table.holder r = j.holder r) ∧ (state hs).pending = j.pending ∧
    ∀ later e earlier h c rs, j = later ++ e :: earlier → e.question? = some (h, c, rs) →
      ∃ ks ls, hs = ks ++ .step :: ls ∧ (state ks).Due W h c rs earlier := by
  intro state j
  obtain ⟨reliable, asked⟩ := run_asked W advisors sink w hs
  refine ⟨reliable.sound.inOrder.ledger, reliable.shown.pending,
    fun later e earlier h c rs split question => ?_⟩
  have entry : Asked W (initial advisors sink w) hs e earlier :=
    always_split (split ▸ asked : Always (Asked W _ hs) (later ++ e :: earlier))
  exact entry h c rs question

/-- Somebody who has one resource and asks for two gets the advisors asked about the other only. -/
example :
    let s := (initial [.outside 0 "site"] .nowhere 0).run (.steady .yes)
      [asking "x" ["a"], .step, asking "x" ["a", "b"], .step]
    s.setting.journal.reverse.filterMap Event.question? =
      ([⟨"a"⟩, ⟨"b"⟩] : List ResourceId).flatMap fun r =>
        ([.may, .may, .prepare, .prepare, .complete, .complete] : List Hook).map
          (·, ⟨"x"⟩, .ofList [r]) := by
  decide +kernel

end Allocator

end Allotment
