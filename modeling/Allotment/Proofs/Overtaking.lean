import Allotment.Proofs.Precedence
import Allotment.Proofs.Wakeups

/-!
# When a waiting request is overtaken

What is freed can be had at once, but who waits for it is tried again only when the retry that
follows is served. A younger request that is already in the queue by then gets in between
(`overtaken_before_retry`). Without advisors, and if all priorities are equal, this is the only way
in which a waiting request is overtaken (`overtaken_only_before_retry`).
-/

namespace Allotment

variable {σ : Type} {W : World σ} {E : ResourceSet → ResourceSet}

/-- Since some entry was made that freed what is to be locked for the request, these entries were
made, and it has not been tried again. -/
structure Journal.Vacated (E : ResourceSet → ResourceSet) (r : Request) (since : List Event)
    (j : Journal) : Prop where
  freed : ∃ x ∈ E r.resources, ∃ e earlier, j = since ++ e :: earlier ∧ e.frees x = true
  untaken : .took r.queued ∉ since

theorem Journal.Vacated.append {r : Request} {since : List Event} {j : Journal} (es : List Event)
    (untaken : .took r.queued ∉ es) (h : Vacated E r since j) :
    Vacated E r (es ++ since) (es ++ j) := by
  obtain ⟨⟨x, hx, e, earlier, rfl, frees⟩, waits⟩ := h
  refine ⟨⟨x, hx, e, earlier, by simp, frees⟩, fun took => ?_⟩
  exact (List.mem_append.mp took).elim untaken waits

namespace Docket

open Journal

variable {d e : Docket} {q : Queued} {rest : Queue}

/-! ### Why a request waits -/

/-- A retry that is in one of the entries waits in the queue. -/
def Announced (d : Docket) (since : List Event) : Prop :=
  ∃ p ∈ d.queue.waiting, p.command = .retryDeferred ∧ p.priority = .normal ∧ .entered p ∈ since

/-- No retry is on the way but those in the queue. -/
structure Settled (d : Docket) : Prop where
  running : d.phase = .running
  told : d.owed = 0
  hand : ∀ q, d.hand = some q → q.command ≠ .retryDeferred

structure Excused (E : ResourceSet → ResourceSet) (d : Docket) : Prop where
  alone : d.advisors = 0
  excuse : ∀ r ∈ d.deferred, Hindered E d.table r ∨
    ∃ since, Vacated E r since d.journal ∧ (d.Settled → d.Announced since)

/-- A resource stays with its holder until it is freed, for which a retry is owed. -/
theorem Act.held_or_freed (act : Act W d e) {x : ResourceId} {c : ClientId}
    (held : d.table.holder x = some c) :
    e.table.holder x = some c ∨ e.owed = d.owed + 1 ∧ ∃ since f,
      e.journal = since ++ f :: d.journal ∧ f.frees x = true ∧ ∀ q, .took q ∉ since := by
  cases act with
  | @lock g table hand lockable =>
    refine .inl ((lockable.holders x).trans ?_)
    split
    · rename_i claimed
      cases (lockable.free claimed).symm.trans held
    · exact held
  | strip a rs cause =>
    by_cases lost : x ∈ rs ∧ d.table.holder x = some a
    · have something : x ∈ d.table.heldOf a rs := Table.mem_heldOf.mpr lost
      refine .inr ⟨if_neg fun nothing => ?_, _, _, rfl, decide_eq_true something, fun q took => ?_⟩
      · rw [ResourceSet.isEmpty_iff.mp nothing] at something
        exact ResourceSet.not_mem_empty x something
      · obtain ⟨g, -, same⟩ := List.mem_map.mp (List.mem_reverse.mp took)
        cases same
    · exact .inl ((Books.holder_strip x).trans ((if_neg lost).trans held))
  | _ => exact .inl held

/-- While a request goes on waiting, a retry comes in or those in the queue stay. -/
theorem Act.announces (act : Act W d e) (sound : d.Sound) {r : Request} (before : r ∈ d.deferred)
    (after : r ∈ e.deferred) (settled : e.Settled) :
    (∃ p ∈ e.queue.waiting, p.command = .retryDeferred ∧ p.priority = .normal ∧
      e.journal = .entered p :: d.journal) ∨
    d.Settled ∧ ∀ p ∈ d.queue.waiting, p ∈ e.queue.waiting := by
  obtain ⟨running, told, hand⟩ := settled
  have asked {k : Request} (hk : d.hand = some k.queued) (q : Queued) (hq : d.hand = some q) :
      q.command ≠ .retryDeferred := by
    cases Option.some.inj (hk.symm.trans hq)
    simp [Request.queued]
  cases act with
  | enter x =>
    refine .inr ⟨⟨running, told, hand⟩, fun p hp => ?_⟩
    exact (Queue.waiting_enter ..).mem_iff.mpr (List.mem_cons_of_mem _ hp)
  | crash | stop => cases running
  | lock handed => exact .inr ⟨⟨running, told, asked handed⟩, fun _ => id⟩
  | defer k handed => exact .inr ⟨⟨running, told, asked handed⟩, fun _ => id⟩
  | retry => cases after
  | dismiss q handed unasked moot =>
    refine .inr ⟨⟨running, told, fun p hp retry => ?_⟩, fun _ => id⟩
    cases Option.some.inj (handed.symm.trans hp)
    rw [moot retry] at before
    cases before
  | strip c rs cause =>
    refine .inr ⟨⟨running, ?_, hand⟩, fun _ => id⟩
    have still : (if (d.table.heldOf c rs).isEmpty then d.owed else d.owed + 1) = 0 := told
    split at still
    · exact still
    · cases still
  | notify k =>
    exact .inl ⟨_, (Queue.waiting_enter ..).mem_iff.mpr List.mem_cons_self, rfl, rfl, rfl⟩
  | forgo k owed silent => exact absurd (silent running) (by simp [sound.regular.opened running])
  | remark | withdraw | report | call => exact .inr ⟨⟨running, told, hand⟩, fun _ => id⟩

namespace Excused

theorem act (pure : ∀ rs w, (W.expand rs w).1 = some (E rs)) (act : Act W d e) (sound : d.Sound)
    (h : d.Excused E) : e.Excused E := by
  refine ⟨act.advisors.trans h.alone, fun r hr => ?_⟩
  obtain before | ⟨same, objected⟩ := act.deferred r hr
  · obtain ⟨x, hx, c, held, other⟩ | ⟨since, given, announced⟩ := h.excuse r before
    · obtain held | ⟨owed, since, f, split, frees, untaken⟩ := act.held_or_freed held
      · exact .inl ⟨x, hx, c, held, other⟩
      · refine .inr ⟨since, ⟨⟨x, hx, f, _, split, frees⟩, untaken _⟩, fun settled => ?_⟩
        cases owed.symm.trans settled.told
    · obtain ⟨es, untaken, journal⟩ := act.untaken
      rw [journal]
      refine .inr ⟨es ++ since, given.append es fun took => untaken _ took _ rfl, fun settled => ?_⟩
      obtain ⟨p, waits, retry, normal, entered⟩ | ⟨settled, stays⟩ :=
        act.announces sound before hr settled
      · have entry : es = [.entered p] :=
          List.append_cancel_right (journal.symm.trans entered)
        exact ⟨p, waits, retry, normal, entry ▸ List.mem_cons_self⟩
      · obtain ⟨p, waits, retry, normal, entered⟩ := announced settled
        exact ⟨p, stays p waits, retry, normal, List.mem_append_right es entered⟩
  · rw [h.alone] at objected
    exact .inl (same ▸ hindered_of_objected pure objected)

theorem take (next : Next d q rest) (sound : d.Sound) (h : d.Excused E) :
    (d.take q rest).Excused E := by
  refine ⟨h.alone, fun r hr => (h.excuse r hr).imp_right ?_⟩
  rintro ⟨since, given, announced⟩
  have perm := (Queue.waiting_of_take? next.next).1
  have line : r.queued ∈ d.line := List.mem_append_left _ (List.mem_map_of_mem hr)
  have other : q ≠ r.queued := (List.nodup_append.mp sound.regular.nodup_circulating).2.2 q
    (perm.mem_iff.mpr List.mem_cons_self) r.queued line
  refine ⟨.took q :: since, given.append [.took q] (by simpa using other.symm), fun settled => ?_⟩
  obtain ⟨p, waits, retry, normal, entered⟩ :=
    announced ⟨next.running, next.told, by simp [next.idle]⟩
  refine ⟨p, ?_, retry, normal, List.mem_cons_of_mem _ entered⟩
  rcases List.mem_cons.mp (perm.mem_iff.mp waits) with rfl | waits
  · exact absurd retry (settled.hand p rfl)
  · exact waits

end Excused

/-! ### Who is granted -/

theorem Act.locked (act : Act W d e) : ∃ es : Journal, e.journal = es ++ d.journal ∧
    ∀ g, .locked g ∈ es → d.hand = some g.request.queued := by
  cases act with
  | @lock g table hand =>
    refine ⟨[.locked g], rfl, fun k hk => ?_⟩
    cases List.mem_singleton.mp hk
    exact hand
  | remark x remark =>
    refine ⟨[x], rfl, fun g hg => ?_⟩
    cases List.mem_singleton.mp hg
    cases remark
  | withdraw q c =>
    refine ⟨d.withdrawals c, rfl, fun g hg => ?_⟩
    obtain ⟨r, same⟩ := Books.mem_withdrawals hg
    cases same
  | strip c rs cause =>
    refine ⟨d.losses c rs cause, Books.journal_strip, fun g hg => ?_⟩
    obtain ⟨k, -, same⟩ | same := Books.mem_losses.mp hg <;> cases same
  | crash | dismiss | forgo => exact ⟨[], rfl, by simp⟩
  | enter | defer | retry | report | stop | call | notify => exact ⟨[_], rfl, by simp⟩

theorem acts_locked (acts : Acts W d e) : ∃ es : Journal, e.journal = es ++ d.journal ∧
    (∀ g, .locked g ∈ es → d.hand = some g.request.queued) ∧
    (e.hand = none ∨ e.hand = d.hand) := by
  induction acts with
  | refl => exact ⟨[], rfl, by simp, .inr rfl⟩
  | tail _ act ih =>
    obtain ⟨es, journal, locked, hand⟩ := ih
    obtain ⟨fs, further, locking⟩ := act.locked
    refine ⟨fs ++ es, by rw [further, journal, List.append_assoc], fun g hg => ?_, ?_⟩
    · rcases List.mem_append.mp hg with hg | hg
      · exact hand.elim (fun none => by cases none.symm.trans (locking g hg))
          fun same => same.symm.trans (locking g hg)
      · exact locked g hg
    · exact act.hand.elim .inl fun same => hand.imp same.trans same.trans

end Docket

namespace Allocator

open Journal

variable {s : Allocator σ} {g : Grant} {r : Request}

/-- Only a request that has just been taken is granted. -/
theorem took_of_locked (h : Happening σ) {es : Journal}
    (journal : (s.apply W h).setting.journal = es ++ s.setting.journal) (locked : .locked g ∈ es) :
    s.phase = .running ∧ ∃ rest, s.setting.queue.take? = some (g.request.queued, rest) := by
  have idle {t : Allocator σ} (acts : Docket.Acts W (s.docket none 0) (t.docket none 0))
      (same : t.setting.journal = es ++ s.setting.journal) : False := by
    obtain ⟨fs, written, hand, -⟩ := Docket.acts_locked acts
    obtain rfl : fs = es := List.append_cancel_right (written.symm.trans same)
    cases hand g locked
  cases h with
  | submit x => exact (idle (acts_submit W x s) journal).elim
  | poll number task o => exact (idle (acts_poll W number task o s) journal).elim
  | shift w =>
    exact (idle (t := { s with setting := { s.setting with world := w } }) .refl journal).elim
  | step =>
    have journal : (s.step W).setting.journal = es ++ s.setting.journal := journal
    obtain same | ⟨running, q, rest, next, served⟩ := step_cases W s
    · exact (idle .refl (by rw [← journal, same])).elim
    · have acts : Docket.Acts W ((s.docket none 0).take q rest)
          (((s.accept q rest).process W q).docket none 0) := acts_served running
      obtain ⟨fs, written, hand, -⟩ := Docket.acts_locked acts
      have written : ((s.accept q rest).process W q).setting.journal =
          (fs ++ [.took q]) ++ s.setting.journal := by
        rw [List.append_assoc]
        exact written
      have same : fs ++ [.took q] = es :=
        List.append_cancel_right (written.symm.trans (served ▸ journal))
      rw [← same] at locked
      have hand := hand g ((List.mem_append.mp locked).resolve_right (by simp))
      obtain rfl : q = g.request.queued := Option.some.inj hand
      exact ⟨running, rest, next⟩

theorem run_excused (pure : ∀ rs w, (W.expand rs w).1 = some (E rs)) (sink : AuditSink) (w : σ)
    (hs : List (Happening σ)) : (((initial [] sink w).run W hs).docket none 0).Excused E :=
  (run_holds (Docket.Excused.act pure) Docket.Excused.take [] sink w hs
    ⟨rfl, fun r hr => by cases hr⟩).2

/-- From `s` to `t` a younger request is granted what a waiting one of another client is to have as
well, although all that this one is to have was free or its client's own. -/
structure Overtakes (E : ResourceSet → ResourceSet) (s t : Allocator σ) (g : Grant) (r : Request) :
    Prop where
  locked : ∃ es : Journal, t.setting.journal = es ++ s.setting.journal ∧ .locked g ∈ es
  waits : r ∈ s.deferred
  other : r.client.id ≠ g.client
  older : r.seq < g.request.seq
  meets : ∃ x ∈ E r.resources, x ∈ g.claimed
  free : ∀ x ∈ E r.resources,
    s.table.holder x = none ∨ s.table.holder x = some r.client.id

/-- What is given up goes to a request that was in the queue before the retry, past an older one. -/
theorem overtaken_before_retry :
    let a : ResourceSet := .ofList [⟨"a"⟩]
    let y : Request := ⟨⟨⟨"y"⟩, "y"⟩, a, .normal, 1⟩
    let g : Grant := ⟨⟨⟨⟨"z"⟩, "z"⟩, a, .normal, 3⟩, a, a⟩
    let s := (initial [] .nowhere 0).run (World.steady .yes) [asking "x" ["a"], .step,
      asking "y" ["a"], .step, freeing "x" ["a"], asking "z" ["a"], .step]
    let t := s.step (World.steady .yes)
    (∀ p ∈ t.setting.journal.entered, p.priority = .normal) ∧ Overtakes id s t g y := by
  intro a y g s t
  have locked : ∃ es : Journal, t.setting.journal = es ++ s.setting.journal ∧ .locked g ∈ es :=
    ⟨t.setting.journal.take 8, by decide +kernel, by decide +kernel⟩
  exact ⟨by decide +kernel, locked, by decide +kernel, by decide, by decide, by decide +kernel,
    by decide +kernel⟩

/-- If all commands have the same priority, no advisor objects and the expander always answers the
same, a waiting request that could be granted is overtaken only by one that was in the queue before
a retry that is still to come: something of what the older one is to have has been freed since it
was tried last, and this retry was submitted after that. -/
theorem overtaken_only_before_retry (pure : ∀ rs w, (W.expand rs w).1 = some (E rs))
    (sink : AuditSink) (w : σ) (hs : List (Happening σ))
    (normal : ∀ p, .entered p ∈ ((initial [] sink w).run W hs).setting.journal →
      p.priority = .normal) (h : Happening σ)
    (overtakes : Overtakes E ((initial [] sink w).run W hs)
      (((initial [] sink w).run W hs).apply W h) g r) :
    let s := (initial [] sink w).run W hs
    ∃ since, Vacated E r since s.setting.journal ∧
      ∃ p ∈ s.setting.queue.waiting, p.command = .retryDeferred ∧ .entered p ∈ since ∧
        g.request.seq < p.seq := by
  intro s
  obtain ⟨es, journal, locked⟩ := overtakes.locked
  obtain ⟨running, rest, next⟩ := took_of_locked h journal locked
  have regular : (s.docket none 0).Regular :=
    (run_holds (P := fun _ => True) (fun _ _ => id) (fun _ _ => id) [] sink w hs trivial).1.regular
  have first : Docket.Next (s.docket none 0) g.request.queued rest := ⟨running, rfl, rfl, next⟩
  have issued {q : Queued} (hq : q ∈ s.setting.queue.waiting) : q.priority = .normal :=
    normal q (mem_entered.mp (regular.issued.subset (List.mem_append_left _ hq)))
  obtain ⟨x, hx, c, held, other⟩ | ⟨since, given, announced⟩ :=
    (run_excused pure sink w hs).excuse r overtakes.waits
  · have own := (overtakes.free x hx).resolve_left fun free => by cases held.symm.trans free
    exact absurd (Option.some.inj (held.symm.trans own)) other
  · obtain ⟨p, waits, retry, -, entered⟩ := announced ⟨running, rfl, fun q hq => by cases hq⟩
    refine ⟨since, given, p, waits, retry, entered, ?_⟩
    have perm := (Queue.waiting_of_take? next).1
    have behind : p ∈ rest.waiting := by
      refine (List.mem_cons.mp (perm.mem_iff.mp waits)).resolve_left ?_
      rintro rfl
      cases retry
    refine first.precedes regular p behind ((issued ?_).trans (issued waits).symm)
    exact perm.mem_iff.mpr List.mem_cons_self

/-- The retry that follows the release was submitted after the request that goes ahead. -/
theorem overtaken_before_its_retry :
    let a : ResourceSet := .ofList [⟨"a"⟩]
    let y : Request := ⟨⟨⟨"y"⟩, "y"⟩, a, .normal, 1⟩
    let g : Grant := ⟨⟨⟨⟨"z"⟩, "z"⟩, a, .normal, 3⟩, a, a⟩
    let s := (initial [] .nowhere 0).run (World.steady .yes) [asking "x" ["a"], .step,
      asking "y" ["a"], .step, freeing "x" ["a"], asking "z" ["a"], .step]
    Overtakes id s (s.step (World.steady .yes)) g y ∧
      ∃ since, Vacated id y since s.setting.journal ∧
        ∃ p ∈ s.setting.queue.waiting, p.command = .retryDeferred ∧ .entered p ∈ since ∧
          3 < p.seq := by
  intro a y g s
  have overtakes : Overtakes id s (s.step (World.steady .yes)) g y := by
    refine ⟨⟨(s.step (World.steady .yes)).setting.journal.take 8, ?_, ?_⟩, ?_, ?_, ?_, ?_, ?_⟩ <;>
      decide +kernel
  have normal : ∀ p ∈ s.setting.journal.entered, p.priority = .normal := by decide +kernel
  exact ⟨overtakes, overtaken_only_before_retry (fun _ _ => rfl) .nowhere 0 _
    (fun p hp => normal p (mem_entered.mpr hp)) .step overtakes⟩

end Allocator

end Allotment
