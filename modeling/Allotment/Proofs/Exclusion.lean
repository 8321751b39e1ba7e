import Allotment.Proofs.Holding
import Allotment.Proofs.Occupancy

/-!
# One client to a zone

Whatever is held inside a zone is tracked by it, unless its holder has been said to have released it
since it was locked (`Watch`). A zone admits nobody over what it tracks, so it is shared only past a
resource that was given up in this way.
-/

namespace Allotment

/-- All that is held in the zone is held by one client. -/
def Zone.Exclusive (a : Zone) (j : Journal) : Prop :=
  ∀ r ∈ a.members, ∀ x ∈ a.members, ∀ c d, j.holder r = some c → j.holder x = some d → c = d

namespace Journal

/-- Since `r` was locked, the advisors have been told that `c` released it. -/
def GivenUp (j : Journal) (r : ResourceId) (c : ClientId) : Prop :=
  ∃ q rs, .took q ∈ j.sinceLock r ∧ q.command = .released c rs ∧ r ∈ rs

theorem GivenUp.grow {es : List Event} {j : Journal} {r : ResourceId} {c : ClientId}
    (h : j.GivenUp r c) (locks : ∀ e ∈ es, e.locks r = false) : GivenUp (es ++ j) r c := by
  obtain ⟨q, rs, took, command, hr⟩ := h
  refine ⟨q, rs, ?_, command, hr⟩
  rw [sinceLock_append locks]
  exact List.mem_append_right _ took

/-- Nothing is locked in a zone next to what another client holds there, unless that was given
up. -/
def Respects (zs : List Zone) : Event → Journal → Prop
  | .locked g, j => ∀ a ∈ zs, (∃ x ∈ g.claimed, x ∈ a.members) → ∀ r ∈ a.members, ∀ d,
      d ≠ g.client → j.holder r = some d → j.GivenUp r d
  | _, _ => True

theorem respects_of_idle {zs : List Zone} {e : Event} (h : ∀ r, e.locks r = false) (j : Journal) :
    Respects zs e j := by
  cases e with
  | locked g =>
    rintro a - ⟨x, hx, -⟩
    exact absurd (h x) (by simp [Event.locks, hx])
  | _ => trivial

/-- A lock in an exclusive zone leaves it exclusive if nobody else holds anything there. -/
theorem exclusive_locked {a : Zone} {g : Grant} {j : Journal} (h : a.Exclusive j)
    (alone : (∃ x ∈ g.claimed, x ∈ a.members) → ∀ r ∈ a.members, ∀ d, j.holder r = some d →
      d = g.client) : a.Exclusive (.locked g :: j) := by
  have owner (touched : ∃ x ∈ g.claimed, x ∈ a.members) (r : ResourceId) (hr : r ∈ a.members)
      (d : ClientId) (held : Journal.holder (.locked g :: j) r = some d) : d = g.client := by
    rw [holder_cons, Event.holds] at held
    split at held
    · exact (Option.some.inj held).symm
    · exact alone touched r hr d held
  intro r hr x hx c d hc hd
  by_cases touched : ∃ x ∈ g.claimed, x ∈ a.members
  · exact (owner touched r hr c hc).trans (owner touched x hx d hd).symm
  · have unclaimed (y : ResourceId) (hy : y ∈ a.members) : y ∉ g.claimed :=
      fun claimed => touched ⟨y, claimed, hy⟩
    rw [holder_cons, Event.holds, if_neg (unclaimed r hr)] at hc
    rw [holder_cons, Event.holds, if_neg (unclaimed x hx)] at hd
    exact h r hr x hx c d hc hd

theorem exclusive_freed {a : Zone} {c : ClientId} {rs : ResourceSet} {cause : FreeCause}
    {j : Journal} (h : a.Exclusive j) : a.Exclusive (.freed c rs cause :: j) := by
  have before (r : ResourceId) (d : ClientId)
      (held : Journal.holder (.freed c rs cause :: j) r = some d) : j.holder r = some d := by
    rw [holder_cons, Event.holds] at held
    split at held
    · cases held
    · exact held
  exact fun r hr x hx d f hd hf => h r hr x hx d f (before r d hd) (before x f hf)

/-- Zones are exclusive throughout if and only if none is entered next to what another client was
said to have released and holds. -/
theorem exclusive_iff {zs : List Zone} {j : Journal} (lawful : Always Lawful j)
    (respects : Always (Respects zs) j) :
    (∀ later earlier, j = later ++ earlier → ∀ a ∈ zs, a.Exclusive earlier) ↔
    ∀ later g earlier, j = later ++ .locked g :: earlier → ∀ a ∈ zs,
      (∃ x ∈ g.claimed, x ∈ a.members) → ∀ r ∈ a.members, ∀ d, d ≠ g.client →
      Journal.holder earlier r = some d → ¬ GivenUp earlier r d := by
  constructor
  · rintro exclusive later g earlier rfl a ha ⟨x, claimed, hx⟩ r hr d other held
    have free := (always_split lawful : Lawful (.locked g) earlier)
    have unclaimed : r ∉ g.claimed := fun hc => by
      have none := free r hc
      rw [held] at none
      cases none
    refine absurd (exclusive later _ rfl a ha r hr x hx d g.client ?_ ?_) other
    · rw [holder_cons, Event.holds, if_neg unclaimed, held]
    · rw [holder_cons, Event.holds, if_pos claimed]
  · intro kept later earlier split a ha
    induction earlier generalizing later with
    | nil => intro r _ x _ c d hc; cases hc
    | cons e earlier ih =>
      have before := ih (later ++ [e]) (by simp [split])
      cases e with
      | locked g =>
        refine exclusive_locked before fun touched r hr d held => ?_
        refine Classical.byContradiction fun other => ?_
        have respected : Respects zs (.locked g) earlier :=
          always_split (split ▸ respects : Always (Respects zs) (later ++ .locked g :: earlier))
        have given : GivenUp earlier r d := respected a ha touched r hr d other held
        exact kept later g earlier split a ha touched r hr d other held given
      | freed c rs cause => exact exclusive_freed before
      | _ => exact before

end Journal

namespace Books

open Journal

variable {b b' : Books}

/-- Nothing is locked from the one to the other. -/
structure Unlocking (b b' : Books) : Prop where
  held : ∀ r c, b'.table.holder r = some c → b.table.holder r = some c
  entries : ∃ es : List Event, (∀ e ∈ es, ∀ r, e.locks r = false) ∧ b'.journal = es ++ b.journal

theorem unlocking_refl (b : Books) : Unlocking b b := ⟨fun _ _ h => h, [], by simp, rfl⟩

theorem unlocking_write {es : List Event} (still : ∀ e ∈ es, e.isStill = true) (b : Books) :
    Unlocking b (b.write es) :=
  ⟨fun _ _ h => h, es, fun e he => Event.locks_of_still (still e he), rfl⟩

theorem unlocking_of_still {e : Event} (still : e.isStill = true) (table : b'.table = b.table)
    (journal : b'.journal = e :: b.journal) : Unlocking b b' :=
  ⟨fun _ _ h => table ▸ h, [e], by simpa using Event.locks_of_still still, journal⟩

theorem unlocking_strip (c : ClientId) (rs : ResourceSet) (cause : FreeCause) (b : Books) :
    Unlocking b (b.strip c rs cause) :=
  ⟨fun _ _ h => held_of_strip h, _, fun _ he => locks_losses he, journal_strip⟩

end Books

namespace Allocator

open Journal Books

variable {σ : Type} {W : World σ} {s t : Allocator σ} {zs : List Zone} {z y : Zones}

theorem WritesQuietly.unlocking (h : WritesQuietly s t) : Unlocking s.books t.books := by
  obtain ⟨es, he, ht⟩ := h
  exact ht ▸ unlocking_write (fun e m => Event.still_of_quiet (he e m)) s.books

theorem unlocking_record (W : World σ) (d : Decision) (c : ClientId) (rs : ResourceSet)
    (detail : Option String) (s : Allocator σ) :
    Unlocking s.books (s.record W d c rs detail).books := by
  obtain ⟨es, phase, quiet, -, same⟩ := books_record W d c rs detail s
  rw [same]
  exact ⟨fun _ _ h => h, es,
    fun e he => Event.locks_of_still (Event.still_of_quiet (quiet e he)), rfl⟩

theorem advisors_record (W : World σ) (d : Decision) (c : ClientId) (rs : ResourceSet)
    (detail : Option String) (s : Allocator σ) :
    (s.record W d c rs detail).advisors = s.advisors := by
  unfold record recordEvent
  dsimp only
  split <;> rfl

theorem advisors_followUp (cs : List Command) (s : Allocator σ) :
    (s.followUp cs).advisors = s.advisors := by
  unfold followUp
  split <;> rfl

theorem advisors_noteAll (es : List Event) (s : Allocator σ) :
    (s.noteAll es).advisors = s.advisors := by
  induction es generalizing s with
  | nil => rfl
  | cons e es ih => exact ih (s.note e)

/-! ### What zones see of a run -/

theorem GivenUp.across {r : ResourceId} {c : ClientId} (h : s.setting.journal.GivenUp r c)
    (unlocking : Unlocking s.books t.books) : t.setting.journal.GivenUp r c := by
  obtain ⟨-, es, he, hj⟩ := unlocking
  have journal : t.setting.journal = es ++ s.setting.journal := hj
  rw [journal]
  exact h.grow fun e m => he e m r

/-- The zones know of everything that is held in them, but for what was given up. -/
structure Watch (zs : List Zone) (z : Zones) (s : Allocator σ) : Prop where
  present : .zones z ∈ s.advisors
  guards : z.zones = zs
  tracked : ∀ a ∈ zs, ∀ r ∈ a.members, ∀ c, s.table.holder r = some c →
    s.setting.journal.GivenUp r c ∨ z.Tracks a.name c r
  respects : Always (Respects zs) s.setting.journal

/-- Zones may forget what is not held any more, or given up. -/
theorem Watch.grow (h : s.Watch zs z) (unlocking : Unlocking s.books t.books)
    (present : .zones y ∈ t.advisors) (guards : y.zones = zs)
    (kept : ∀ name r c, t.table.holder r = some c → z.Tracks name c r →
      t.setting.journal.GivenUp r c ∨ y.Tracks name c r) : t.Watch zs y := by
  refine ⟨present, guards, fun a ha r hr c hc => ?_, ?_⟩
  · rcases h.tracked a ha r hr c (unlocking.held r c hc) with given | tracks
    · exact .inl (GivenUp.across given unlocking)
    · exact kept a.name r c hc tracks
  · obtain ⟨es, he, hj⟩ := unlocking.entries
    have journal : t.setting.journal = es ++ s.setting.journal := hj
    rw [journal]
    exact always_append (fun e m => respects_of_idle (he e m)) h.respects

/-- Nobody has asked the advisors. -/
theorem Watch.frame (h : s.Watch zs z) (unlocking : Unlocking s.books t.books)
    (advisors : t.advisors = s.advisors) : t.Watch zs z :=
  h.grow unlocking (advisors ▸ h.present) h.guards fun _ _ _ _ tracks => .inr tracks

/-! ### Asking the zones -/

theorem unlocking_question (W : World σ) (hook : Hook) (c : ClientId) (rs : ResourceSet)
    (s : Allocator σ) : Unlocking s.books (s.question W hook c rs).2.books := by
  obtain ⟨es, he, hb⟩ := books_question W hook c rs s
  rw [hb]
  refine unlocking_write (List.forall_mem_cons.mpr ⟨rfl, fun e m => ?_⟩) _
  exact Event.still_of_quiet (Event.quiet_of_background (he e m))

/-- Only a preparation and a release change what zones know. -/
theorem Watch.question (h : s.Watch zs z) {hook : Hook} (idle : hook = .may ∨ hook = .complete)
    (c : ClientId) (rs : ResourceSet) :
    (s.question W hook c rs).2.Watch zs z ∧
      ((s.question W hook c rs).1 = true → (z.ask hook c rs).1.approves = true) := by
  obtain ⟨y, present, either, approved⟩ :=
    Chain.consult_zones W hook c rs h.present s.setting
  have same : (z.ask hook c rs).2 = z := by rcases idle with rfl | rfl <;> rfl
  have unchanged : y = z := either.elim id fun e => e.trans same
  subst unchanged
  exact ⟨h.grow (unlocking_question W hook c rs s) present h.guards fun _ _ _ _ tracks =>
    .inr tracks, fun yes => (approved yes).2⟩

theorem Watch.prepare (h : s.Watch zs z) (c : ClientId) (rs : ResourceSet) :
    ∃ y, (s.question W .prepare c rs).2.Watch zs y ∧
      ((s.question W .prepare c rs).1 = true →
        ∀ a ∈ zs, ∀ r ∈ a.members, r ∈ rs → y.Tracks a.name c r) := by
  obtain ⟨y, present, either, approved⟩ :=
    Chain.consult_zones W .prepare c rs h.present s.setting
  obtain ⟨kept, entered⟩ := Zones.tracks_prepare z c rs
  have guards : y.zones = zs := by
    rcases either with rfl | rfl
    · exact h.guards
    · exact (Zones.zones_ask z .prepare c rs).trans h.guards
  refine ⟨y, h.grow (unlocking_question W .prepare c rs s) present guards
    fun name r d _ tracks => .inr ?_, fun yes => ?_⟩
  · rcases either with rfl | rfl
    · exact tracks
    · exact kept name d r tracks
  · obtain ⟨rfl, approves⟩ := approved yes
    exact h.guards ▸ entered approves

/-- A release of what nobody holds, or what counts as given up, takes nothing from the zones that
they must know. -/
theorem Watch.announce (h : s.Watch zs z) {c : ClientId} {rs : ResourceSet}
    (gone : ∀ r ∈ rs, s.table.holder r = some c → s.setting.journal.GivenUp r c) :
    (s.announce W c rs).Watch zs (z.released c rs) := by
  have quiet := writes_announce W c rs s
  have same : (s.announce W c rs).table = s.table := quiet.table
  refine h.grow quiet.unlocking (Chain.notify_zones W c rs h.present s.setting) h.guards
    fun name r d held tracks => ?_
  rw [same] at held
  by_cases own : d = c ∧ r ∈ rs
  · obtain ⟨rfl, hr⟩ := own
    exact .inl (GivenUp.across (gone r hr held) quiet.unlocking)
  · refine .inr (tracks.released ?_)
    by_cases same : d = c
    · exact .inr fun hr => own ⟨same, hr⟩
    · exact .inl same

/-! ### Allocating -/

/-- What zones say of a claim that succeeds: its client is in, and alone but for what was given
up. -/
structure Entered (zs : List Zone) (z : Zones) (c : ClientId) (claimed : ResourceSet)
    (s : Allocator σ) : Prop where
  tracked : ∀ a ∈ zs, ∀ r ∈ a.members, r ∈ claimed → z.Tracks a.name c r
  alone : ∀ a ∈ zs, (∃ x ∈ claimed, x ∈ a.members) → ∀ r ∈ a.members, ∀ d, d ≠ c →
    s.table.holder r = some d → s.setting.journal.GivenUp r d

theorem Watch.claim (h : s.Watch zs z) {c : ClientId} {claimed : ResourceSet} {locked : Bool}
    (available : ∀ r ∈ claimed, s.table.holder r = none ∨ s.table.holder r = some c)
    (unheld : ∀ r ∈ claimed, s.table.holder r ≠ some c)
    (result : s.claim W c claimed = (locked, t)) :
    (locked = false ∧ ∃ y, t.Watch zs y) ∨
    (locked = true ∧ ∃ u y table, u.Watch zs y ∧ u.Entered zs y c claimed ∧
      WritesQuietly s u ∧ t = { u with table }) := by
  have may := h.question (W := W) (.inl rfl) c claimed
  rcases claim_cases available result with ⟨rfl, refused⟩ | ⟨u, allowed, rest⟩
  · rw [refused] at may
    exact .inl ⟨rfl, z, may.1⟩
  rw [allowed] at may
  obtain ⟨watch, admits⟩ := may
  have admits : z.mayAllocate c claimed = true := by simpa [Zones.ask] using admits rfl
  obtain ⟨y, prepare, entered⟩ := watch.prepare (W := W) c claimed
  have asked := writes_question allowed (by simp)
  rcases rest with ⟨rfl, v, failed, rfl⟩ | ⟨rfl, v, table, prepared, rfl, -⟩
  · have quiet := asked.trans (writes_question failed (by simp))
    rw [failed] at prepare
    refine .inl ⟨rfl, _, prepare.announce fun r hr held => ?_⟩
    rw [quiet.table] at held
    exact absurd held (unheld r hr)
  · have quiet := writes_question prepared (by simp)
    rw [prepared] at prepare entered
    refine .inr ⟨rfl, v, y, table, prepare, ⟨entered rfl, ?_⟩, asked.trans quiet, rfl⟩
    intro a ha touched r hr d other held
    rw [quiet.table] at held
    -- What the zone tracks of another client would have kept it from admitting this one.
    rcases watch.tracked a ha r hr d held with given | tracks
    · exact GivenUp.across given quiet.unlocking
    · exact absurd (tracks.client_eq admits (watch.guards ▸ ha) touched) other

theorem Watch.tryAllocate_none (h : s.Watch zs z) {c : ClientId} {rs : ResourceSet}
    (failed : s.tryAllocate W c rs = (none, t)) : ∃ y, t.Watch zs y := by
  obtain ⟨u, asks, advisors, ⟨-, rfl⟩ | ⟨expanded, claimed, available, claims, rest⟩⟩ :=
    tryAllocate_cases failed
  · exact ⟨z, h.frame asks.quietly.unlocking advisors⟩
  have quiet := asks.quietly
  have watch := h.frame quiet.unlocking advisors
  rcases rest with granted | ⟨locked, claim, answer⟩
  · cases granted.1
  · have unheld (r : ResourceId) (hr : r ∈ claimed) : u.table.holder r ≠ some c := by
      rw [quiet.table]
      exact ((claims r).mp hr).2
    obtain ⟨-, done⟩ | ⟨rfl, -⟩ :=
      watch.claim (available_of_claimed quiet available claims) unheld claim
    · exact done
    · cases answer

theorem Watch.tryAllocate_some (h : s.Watch zs z) {c : ClientId} {rs expanded claimed : ResourceSet}
    (obtained : s.tryAllocate W c rs = (some (expanded, claimed), t)) :
    ∃ u y table, u.Watch zs y ∧ u.Entered zs y c claimed ∧ WritesQuietly s u ∧
      t = { u with table } := by
  obtain ⟨u, asks, advisors, ⟨none, -⟩ | ⟨expanded, claimed, available, claims, rest⟩⟩ :=
    tryAllocate_cases obtained
  · cases none
  have quiet := asks.quietly
  have watch := h.frame quiet.unlocking advisors
  rcases rest with ⟨answer, rfl, rfl⟩ | ⟨locked, claim, answer⟩
  · cases answer
    refine ⟨t, z, t.table, watch, ⟨fun _ _ _ _ hr => ?_, fun _ _ touched => ?_⟩, quiet, rfl⟩
    · exact absurd hr (ResourceSet.not_mem_empty _)
    · exact absurd touched.choose_spec.1 (ResourceSet.not_mem_empty _)
  · have unheld (r : ResourceId) (hr : r ∈ claimed) : u.table.holder r ≠ some c := by
      rw [quiet.table]
      exact ((claims r).mp hr).2
    obtain ⟨rfl, -⟩ | ⟨rfl, v, y, table, watch, entered, asked, rfl⟩ :=
      watch.claim (available_of_claimed quiet available claims) unheld claim
    · cases answer
    · cases answer
      exact ⟨v, y, table, watch, entered, quiet.trans asked, rfl⟩

theorem Watch.lock (h : s.Watch zs z) (order : s.books.InOrder) {g : Grant} {table : Table}
    (entered : s.Entered zs z g.client g.claimed) (pending : List Grant)
    (holders : ∀ r, table.holder r =
      if r ∈ g.claimed then some g.client else s.table.holder r) :
    (note (.locked g) { s with table, pending }).Watch zs z where
  present := h.present
  guards := h.guards
  tracked a ha r hr c hc := by
    have hc : table.holder r = some c := hc
    rw [holders] at hc
    split at hc
    · rename_i claimed
      exact .inr (Option.some.inj hc ▸ entered.tracked a ha r hr claimed)
    · rename_i unclaimed
      have unlocked : ∀ e ∈ [Event.locked g], e.locks r = false := by
        simp [Event.locks, unclaimed]
      exact (h.tracked a ha r hr c hc).imp_left fun given => given.grow unlocked
  respects := by
    refine ⟨fun a ha touched r hr d other held => ?_, h.respects⟩
    have ledger : s.table.holder r = Journal.holder s.setting.journal r := order.ledger r
    rw [← ledger] at held
    exact entered.alone a ha touched r hr d other held

/-! ### Delivering -/

theorem Watch.isReady (h : s.Watch zs z) (earlier : List Grant) (g : Grant) :
    (s.isReady W earlier g).2.Watch zs z := by
  unfold Allocator.isReady
  split
  · exact h
  · split
    · exact h
    · exact (h.question (.inr rfl) g.client g.claimed).1

theorem unlocking_call (W : World σ) (g : Grant) (s : Allocator σ) :
    Unlocking s.books (s.call W g).2.books := by
  obtain ⟨es, he, hb⟩ := books_call W g s
  rw [hb]
  refine unlocking_write (fun e m => ?_) _
  rcases List.mem_append.mp m with m | m
  · exact Event.still_of_entered (he e m)
  · rw [List.mem_singleton.mp m]
    rfl

theorem Watch.acceptGrant (h : s.Watch zs z) (g : Grant) : (s.acceptGrant W g).Watch zs z :=
  h.frame (unlocking_record W .grant g.client g.requested none (s.count .addGrant))
    (advisors_record W .grant g.client g.requested none (s.count .addGrant))

theorem Watch.refuseGrant (h : s.Watch zs z) (g : Grant) :
    ∃ y, (s.refuseGrant W g).Watch zs y := by
  let stripped :=
    ((s.count .addRefusal).take g.client g.expanded .refused).2.cancelOrphaned g.client
  have books : stripped.books = s.books.strip g.client g.expanded .refused :=
    books_strip g.client g.expanded .refused (s.count .addRefusal)
  have watch : stripped.Watch zs z :=
    h.frame (books ▸ unlocking_strip ..) (advisors_noteAll _ _)
  -- Nothing that the grant covered is held by its client any more.
  have told : ∃ y, (stripped.announceFreed W g.client
      (s.table.heldOf g.client g.expanded)).Watch zs y := by
    unfold announceFreed
    split
    · exact ⟨z, watch⟩
    · refine ⟨_, watch.announce fun r hr held => ?_⟩
      have held : stripped.books.table.holder r = some g.client := held
      rw [books] at held
      exact absurd (Table.mem_heldOf.mp hr).1 (not_stripped held)
  obtain ⟨y, told⟩ := told
  have recorded := told.frame (unlocking_record W .refuse g.client g.requested
    (some (refusalDetail (s.table.heldOf g.client g.expanded))) _) (advisors_record ..)
  refine ⟨y, ?_⟩
  unfold Allocator.refuseGrant
  dsimp only
  split
  · exact recorded
  · exact recorded.frame (writes_followUp _ _).unlocking (advisors_followUp ..)

theorem Watch.deliver (h : s.Watch zs z) (g : Grant) : ∃ y, (s.deliver W g).Watch zs y := by
  have called : (s.call W g).2.Watch zs z := h.frame (unlocking_call W g s) rfl
  unfold Allocator.deliver
  split <;> rename_i t answer <;> rw [answer] at called
  · exact ⟨z, called.acceptGrant g⟩
  · exact called.refuseGrant g
  · exact called.refuseGrant g

/-! ### Every move -/

theorem Watch.accept (h : s.Watch zs z) (q : Queued) (rest : Queue) :
    (s.accept q rest).Watch zs z :=
  h.frame (unlocking_of_still rfl rfl rfl) rfl

theorem Watch.withdraw (h : s.Watch zs z) (c : ClientId) : (s.withdraw W c).Watch zs z := by
  let gone := (s.deferred.filter (·.client.id == c)).map Event.withdrawn
  let dropped := noteAll gone { s with deferred := s.deferred.filter fun r => !(r.client.id == c) }
  have books : dropped.books = { s.books.write (s.books.withdrawals c) with
      deferred := s.deferred.filter fun r => !(r.client.id == c) } := books_drop c s
  have unlocking : Unlocking s.books dropped.books := by
    refine ⟨fun _ _ k => by rwa [books] at k, s.books.withdrawals c, fun e he => ?_,
      congrArg Books.journal books⟩
    obtain ⟨r, rfl⟩ := mem_withdrawals he
    exact fun _ => rfl
  have watch : dropped.Watch zs z := h.frame unlocking (advisors_noteAll _ _)
  unfold Allocator.withdraw
  dsimp only
  split
  · exact watch
  · exact watch.frame (unlocking_record ..) (advisors_record ..)

theorem Move.watch (move : Move W s t) (order : s.books.InOrder) (h : s.Watch zs z) :
    ∃ y, t.Watch zs y := by
  cases move with
  | submit x => exact ⟨z, h.frame (writes_submit x s).unlocking rfl⟩
  | poll number task o =>
    exact ⟨z, h.grow (writes_poll number task o s).unlocking (pollGates_zones h.present s.setting)
      h.guards fun _ _ _ _ tracks => .inr tracks⟩
  | shift w => exact ⟨z, h.frame (unlocking_refl _) rfl⟩
  | serve q rest running next plain => exact ⟨z, h.accept q rest⟩
  | release q rest c rs running next command =>
    refine ⟨_, (h.accept q rest).announce fun r hr _ => ⟨q, rs, ?_, command, hr⟩⟩
    have unlocked : ∀ e ∈ [Event.took q], e.locks r = false := by simp [Event.locks]
    have since := sinceLock_append unlocked s.setting.journal
    exact since ▸ List.mem_cons_self
  | free q rest c rs running next command =>
    refine ⟨z, (h.accept q rest).frame ?_ (advisors_noteAll _ _)⟩
    rw [books_strip]
    exact unlocking_strip ..
  | tell c freed running =>
    have recorded := h.frame (unlocking_record W .free c freed none (s.count .addFree))
      (advisors_record ..)
    exact ⟨z, recorded.frame (writes_followUp _ _).unlocking (advisors_followUp ..)⟩
  | lock g t running obtained =>
    obtain ⟨u, y, table, watch, entered, quiet, rfl⟩ := h.tryAllocate_some obtained
    obtain ⟨_, _, _, same, -, -, holders⟩ := tryAllocate_some obtained
    obtain rfl : table = _ := congrArg Allocator.table same
    have order : u.books.InOrder := by
      obtain ⟨es, he, hb⟩ := quiet
      exact hb ▸ order.write fun e m => Event.still_of_quiet (he e m)
    exact ⟨y, watch.lock order entered _ fun r => by rw [holders, quiet.table]⟩
  | defer r t running failed =>
    obtain ⟨y, watch⟩ := h.tryAllocate_none failed
    have deferred : (note (.deferred r) { t.count .addDeferral with
        deferred := t.deferred ++ [r] }).Watch zs y :=
      watch.frame (unlocking_of_still rfl rfl rfl) rfl
    exact ⟨y, deferred.frame (unlocking_record ..) (advisors_record ..)⟩
  | wait before g after t running split unready =>
    have watch := h.isReady (W := W) before g
    rw [unready] at watch
    exact ⟨z, watch⟩
  | deliver before g after t running split ready =>
    have watch := h.isReady (W := W) before g
    rw [ready] at watch
    have taken : Watch zs z { t with pending := before ++ after } :=
      watch.frame ⟨fun _ _ h => h, [], by simp, rfl⟩ rfl
    exact taken.deliver g
  | retry running =>
    unfold retryDeferred
    split
    · exact ⟨z, h⟩
    · exact ⟨z, h.frame (unlocking_of_still rfl rfl rfl) rfl⟩
  | withdraw c running => exact ⟨z, h.withdraw c⟩
  | report seq running => exact ⟨z, h.frame (unlocking_of_still rfl rfl rfl) rfl⟩
  | stop running => exact ⟨z, h.frame (unlocking_of_still rfl rfl rfl) rfl⟩

theorem initial_watch (before after : List Advisor) (zs : List Zone) (sink : AuditSink) (w : σ) :
    (initial (before ++ .zones ⟨zs, []⟩ :: after) sink w).Watch zs ⟨zs, []⟩ where
  present := by simp [initial]
  guards := rfl
  tracked _ _ _ _ _ held := by cases held
  respects := trivial

theorem run_watch (W : World σ) (before after : List Advisor) (zs : List Zone) (sink : AuditSink)
    (w : σ) (hs : List (Happening σ)) :
    ∃ z, ((initial (before ++ .zones ⟨zs, []⟩ :: after) sink w).run W hs).Watch zs z := by
  have invariant := moves_invariant (W := W)
    (fun {s t} move (h : s.books.InOrder ∧ ∃ z, s.Watch zs z) =>
      (⟨turns_invariant Turn.inOrder move.turns h.1, h.2.elim fun _ watch => move.watch h.1 watch⟩ :
        t.books.InOrder ∧ ∃ z, t.Watch zs z))
    (run_moves W (initial (before ++ .zones ⟨zs, []⟩ :: after) sink w) hs)
    ⟨initial_inOrder, _, initial_watch before after zs sink w⟩
  exact invariant.2

/-- The zones that an advisor guards are exclusive throughout a run if and only if nothing is locked
in one of them next to a resource that another client holds there, and was said to have released
since it was locked. -/
theorem zones_exclusive_iff (W : World σ) (before after : List Advisor) (zs : List Zone)
    (sink : AuditSink) (w : σ) (hs : List (Happening σ)) :
    let s := (initial (before ++ .zones ⟨zs, []⟩ :: after) sink w).run W hs
    let j := s.setting.journal
    (∀ r, s.table.holder r = j.holder r) ∧
    ((∀ later earlier, j = later ++ earlier → ∀ a ∈ zs, a.Exclusive earlier) ↔
      ∀ later g earlier, j = later ++ .locked g :: earlier → ∀ a ∈ zs,
        (∃ x ∈ g.claimed, x ∈ a.members) → ∀ r ∈ a.members, ∀ d, d ≠ g.client →
        Journal.holder earlier r = some d → ¬ GivenUp earlier r d) := by
  obtain ⟨z, watch⟩ := run_watch W before after zs sink w hs
  obtain ⟨order, lawful⟩ := run_lawful W (before ++ .zones ⟨zs, []⟩ :: after) sink w hs
  exact ⟨order.ledger, exclusive_iff lawful watch.respects⟩

/-- A client that asks again for what it gives up gets it before the advisors hear of the release,
and then they let another client in. -/
theorem zone_shared_after_release :
    let s := (initial [.zones ⟨[⟨"hall", .ofList [⟨"h1"⟩, ⟨"h2"⟩]⟩], []⟩] .nowhere 0).run
      (.steady .yes) [asking "x" ["h1"], .step, freeing "x" ["h1"], asking "x" ["h1"], .step, .step,
        .step, asking "y" ["h2"], .step, .step]
    s.phase = .running ∧ s.table.holder ⟨"h1"⟩ = some ⟨"x"⟩ ∧
      s.table.holder ⟨"h2"⟩ = some ⟨"y"⟩ := by
  decide +kernel

end Allocator

end Allotment
