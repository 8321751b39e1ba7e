import Allotment.Proofs.Consultation
import Allotment.Proofs.Holding
import Allotment.Proofs.Readiness
import Allotment.Proofs.Trail
import Allotment.Proofs.Withdrawal

/-!
# Overlapping grants of one client

A grant is made once, and the tentative ones stand in the order in which they were made. A client is
called for one that overlaps none of its earlier ones (`Foremost`), so of two that overlap the first
goes first. A check takes the oldest grant that a set names, and does not miss what is ready by that
(`check_selects`).
-/

namespace Allotment

variable {σ : Type} {W : World σ}

namespace Grant

theorem apart_of_free {k g : Grant} (free : k.holdsBack g = false) (same : k.client = g.client) :
    ∀ r ∈ k.expanded, r ∉ g.expanded := by
  intro r hk hg
  have meets : k.expanded.meets g.expanded = true := ResourceSet.meets_iff.mpr ⟨r, hk, hg⟩
  simp [holdsBack, same, meets] at free

end Grant

theorem Event.mem_tentative {e : Event} {g : Grant} {gs : List Grant} (h : g ∈ e.tentative gs) :
    g ∈ gs ∨ e = .locked g := by
  cases e with
  | locked k =>
    rcases List.mem_append.mp h with h | h
    · exact .inl h
    · exact .inr (congrArg Event.locked (List.mem_singleton.mp h).symm)
  | called k reply | cancelled k => exact .inl (List.mem_filter.mp h).1
  | stopped => cases h
  | _ => exact .inl h

namespace Journal

/-- A client is called for a tentative grant that overlaps none of its earlier ones. -/
def Foremost : Event → Journal → Prop
  | .called g _, j => ∃ before after, j.pending = before ++ g :: after ∧
      ∀ k ∈ before, k.client = g.client → ∀ r ∈ k.expanded, r ∉ g.expanded
  | _, _ => True

theorem foremost_of_uncalled {e : Event} (h : ∀ g reply, e ≠ .called g reply) (j : Journal) :
    Foremost e j := by
  cases e with
  | called g reply => exact absurd rfl (h g reply)
  | _ => trivial

theorem mem_granted {j : Journal} {g : Grant} : g ∈ j.granted ↔ .locked g ∈ j := by
  rw [granted, List.mem_filterMap]
  constructor
  · rintro ⟨e, he, found⟩
    cases e with
    | locked k =>
      cases found
      exact he
    | _ => cases found
  · intro locked
    exact ⟨_, locked, rfl⟩

/-- The tentative grants stand in the order in which they were made. -/
theorem pending_sublist (j : Journal) : j.pending.Sublist j.granted.reverse := by
  induction j with
  | nil => exact .refl _
  | cons e j ih =>
    cases e with
    | locked g =>
      show (pending j ++ [g]).Sublist (g :: granted j).reverse
      rw [List.reverse_cons]
      exact ih.append_right [g]
    | called g reply | cancelled g => exact List.filter_sublist.trans ih
    | stopped => exact List.nil_sublist _
    | _ => exact ih

theorem mem_pending_append {es j : Journal} {g : Grant} (h : g ∈ pending (es ++ j)) :
    g ∈ j.pending ∨ .locked g ∈ es := by
  induction es with
  | nil => exact .inl h
  | cons e es ih =>
    rcases Event.mem_tentative h with h | rfl
    · exact (ih h).imp_right (List.mem_cons_of_mem e)
    · exact .inr List.mem_cons_self

section

variable {later earlier : Journal} {g k : Grant} {reply : Reply} {newer older : List Grant}

/-- What comes later in the list of the grants made is older. -/
theorem older_of_sublist {gs : List Grant} (order : [k, g].Sublist gs) :
    ∃ newer older, gs = newer ++ k :: older ∧ g ∈ older := by
  obtain ⟨front, back, rfl, first, last⟩ := List.cons_sublist_iff.mp order
  obtain ⟨newer, between, rfl⟩ := List.append_of_mem first
  refine ⟨newer, between ++ back, by simp, List.mem_append_right _ ?_⟩
  exact List.singleton_sublist.mp last

theorem granted_once (once : (later ++ earlier).granted.Nodup) : earlier.granted.Nodup := by
  rw [granted_append] at once
  exact (List.nodup_append.mp once).2.1

/-- What was made before a grant that is tentative had been made by then. -/
theorem granted_older (once : (later ++ earlier).granted.Nodup)
    (made : (later ++ earlier).granted = newer ++ k :: older) (tentative : k ∈ earlier.pending) :
    ∃ mid, earlier.granted = mid ++ k :: older := by
  have among : k ∈ earlier.granted :=
    List.mem_reverse.mp ((pending_sublist earlier).subset tentative)
  obtain ⟨mid, rest, parts⟩ := List.append_of_mem among
  rw [granted_append, parts, ← List.append_assoc] at made once
  have fresh := List.nodup_middle.mp once
  rw [List.nodup_cons, List.mem_append, not_or] at fresh
  obtain ⟨-, -, same⟩ := (List.append_cons_inj_of_notMem fresh.1.1 fresh.1.2).mp made
  exact ⟨mid, same ▸ parts⟩

/-- Of the tentative grants an older one stands in front of a younger one. -/
theorem mem_front (once : earlier.granted.Nodup) {mid : List Grant}
    (made : earlier.granted = mid ++ k :: older) {before after : List Grant}
    (split : earlier.pending = before ++ k :: after) (hg : g ∈ older)
    (tentative : g ∈ earlier.pending) : g ∈ before := by
  rw [made] at once
  obtain ⟨-, rest, apart⟩ := List.nodup_append.mp once
  have order := pending_sublist earlier
  rw [made, List.reverse_append, List.reverse_cons, List.append_assoc] at order
  obtain ⟨front, back, parts, first, last⟩ := List.sublist_append_iff.mp order
  have among : g ∈ front := by
    rw [parts] at tentative
    refine (List.mem_append.mp tentative).resolve_right fun m => ?_
    rcases List.mem_append.mp (last.subset m) with m | m
    · obtain rfl := List.mem_singleton.mp m
      exact (List.nodup_cons.mp rest).1 hg
    · exact apart g (List.mem_reverse.mp m) g (List.mem_cons_of_mem k hg) rfl
  have other : k ∉ front := fun m =>
    (List.nodup_cons.mp rest).1 (List.mem_reverse.mp (first.subset m))
  rcases List.append_eq_append_iff.mp (parts.symm.trans split) with
    ⟨gap, rfl, -⟩ | ⟨gap, rfl, beyond⟩
  · exact List.mem_append_left _ among
  · cases gap with
    | nil => exact List.append_nil before ▸ among
    | cons a gap =>
      obtain ⟨rfl, -⟩ := List.cons.inj beyond
      exact absurd (List.mem_append_right _ List.mem_cons_self) other

/-- When a client is called, none of its earlier grants that overlap is tentative any more. -/
theorem settled_before_call (foremost : Always Foremost (later ++ .called k reply :: earlier))
    (once : (later ++ .called k reply :: earlier).granted.Nodup)
    (made : (later ++ .called k reply :: earlier).granted = newer ++ k :: older) (hg : g ∈ older)
    (same : g.client = k.client) (meets : ∃ r ∈ g.expanded, r ∈ k.expanded) :
    g ∉ earlier.pending ∧ .locked g ∈ earlier := by
  obtain ⟨before, after, split, free⟩ : Foremost (.called k reply) earlier := always_split foremost
  have whole : later ++ .called k reply :: earlier = (later ++ [.called k reply]) ++ earlier := by
    simp
  rw [whole] at once made
  obtain ⟨mid, parts⟩ := granted_older once made (by simp [split])
  refine ⟨fun tentative => ?_, mem_granted.mp (by simp [parts, hg])⟩
  obtain ⟨r, hr, both⟩ := meets
  exact free g (mem_front (granted_once once) parts split hg tentative) same r hr both

/-- A grant that has left the tentative ones does not come back. -/
theorem not_pending_append (once : (later ++ earlier).granted.Nodup) (locked : .locked g ∈ earlier)
    (gone : g ∉ earlier.pending) : g ∉ (later ++ earlier).pending := by
  intro back
  rcases mem_pending_append back with there | again
  · exact gone there
  · rw [granted_append] at once
    exact (List.nodup_append.mp once).2.2 g (mem_granted.mpr again) g (mem_granted.mpr locked) rfl

/-- Of two overlapping grants of a client that are both delivered, the older one goes first. -/
theorem called_before (foremost : Always Foremost (later ++ .called k reply :: earlier))
    (once : (later ++ .called k reply :: earlier).granted.Nodup)
    (made : (later ++ .called k reply :: earlier).granted = newer ++ k :: older) (hg : g ∈ older)
    (same : g.client = k.client) (meets : ∃ r ∈ g.expanded, r ∈ k.expanded) {answer : Reply}
    (called : .called g answer ∈ later ++ .called k reply :: earlier) :
    .called g answer ∈ earlier := by
  obtain ⟨gone, locked⟩ := settled_before_call foremost once made hg same meets
  rcases List.mem_append.mp called with called | called
  · obtain ⟨after, mid, rfl⟩ := List.append_of_mem called
    rw [List.append_assoc, List.cons_append] at foremost once
    obtain ⟨front, back, split, -⟩ :
        Foremost (.called g answer) (mid ++ .called k reply :: earlier) := always_split foremost
    have tentative : g ∈ Journal.pending (mid ++ .called k reply :: earlier) := by simp [split]
    have parts : (Journal.granted
        (after ++ [.called g answer] ++ (mid ++ [.called k reply] ++ earlier))).Nodup := by
      simpa using once
    rw [List.append_cons] at tentative
    exact absurd tentative (not_pending_append (granted_once parts) locked gone)
  · refine (List.mem_cons.mp called).resolve_left fun this => ?_
    obtain ⟨rfl, -⟩ := Event.called.inj this
    rw [made] at once
    exact (List.nodup_cons.mp (List.nodup_append.mp once).2.1).1 hg

end

end Journal

namespace Docket

open Journal

variable {d e : Docket} {q : Queued} {rest : Queue}

/-- A grant is made once, and is tentative until it is settled. -/
structure Made (d : Docket) : Prop where
  shown : d.Shown
  once : d.journal.granted.Nodup
  fate : ∀ g ∈ d.journal.granted, g ∈ d.pending ∨ 0 < settlements g.request d.journal
  foremost : Always Foremost d.journal

namespace Made

/-- No grant is made, and those that go are settled. -/
theorem grow (h : d.Made) (shown : e.Shown) (es : Journal) (journal : e.journal = es ++ d.journal)
    (unmade : ∀ g, .locked g ∉ es) (foremost : Always Foremost e.journal)
    (fate : ∀ g ∈ d.pending, g ∈ e.pending ∨ 0 < settlements g.request es) : e.Made := by
  have granted : e.journal.granted = d.journal.granted := by
    rw [journal, granted_append, granted_nil unmade, List.nil_append]
  refine ⟨shown, granted ▸ h.once, fun g hg => ?_, foremost⟩
  rw [journal, settlements_append]
  rcases h.fate g (granted ▸ hg) with tentative | settled
  · exact (fate g tentative).imp_right fun now => by omega
  · exact .inr (by omega)

/-- Nothing that is said of a grant changes. -/
theorem quiet (h : d.Made) (shown : e.Shown) (es : Journal) (journal : e.journal = es ++ d.journal)
    (silent : ∀ x ∈ es, (∀ g, x ≠ .locked g) ∧ ∀ g reply, x ≠ .called g reply)
    (pending : e.pending = d.pending) : e.Made := by
  have unmade : ∀ g, .locked g ∉ es := fun g m => (silent _ m).1 g rfl
  refine h.grow shown es journal unmade ?_ fun g hg => .inl (pending ▸ hg)
  rw [journal]
  exact always_append (fun x hx j => foremost_of_uncalled (silent x hx).2 j) h.foremost

/-- A request that is in hand has not been granted. -/
theorem ungranted (h : d.Made) (regular : d.Regular) {r : Request} (hand : d.hand = some r.queued)
    {g : Grant} (made : g ∈ d.journal.granted) : g.request ≠ r := by
  rintro rfl
  have total := h.shown.conserved g.request
  have once := List.nodup_iff_count_le_one.mp regular.nodup_entered g.request.queued
  have here : 0 < d.hand.toList.count g.request.queued := by simp [hand]
  unfold unsettled at total
  rcases h.fate g made with tentative | settled
  · have there : 0 < (d.pending.map (·.request)).count g.request :=
      List.count_pos_iff.mpr (List.mem_map_of_mem tentative)
    omega
  · omega

theorem act (act : Act W d e) (sound : d.Sound) (h : d.Made) : e.Made := by
  have shown := h.shown.act act sound
  cases act with
  | remark x remark =>
    refine h.quiet shown [x] rfl (fun y hy => ?_) rfl
    obtain rfl := List.mem_singleton.mp hy
    constructor
    · rintro g rfl
      cases remark
    · rintro g reply rfl
      cases remark
  | enter x => exact h.quiet shown [_] rfl (by simp) rfl
  | crash | dismiss | forgo => exact h.quiet shown [] rfl (by simp) rfl
  | @lock g table hand lockable =>
    have fresh : g ∉ d.journal.granted := fun made => h.ungranted sound.regular hand made rfl
    refine ⟨shown, List.nodup_cons.mpr ⟨fresh, h.once⟩, fun k hk => ?_, trivial, h.foremost⟩
    rcases List.mem_cons.mp hk with rfl | hk
    · exact .inl (List.mem_append_right _ (List.mem_singleton_self k))
    · exact (h.fate k hk).imp_left (List.mem_append_left _)
  | defer r => exact h.quiet shown [_] rfl (by simp) rfl
  | retry => exact h.quiet shown [_] rfl (by simp) rfl
  | withdraw q c =>
    refine h.quiet shown (d.withdrawals c) rfl (fun x hx => ?_) rfl
    obtain ⟨r, rfl⟩ := Books.mem_withdrawals hx
    simp
  | report q => exact h.quiet shown [_] rfl (by simp) rfl
  | stop q =>
    refine h.grow shown [_] rfl (by simp) ⟨trivial, h.foremost⟩ fun g hg => .inr ?_
    have discarded : g.request ∈
        settled .discarded [.stopped d.queue.waiting d.deferred d.pending] := by
      have among : g.request ∈ d.pending.map (·.request) := List.mem_map_of_mem hg
      simp [settled, Event.settles, among]
    exact settlements_pos rfl discarded
  | @call before g after reply unasked ready =>
    have split : d.pending = before ++ g :: after := ready.split
    refine h.grow shown [.called g reply] rfl (by simp) ⟨?_, h.foremost⟩ fun k hk => ?_
    · exact ⟨before, after, h.shown.pending.symm.trans split,
        fun k hk same => Grant.apart_of_free (ready.free k hk) same⟩
    · have kept : k ∈ before ++ after ∨ k = g := by
        rw [split] at hk
        simpa [or_assoc, or_comm (a := k = g)] using hk
      refine kept.imp_right ?_
      rintro rfl
      exact settlements_pos (p := .delivered) rfl (List.mem_singleton_self _)
  | strip c rs cause =>
    refine h.grow shown (d.losses c rs cause) Books.journal_strip (fun g m => ?_) ?_ fun g hg => ?_
    · obtain ⟨k, -, same⟩ | same := Books.mem_losses.mp m <;> cases same
    · rw [show (d.strip c rs cause).journal = _ from Books.journal_strip]
      refine always_append (fun x hx j => foremost_of_uncalled (fun k reply => ?_) j) h.foremost
      obtain ⟨k, -, rfl⟩ | rfl := Books.mem_losses.mp hx <;> simp
    · by_cases orphan : g ∈ d.orphans c rs
      · rw [settlements_losses]
        exact .inr (List.count_pos_iff.mpr (List.mem_map_of_mem orphan))
      · exact .inl (Books.mem_pending_strip.mpr ⟨hg, orphan⟩)
  | notify n => exact h.quiet shown [_] rfl (by simp) rfl

theorem take (next : Next d q rest) (h : d.Made) : (d.take q rest).Made :=
  h.quiet (h.shown.take next) [.took q] rfl (by simp) rfl

end Made

end Docket

namespace Allocator

open Journal Grant

theorem run_made (W : World σ) (advisors : List Advisor) (sink : AuditSink) (w : σ)
    (hs : List (Happening σ)) : (((initial advisors sink w).run W hs).docket none 0).Made :=
  (run_holds Docket.Made.act (fun next _ h => h.take next) advisors sink w hs
    ⟨⟨fun _ => rfl, rfl⟩, .nil, fun _ m => absurd m List.not_mem_nil, trivial⟩).2

/-- A grant is made once, and the tentative ones are what the journal shows of them, in the order in
which they were made. Of two overlapping grants of a client the older one is not tentative any more
when the client is called for the younger, and if the client is called for both it is first called
for the older. So as long as an older grant is tentative, nothing brings a younger one that overlaps
it to its client. -/
theorem overlapping_called_in_turn (W : World σ) (advisors : List Advisor) (sink : AuditSink)
    (w : σ) (hs : List (Happening σ)) :
    let s := (initial advisors sink w).run W hs
    let j := s.setting.journal
    (j.granted.Nodup ∧ s.pending = j.pending ∧ s.pending.Sublist j.granted.reverse) ∧
    (∀ g k : Grant, [k, g].Sublist j.granted → g.client = k.client →
      (∃ r ∈ g.expanded, r ∈ k.expanded) →
      ∀ later reply earlier, j = later ++ .called k reply :: earlier →
        g ∉ Journal.pending earlier ∧ ∀ answer, .called g answer ∈ j → .called g answer ∈ earlier) ∧
    ∀ g k : Grant, [g, k].Sublist s.pending → g.client = k.client →
      (∃ r ∈ g.expanded, r ∈ k.expanded) → ∀ ks, g ∈ (s.run W ks).pending →
      ∀ reply, .called k reply ∉ (s.run W ks).setting.journal := by
  intro s j
  have made := run_made W advisors sink w hs
  have shown : s.pending = j.pending := made.shown.pending
  refine ⟨⟨made.once, shown, shown ▸ pending_sublist j⟩,
    fun g k order same meets later reply earlier split => ?_,
    fun g k order same meets ks waits reply called => ?_⟩
  · have foremost : Always Foremost j := made.foremost
    have once : j.granted.Nodup := made.once
    obtain ⟨newer, older, parts, hg⟩ := older_of_sublist order
    rw [split] at foremost once parts ⊢
    refine ⟨(settled_before_call foremost once parts hg same meets).1, fun answer called => ?_⟩
    exact called_before foremost once parts hg same meets called
  · have last := run_made W advisors sink w (hs ++ ks)
    rw [run_append] at last
    obtain ⟨es, grown⟩ : ∃ es : Journal, (s.run W ks).setting.journal = es ++ j := run_grows s ks
    have later : [k, g].Sublist (s.run W ks).setting.journal.granted := by
      have before : [k, g].Sublist j.granted :=
        List.sublist_reverse_iff.mp (order.trans (shown ▸ pending_sublist j))
      rw [grown, granted_append]
      exact before.trans (List.sublist_append_right _ _)
    obtain ⟨newer, older, parts, hg⟩ := older_of_sublist later
    obtain ⟨after, earlier, split⟩ := List.append_of_mem called
    have foremost : Always Foremost (s.run W ks).setting.journal := last.foremost
    have once : (s.run W ks).setting.journal.granted.Nodup := last.once
    have tentative : g ∈ (s.run W ks).setting.journal.pending := last.shown.pending ▸ waits
    rw [split] at foremost once parts tentative
    obtain ⟨gone, locked⟩ := settled_before_call foremost once parts hg same meets
    rw [List.append_cons] at once tentative
    exact not_pending_append once locked gone tentative

/-- The preparation of the second grant is complete first. -/
example :
    let s := (initial [.gates 0 { name := "slow" }] .nowhere 0).run (World.steady .yes)
      [asking "x" ["a", "b"], .step, asking "x" ["b", "c"], .step, .poll 0 1 (some .opens), .step,
        .poll 0 0 (some .opens), .step]
    s.pending = [] ∧ s.setting.journal.calls.reverse.map (·.1.request.seq) = [0, 1] := by
  decide +kernel

/-! ### Which grant a check is about -/

theorem unnamed_before {before after : List Grant} {g : Grant} {c : ClientId} {rs : ResourceSet}
    (covers : W.Covers) (formed : ∀ k ∈ before ++ g :: after, Formed W k)
    (apart : (before ++ g :: after).Pairwise fun k l =>
      k.client = l.client → ∀ r ∈ l.claimed, r ∉ k.expanded)
    (something : rs ≠ ∅)
    (named : g.isNamedBy c rs = true ∧
        (∀ k ∈ before, k.client = c → ∀ r ∈ k.expanded, r ∉ g.expanded) ∨
      g.client = c ∧ g.claimed = rs) :
    ∀ k ∈ before, k.isNamedBy c rs = false := by
  intro k hk
  refine Bool.eq_false_iff.mpr fun names => ?_
  obtain ⟨client, covered⟩ := (formed k (List.mem_append_left _ hk)).covers covers names
  obtain ⟨r, hr⟩ := ResourceSet.exists_mem_of_ne_empty something
  rcases named with ⟨named, free⟩ | ⟨own, rfl⟩
  · have mine := (formed g (by simp)).covers covers named
    exact free k hk client r (covered r hr) (mine.2 r hr)
  · have claims := (List.pairwise_append.mp apart).2.2 k hk g List.mem_cons_self
    exact claims (client.trans own.symm) r hr (covered r hr)

theorem findIdx?_named {before after : List Grant} {g : Grant} {c : ClientId} {rs : ResourceSet}
    (named : g.isNamedBy c rs = true) (unnamed : ∀ k ∈ before, k.isNamedBy c rs = false) :
    (before ++ g :: after).findIdx? (·.isNamedBy c rs) = some before.length := by
  refine List.findIdx?_eq_some_iff_getElem.mpr ⟨by simp, by simpa using named, fun i hi => ?_⟩
  rw [List.getElem_append_left hi]
  simp [unnamed _ (List.getElem_mem hi)]

theorem step_checkPrepared {s : Allocator σ} {q : Queued} {rest : Queue} {c : ClientId}
    {rs : ResourceSet} (running : s.phase = .running)
    (next : s.setting.queue.take? = some (q, rest)) (command : q.command = .checkPrepared c rs) :
    s.step W = (s.accept q rest).checkPrepared W c rs := by
  simp only [step, isRunning_iff.mpr running, if_true, next, process, command]

theorem called_deliver (W : World σ) (g : Grant) (s : Allocator σ) :
    ∃ reply, .called g reply ∈ (s.deliver W g).setting.journal := by
  obtain ⟨es, -, books⟩ := books_call W g s
  have called : .called g (s.call W g).1 ∈ (s.call W g).2.setting.journal := by
    rw [show (s.call W g).2.setting.journal = _ from congrArg Books.journal books]
    simp [Books.write]
  have grown {x : Setting σ} (grows : (s.call W g).2.setting.Grows Event.Silent x) :
      .called g (s.call W g).1 ∈ x.journal := by
    obtain ⟨fs, -, journal⟩ := grows
    exact journal ▸ List.mem_append_right _ called
  unfold deliver
  split <;> rename_i t answer <;> rw [answer] at grown
  · exact ⟨_, grown (silent_record W .grant g.client g.requested none (t.count .addGrant))⟩
  · exact ⟨_, grown (silent_refuseGrant W g t)⟩
  · exact ⟨_, grown (silent_refuseGrant W g t)⟩

theorem called_of_ready {s t : Allocator σ} {before after : List Grant} {g : Grant}
    (split : s.pending = before ++ g :: after) (ready : s.isReady W before g = (true, t)) :
    ∃ reply, .called g reply ∈ (s.completeIfPrepared W before.length).setting.journal := by
  let delivered := deliver W g { t with pending := t.pending.eraseIdx before.length }
  obtain ⟨reply, called⟩ : ∃ reply, .called g reply ∈ delivered.setting.journal :=
    called_deliver W g _
  obtain ⟨es, -, journal⟩ := unserved_of_deliveries (releaseBlocked_deliveries W g.client delivered)
  have same : s.completeIfPrepared W before.length = delivered.releaseBlocked W g.client := by
    unfold completeIfPrepared
    simp [split, ready, delivered]
  exact ⟨reply, same ▸ journal ▸ List.mem_append_right _ called⟩

/-- If the expander leaves nothing out, a check of a set takes the grant that the set names if that
overlaps no earlier one of its client, and the grant that claims the set in any case. If it is ready
its client is called. -/
theorem check_selects {W : World σ} (covers : W.Covers) (advisors : List Advisor) (sink : AuditSink)
    (w : σ) (hs : List (Happening σ)) :
    let s := (initial advisors sink w).run W hs
    ∀ c rs before g after, rs ≠ ∅ → s.pending = before ++ g :: after →
      (g.isNamedBy c rs = true ∧
          (∀ k ∈ before, k.client = c → ∀ r ∈ k.expanded, r ∉ g.expanded) ∨
        g.client = c ∧ g.claimed = rs) →
      s.pending.findIdx? (·.isNamedBy c rs) = some before.length ∧
      s.checkPrepared W c rs = s.completeIfPrepared W before.length ∧
      ∀ q rest, s.phase = .running → s.setting.queue.take? = some (q, rest) →
        q.command = .checkPrepared c rs →
        s.step W = (s.accept q rest).completeIfPrepared W before.length ∧
        ∀ t, (s.accept q rest).isReady W before g = (true, t) →
          ∃ reply, .called g reply ∈ (s.step W).setting.journal := by
  intro s c rs before g after something split named
  have formed : ∀ k ∈ s.pending, Formed W k := run_formed W advisors sink w hs
  have order : s.books.InOrder := (run_lawful W advisors sink w hs).1
  have apart : s.pending.Pairwise fun k l =>
      k.client = l.client → ∀ r ∈ l.claimed, r ∉ k.expanded := order.apart
  have found : s.pending.findIdx? (·.isNamedBy c rs) = some before.length := by
    rw [split] at formed apart ⊢
    refine findIdx?_named ?_ (unnamed_before covers formed apart something named)
    rcases named with ⟨named, -⟩ | ⟨own, same⟩
    · exact named
    · exact isNamedBy_iff.mpr ⟨own, .inr (.inr same)⟩
  refine ⟨found, ?_, fun q rest running next command => ?_⟩
  · simp only [checkPrepared, found]
  · have same : (s.accept q rest).pending = s.pending := rfl
    have served : s.step W = (s.accept q rest).completeIfPrepared W before.length := by
      rw [step_checkPrepared running next command]
      simp only [checkPrepared, same, found]
    exact ⟨served, fun t ready => served ▸ called_of_ready (same.trans split) ready⟩

/-- The second grant claims what the third one asks for. -/
theorem claim_found_before_request :
    let x : ClientId := ⟨"x"⟩
    let b : ResourceSet := .ofList [⟨"b"⟩]
    let s := (initial [.outside 0 "slow"] .nowhere 0).run (World.steady .no)
      [asking "x" ["a"], .step, asking "x" ["a", "b"], .step, asking "x" ["b"], .step]
    (World.steady .no).Covers ∧ b ≠ ∅ ∧ ∃ first second third,
      s.pending = [first, second, third] ∧ second.client = x ∧ second.claimed = b ∧
      third.isNamedBy x b = true ∧ s.pending.findIdx? (·.isNamedBy x b) = some 1 := by
  intro x b s
  have covers : (World.steady .no).Covers := fun rs w expanded e r hr => by cases e; exact hr
  have something : b ≠ ∅ := by decide +kernel
  obtain ⟨first, second, third, pending, client, claimed, named⟩ :
      ∃ first second third, s.pending = [first, second, third] ∧ second.client = x ∧
        second.claimed = b ∧ third.isNamedBy x b = true := by
    exact ⟨_, _, _, by rfl, by decide +kernel, by decide +kernel, by decide +kernel⟩
  have found := (check_selects covers [.outside 0 "slow"] .nowhere 0 _ x b [first] second [third]
    something pending (.inr ⟨client, claimed⟩)).1
  exact ⟨covers, something, first, second, third, pending, client, claimed, named, found⟩

end Allocator

end Allotment
