import Mathlib.Data.List.Induction
import Allotment.Proofs.Serving

/-!
# Tentative grants wait for something

A tentative grant that no earlier one of its client holds back waits for a preparation of its own,
which an advisor has called incomplete since a check of it was served last (`Stands`). Every
operation leaves it so for the clients that it does not concern, and `releaseBlocked` restores it for
the one that it does.
-/

namespace Allotment

variable {σ : Type}

/-- The expander leaves nothing out of what is asked for. -/
def World.Covers (W : World σ) : Prop :=
  ∀ rs w expanded, (W.expand rs w).1 = some expanded → ∀ r ∈ rs, r ∈ expanded

theorem ResourceSet.exists_mem_of_ne_empty {s : ResourceSet} (h : s ≠ ∅) : ∃ r, r ∈ s := by
  by_contra none
  exact h (ResourceSet.ext fun r => ⟨fun hr => absurd ⟨r, hr⟩ none,
    fun hr => absurd hr (ResourceSet.not_mem_empty r)⟩)

namespace Journal

/-- The preparation has been called incomplete, and no check of it has been served since. -/
def Awaits (j : Journal) (c : ClientId) (rs : ResourceSet) : Prop :=
  ∃ later tag answer earlier, j = later ++ .advised tag .complete c rs answer :: earlier ∧
    answer.approves = false ∧ ∀ q, .took q ∈ later → q.command ≠ .checkPrepared c rs

theorem Awaits.append {j : Journal} {c : ClientId} {rs : ResourceSet} (h : Awaits j c rs)
    (es : List Event) (other : ∀ q, .took q ∈ es → q.command ≠ .checkPrepared c rs) :
    Awaits (es ++ j) c rs := by
  obtain ⟨later, tag, answer, earlier, rfl, no, unchecked⟩ := h
  refine ⟨es ++ later, tag, answer, earlier, by simp, no, fun q took => ?_⟩
  exact (List.mem_append.mp took).elim (other q) (unchecked q)

end Journal

namespace Grant

theorem holdsBack_of_client {k g : Grant} (h : k.client ≠ g.client) : k.holdsBack g = false := by
  simp [holdsBack, h]

/-- Every grant of `c` that no earlier one holds back is as `P` says. -/
def Waits (P : Grant → Prop) (c : ClientId) (gs : List Grant) : Prop :=
  ∀ before g after, gs = before ++ g :: after → g.client = c →
    (∀ k ∈ before, k.holdsBack g = false) → P g

/-- Grants of other clients do not matter. -/
theorem Waits.of_filter {P Q : Grant → Prop} {c : ClientId} {gs hs : List Grant}
    (h : Waits P c gs) (same : hs.filter (·.client == c) = gs.filter (·.client == c))
    (imp : ∀ g, g.client = c → P g → Q g) : Waits Q c hs := by
  intro before g after split client free
  rw [split, List.filter_append, List.filter_cons, if_pos (beq_iff_eq.mpr client)] at same
  obtain ⟨front, rest, rfl, first, second⟩ := List.filter_eq_append_iff.mp same.symm
  obtain ⟨gap, back, rfl, others, -, -⟩ := List.filter_eq_cons_iff.mp second
  refine imp g client (h (front ++ gap) g back (by simp) client fun k hk => ?_)
  by_cases own : k.client = c
  · rcases List.mem_append.mp hk with hk | hk
    · have among : k ∈ front.filter (·.client == c) :=
        List.mem_filter.mpr ⟨hk, beq_iff_eq.mpr own⟩
      rw [first] at among
      exact free k (List.mem_filter.mp among).1
    · exact absurd (beq_iff_eq.mpr own) (others k hk)
  · exact holdsBack_of_client (client ▸ own)

theorem filter_others {c d : ClientId} (other : d ≠ c) {p : Grant → Bool}
    (keeps : ∀ k : Grant, k.client ≠ c → p k = true) (gs : List Grant) :
    (gs.filter p).filter (·.client == d) = gs.filter (·.client == d) := by
  rw [List.filter_filter]
  refine List.filter_congr fun k _ => ?_
  by_cases own : k.client = d
  · simp [keeps k (own ▸ other)]
  · simp [own]

/-- What a grant waits for that nothing holds back. -/
structure Stands (W : World σ) (j : Journal) (g : Grant) : Prop where
  claims : g.claimed ≠ ∅
  awaits : W.Covers → j.Awaits g.client g.claimed

theorem Stands.append {W : World σ} {j : Journal} {g : Grant} (h : g.Stands W j) (es : List Event)
    (other : ∀ q, .took q ∈ es → q.command ≠ .checkPrepared g.client g.claimed) :
    g.Stands W (es ++ j) := ⟨h.claims, fun covers => (h.awaits covers).append es other⟩

end Grant

namespace Allocator

open Grant Docket

variable {W : World σ} {s t u : Allocator σ} {c d : ClientId}

/-! ### Looking at a grant -/

/-- A grant that nothing holds back and that is not ready has been called incomplete. -/
theorem stands_of_unready {earlier : List Grant} {g : Grant}
    (free : ∀ k ∈ earlier, k.holdsBack g = false) (h : s.isReady W earlier g = (false, t)) :
    g.Stands W t.setting.journal := by
  have unheld : ¬ earlier.any (·.holdsBack g) = true := by simpa using free
  unfold isReady at h
  rw [if_neg unheld] at h
  split at h
  · cases h
  · rename_i something
    refine ⟨fun nothing => something (ResourceSet.isEmpty_iff.mpr nothing), fun _ => ?_⟩
    have refused : (s.question W .complete g.client g.claimed).1 = false := congrArg Prod.fst h
    obtain ⟨y, tag, answer, no, -, es, background, journal⟩ := Setting.advised_of_refused refused
    have noted : t.setting.journal = .consulted .complete g.client g.claimed false ::
        (es ++ .advised tag .complete g.client g.claimed answer :: y.journal) := by
      rw [← refused]
      exact (congrArg (·.2.setting.journal) h.symm).trans (congrArg (_ :: ·) journal)
    refine ⟨.consulted .complete g.client g.claimed false :: es, tag, answer, y.journal, noted, no,
      fun q took => ?_⟩
    rcases List.mem_cons.mp took with e | took
    · cases e
    · cases background _ took

/-- No command has been served in between. -/
def Unserved (s t : Allocator σ) : Prop :=
  ∃ es : Journal, (∀ e ∈ es, ∀ q, e ≠ .took q) ∧ t.setting.journal = es ++ s.setting.journal

theorem unserved_of_acts {i k : Option Queued} {m n : Nat}
    (h : Acts W (s.docket i m) (t.docket k n)) : Unserved s t := acts_untaken h

theorem unserved_of_deliveries (h : Deliveries W s t) : Unserved s t :=
  unserved_of_acts (m := 0) (n := 0) h.acts

/-- Everything of `c` that nothing holds back waits for a preparation of its own. -/
def Attends (W : World σ) (c : ClientId) (s : Allocator σ) : Prop :=
  Waits (Stands W s.setting.journal) c s.pending

theorem Attends.across (h : s.Attends W c) (unserved : Unserved s t)
    (same : t.pending.filter (·.client == c) = s.pending.filter (·.client == c)) :
    t.Attends W c := by
  obtain ⟨es, untaken, journal⟩ := unserved
  refine h.of_filter same fun g _ stands => ?_
  rw [journal]
  exact stands.append es fun q took => absurd rfl (untaken _ took q)

/-! ### Looking for the next one to be delivered -/

theorem client_of_firstReady {seen rest before after : List Grant} {g : Grant}
    (h : firstReady W c seen rest s = (some (before, g, after), t)) : g.client = c := by
  induction rest generalizing seen s with
  | nil => cases h
  | cons k rest ih =>
    unfold firstReady at h
    split at h
    · rename_i own
      rcases looked : s.isReady W seen k with ⟨ready, u⟩
      simp only [looked] at h
      cases ready with
      | true =>
        cases h
        exact own
      | false => exact ih h
    · exact ih h

theorem stands_of_firstReady {seen rest : List Grant} (running : s.phase = .running)
    (split : s.pending = seen ++ rest) (h : firstReady W c seen rest s = (none, t)) :
    ∀ mid g after, rest = mid ++ g :: after → g.client = c →
      (∀ k ∈ seen ++ mid, k.holdsBack g = false) → g.Stands W t.setting.journal := by
  induction rest generalizing seen s with
  | nil => exact fun mid g after e => absurd e.symm (by simp)
  | cons k rest ih =>
    intro mid g after e client free
    have next : s.pending = (seen ++ [k]) ++ rest := by simpa using split
    unfold firstReady at h
    cases mid with
    | nil =>
      obtain ⟨rfl, rfl⟩ := List.cons.inj e
      rw [if_pos client] at h
      rcases looked : s.isReady W seen k with ⟨ready, u⟩
      obtain ⟨phase, pending⟩ := kept_of_isReady looked
      simp only [looked] at h
      cases ready with
      | true => cases h
      | false =>
        have stands := stands_of_unready (by simpa using free) looked
        have scanned := (firstReady_deliveries (phase.trans running) (pending.trans next) h).1 rfl
        obtain ⟨es, untaken, journal⟩ := unserved_of_deliveries scanned
        rw [journal]
        exact stands.append es fun q took => absurd rfl (untaken _ took q)
    | cons a mid =>
      obtain ⟨rfl, rfl⟩ := List.cons.inj e
      have free : ∀ l ∈ (seen ++ [k]) ++ mid, l.holdsBack g = false := by simpa using free
      split at h
      · rcases looked : s.isReady W seen k with ⟨ready, u⟩
        obtain ⟨phase, pending⟩ := kept_of_isReady looked
        simp only [looked] at h
        cases ready with
        | true => cases h
        | false => exact ih (phase.trans running) (pending.trans next) h mid g after rfl client free
      · exact ih running next h mid g after rfl client free

/-! ### Deliveries concern one client -/

theorem pending_deliver (W : World σ) (g : Grant) (s : Allocator σ) :
    ∃ p : Grant → Bool, (s.deliver W g).pending = s.pending.filter p ∧
      ∀ k : Grant, k.client ≠ g.client → p k = true := by
  have refused (u : Allocator σ) : ∃ p : Grant → Bool,
      (u.refuseGrant W g).pending = u.pending.filter p ∧
        ∀ k : Grant, k.client ≠ g.client → p k = true := by
    refine ⟨fun k => !(k.client == g.client &&
      !((u.count .addRefusal).take g.client g.expanded .refused).2.isCovered k), ?_, ?_⟩
    · unfold refuseGrant
      dsimp only
      split <;> simp [pending_cancelOrphaned]
    · intro k other
      simp [other]
  have called := pending_call W g s
  unfold deliver
  rcases answer : s.call W g with ⟨reply, u⟩
  rw [answer] at called
  rw [← show u.pending = s.pending from called]
  cases reply with
  | accept => exact ⟨fun _ => true, by simp, fun _ _ => rfl⟩
  | refuse => exact refused u
  | breakOff => exact refused u

theorem attends_delivered {before after : List Grant} {g : Grant} (running : s.phase = .running)
    (split : s.pending = before ++ g :: after) (ready : s.isReady W before g = (true, t))
    (other : c ≠ g.client) (h : s.Attends W c) :
    (deliver W g { t with pending := before ++ after }).Attends W c := by
  have delivered : Deliveries W s (deliver W g { t with pending := before ++ after }) :=
    .single (.deliver before g after t running split ready)
  obtain ⟨p, pending, keeps⟩ := pending_deliver W g { t with pending := before ++ after }
  refine h.across (unserved_of_deliveries delivered) ?_
  rw [pending, filter_others other keeps, split]
  simp [Ne.symm other]

/-- A scan leaves nothing of its client behind that could be delivered. -/
theorem attends_releaseBlocked (W : World σ) (c : ClientId) (s : Allocator σ) :
    (∀ d, d ≠ c → s.Attends W d) → (s.releaseBlocked W c).phase = .running →
      ∀ d, (s.releaseBlocked W c).Attends W d := by
  fun_induction releaseBlocked W c s with
  | case1 s running t h =>
    intro others still d
    have going := isRunning_iff.mp running
    have pending : t.pending = s.pending := by rw [← pending_firstReady W c [] s.pending s, h]
    by_cases own : d = c
    · -- Every grant of the client that is not held back was looked at and found wanting.
      subst own
      intro before g after split client free
      exact stands_of_firstReady going rfl h before g after (pending ▸ split) client free
    · have scanned := (firstReady_deliveries going rfl h).1 rfl
      exact (others d own).across (unserved_of_deliveries scanned) (by rw [pending])
  | case2 s running before g after t h _ ih =>
    intro others still
    have own := client_of_firstReady h
    obtain ⟨u, looked, going, split, ready⟩ :=
      (firstReady_deliveries (isRunning_iff.mp running) rfl h).2 before g after rfl
    refine ih (fun d other => ?_) still
    have same : u.pending = s.pending := by
      rw [split]
      exact firstReady_append (congrArg Prod.fst h)
    exact attends_delivered going split ready (own ▸ other)
      ((others d other).across (unserved_of_deliveries looked) (by rw [same]))
  | case3 s stopped =>
    intro _ still
    exact absurd (isRunning_iff.mpr still) stopped

/-- A grant that was looked at waits, and so do the others if they did before. -/
theorem attends_wait {before after : List Grant} {g : Grant} (running : s.phase = .running)
    (split : s.pending = before ++ g :: after) (looked : s.isReady W before g = (false, t))
    (due : ∀ front k back, s.pending = front ++ k :: back → k.client = g.client →
      (∀ l ∈ front, l.holdsBack k = false) → front.length ≠ before.length →
      k.Stands W s.setting.journal)
    (others : ∀ d, d ≠ g.client → s.Attends W d) (d : ClientId) : t.Attends W d := by
  obtain ⟨es, untaken, journal⟩ : Unserved s t :=
    unserved_of_deliveries (.single (.wait before g after t running split looked))
  obtain ⟨-, pending⟩ := kept_of_isReady looked
  by_cases own : d = g.client
  · subst own
    intro front k back parts client free
    rw [pending] at parts
    by_cases here : front.length = before.length
    · obtain ⟨same, rest⟩ := List.append_inj (parts.symm.trans split) here
      obtain ⟨rfl, -⟩ := List.cons.inj rest
      exact stands_of_unready (same ▸ free) looked
    · rw [journal]
      exact (due front k back parts client free here).append es
        fun q took => absurd rfl (untaken _ took q)
  · exact (others d own).across ⟨es, untaken, journal⟩ (by rw [pending])

/-- The grant at the position is the only one of its client that may be due. -/
theorem attends_completeIfPrepared {i : Nat} (running : s.phase = .running)
    (own : ∀ g, s.pending[i]? = some g → g.client = c)
    (due : ∀ before g after, s.pending = before ++ g :: after → g.client = c →
      (∀ k ∈ before, k.holdsBack g = false) → before.length ≠ i → g.Stands W s.setting.journal)
    (others : ∀ d, d ≠ c → s.Attends W d)
    (still : (s.completeIfPrepared W i).phase = .running) (d : ClientId) :
    (s.completeIfPrepared W i).Attends W d := by
  unfold completeIfPrepared at still ⊢
  cases found : s.pending[i]? with
  | none =>
    by_cases mine : d = c
    · intro before g after split client free
      refine due before g after split (mine ▸ client) free fun here => ?_
      rw [split, ← here] at found
      simp at found
    · exact others d mine
  | some g =>
    have client := own g found
    obtain ⟨hi, rfl⟩ := List.getElem?_eq_some_iff.mp found
    have here : s.pending = s.pending.take i ++ s.pending[i] :: s.pending.drop (i + 1) := by simp
    have length : (s.pending.take i).length = i := List.length_take_of_le (Nat.le_of_lt hi)
    simp only [found] at still ⊢
    rcases looked : s.isReady W (s.pending.take i) s.pending[i] with ⟨ready, t⟩
    obtain ⟨-, pending⟩ := kept_of_isReady looked
    rw [looked] at still
    dsimp only at still ⊢
    subst client
    cases ready with
    | true =>
      rw [if_pos rfl, pending, List.eraseIdx_eq_take_drop_succ] at still ⊢
      refine attends_releaseBlocked W _ _ (fun d other => ?_) still d
      exact attends_delivered running here looked other (others d other)
    | false =>
      rw [if_neg Bool.false_ne_true]
      exact attends_wait running here looked (length.symm ▸ due) others d

/-! ### Commands -/

theorem attends_defer {k : Request} (running : s.phase = .running)
    (h : s.tryAllocate W k.client.id k.resources = (none, t)) (attends : s.Attends W d) :
    (t.defer W k).Attends W d := by
  have unserved : Unserved s (t.defer W k) := unserved_of_acts (acts_defer (k := 0) running h)
  exact attends.across unserved (by rw [pending_defer, (tryAllocate_none h).quietly.pending])

theorem split_concat {α : Type} {l before after : List α} {a b : α}
    (h : l ++ [b] = before ++ a :: after) (other : before.length ≠ l.length) :
    ∃ rest, l = before ++ a :: rest := by
  rcases List.eq_nil_or_concat after with rfl | ⟨rest, last, rfl⟩
  · have lengths := congrArg List.length h
    simp only [List.length_append, List.length_cons, List.length_nil] at lengths
    omega
  · rw [List.concat_eq_append, ← List.cons_append, ← List.append_assoc] at h
    exact ⟨rest, List.append_inj_left' h rfl⟩

theorem attends_allocate (k : Request) (running : s.phase = .running)
    (attends : ∀ d, s.Attends W d) (still : (s.allocate W k).phase = .running) (d : ClientId) :
    (s.allocate W k).Attends W d := by
  have phase := phase_tryAllocate W k.client.id k.resources s
  unfold allocate at still ⊢
  rcases h : s.tryAllocate W k.client.id k.resources with ⟨_ | ⟨expanded, claimed⟩, t⟩
  · exact attends_defer running h (attends d)
  · rw [h] at still phase
    let g : Grant := ⟨k, expanded, claimed⟩
    let u := note (.locked g) { t with pending := t.pending ++ [g] }
    have unserved : Unserved s u := unserved_of_acts (acts_lock (g := g) (k := 0) running h)
    have pending : u.pending = s.pending ++ [g] := by
      obtain ⟨v, table, asks, rfl, -⟩ := tryAllocate_some h
      exact congrArg (· ++ [g]) asks.quietly.pending
    have length : t.pending.length = s.pending.length := by
      have lengths := congrArg List.length pending
      simpa [u] using lengths
    obtain ⟨es, untaken, journal⟩ := unserved
    refine attends_completeIfPrepared (s := u) (c := g.client) (phase.trans running)
      (fun a ha => ?_) (fun before a after split client free other => ?_) (fun e other => ?_) still d
    · rw [pending, length, List.getElem?_concat_length] at ha
      cases ha
      rfl
    · -- The new grant stands last, and the others waited before it was made.
      rw [length] at other
      obtain ⟨rest, before_locked⟩ := split_concat (pending.symm.trans split) other
      rw [journal]
      exact (attends g.client before a rest before_locked client free).append es
        fun q took => absurd rfl (untaken _ took q)
    · refine (attends e).across ⟨es, untaken, journal⟩ ?_
      rw [pending, List.filter_append]
      simp [Ne.symm other]

theorem attends_free {rs : ResourceSet} (running : s.phase = .running)
    (attends : ∀ d, s.Attends W d) (still : (s.free W c rs).phase = .running) (d : ClientId) :
    (s.free W c rs).Attends W d := by
  let stripped := (s.take c rs .asked).2.cancelOrphaned c
  let released := stripped.releaseBlocked W c
  have others : ∀ e, e ≠ c → stripped.Attends W e := by
    intro e other
    have strip := act_strip (W := W) (i := none) (k := 0) c rs .asked (s := s)
      (by simp [Unasked, docket]) running
    refine (attends e).across (unserved_of_acts (.single strip)) ?_
    rw [pending_cancelOrphaned, pending_take]
    exact filter_others other (fun k foreign => by simp [foreign]) s.pending
  obtain ⟨-, quiet⟩ | ⟨-, going, told⟩ :=
    afterFree_cases W c (s.table.heldOf c rs) (s.take c rs .asked).2
  · have same : s.free W c rs = released := quiet
    rw [same] at still ⊢
    exact attends_releaseBlocked W c stripped others still d
  · let recorded := (released.count .addFree).record W .free c (s.table.heldOf c rs) none
    have same : s.free W c rs = recorded.followUp [.released c (s.table.heldOf c rs), .retryDeferred] :=
      told
    have record := acts_record W .free c (s.table.heldOf c rs) none (i := none) (k := 1)
      (s := released.count .addFree) going
    have unserved : Unserved released (s.free W c rs) := by
      rw [same]
      exact unserved_of_acts (record.trans (acts_followUp [.released c (s.table.heldOf c rs)] _))
    refine (attends_releaseBlocked W c stripped others going d).across unserved ?_
    rw [same, pending_followUp]
    exact congrArg (List.filter _) (pending_record ..)

/-- The sets of a grant that is tentative: one was asked for, and covers what it claims. -/
structure Formed (W : World σ) (g : Grant) : Prop where
  expanded : ∃ w, (W.expand g.requested w).1 = some g.expanded
  claims : ∀ r ∈ g.claimed, r ∈ g.expanded

/-- Whichever of its sets names it, a grant covers that set. -/
theorem Formed.covers {g : Grant} {rs : ResourceSet} (h : Formed W g) (covers : W.Covers)
    (named : g.isNamedBy c rs = true) : g.client = c ∧ ∀ r ∈ rs, r ∈ g.expanded := by
  obtain ⟨client, rfl | rfl | rfl⟩ := isNamedBy_iff.mp named
  · obtain ⟨w, expanded⟩ := h.expanded
    exact ⟨client, covers _ w _ expanded⟩
  · exact ⟨client, fun _ hr => hr⟩
  · exact ⟨client, h.claims⟩

/-- It holds back every later grant of its client whose claim names it. -/
theorem Formed.holdsBack {k g : Grant} (hk : Formed W k) (covers : W.Covers)
    (named : k.isNamedBy g.client g.claimed = true) (hg : Formed W g)
    (something : g.claimed ≠ ∅) : k.holdsBack g = true := by
  obtain ⟨client, covered⟩ := hk.covers covers named
  obtain ⟨r, hr⟩ := ResourceSet.exists_mem_of_ne_empty something
  rw [Grant.holdsBack, Bool.and_eq_true, beq_iff_eq, ResourceSet.meets_iff]
  exact ⟨client, r, covered r hr, hg.claims r hr⟩

/-- What a check may be about is the first grant that it names, unless that is held back. -/
theorem attends_checkPrepared {rs : ResourceSet} (running : s.phase = .running)
    (formed : ∀ g ∈ s.pending, Formed W g)
    (left : ∀ d, Waits (fun g => (g.client = c ∧ g.claimed = rs ∧ g.claimed ≠ ∅) ∨
      g.Stands W s.setting.journal) d s.pending)
    (still : (s.checkPrepared W c rs).phase = .running) (d : ClientId) :
    (s.checkPrepared W c rs).Attends W d := by
  unfold checkPrepared at still ⊢
  cases found : s.pending.findIdx? (·.isNamedBy c rs) with
  | none =>
    intro before g after split client free
    refine (left d before g after split client free).resolve_left ?_
    rintro ⟨rfl, rfl, -⟩
    have unnamed := List.findIdx?_eq_none_iff.mp found g (by simp [split])
    cases unnamed.symm.trans (isNamedBy_iff.mpr ⟨rfl, .inr (.inr rfl)⟩)
  | some i =>
    simp only [found] at still
    obtain ⟨hi, named, first⟩ := List.findIdx?_eq_some_iff_getElem.mp found
    have client : s.pending[i].client = c := (isNamedBy_iff.mp named).1
    refine attends_completeIfPrepared (c := c) running (fun g hg => ?_)
      (fun before g after split mine free other => ?_) (fun e other => ?_) still d
    · rw [List.getElem?_eq_getElem hi] at hg
      cases hg
      exact client
    · rcases left c before g after split mine free with ⟨-, rfl, something⟩ | stands
      · refine ⟨something, fun covers => ?_⟩
        -- The grant that the check is about comes earlier, and would hold this one back.
        have earlier : i < before.length := by
          refine Nat.lt_of_le_of_ne (Nat.le_of_not_lt fun later => ?_) (Ne.symm other)
          refine first before.length later ?_
          simp [split, isNamedBy_iff, mine]
        have blocker : s.pending[i] ∈ before := by
          have same : s.pending[i] = before[i] := by simp [split, earlier]
          exact same ▸ List.getElem_mem earlier
        have held := (formed _ (List.getElem_mem hi)).holdsBack covers (mine ▸ named)
          (formed g (by simp [split])) something
        rw [free _ blocker] at held
        cases held
      · exact stands
    · exact (left e).of_filter rfl fun g mine stands =>
        stands.resolve_left fun h => other (mine ▸ h.1)

/-- Of what was attended to, a check in hand may be about a part. -/
def Checking (W : World σ) (q : Queued) (d : ClientId) (s : Allocator σ) : Prop :=
  Waits (fun g => (q.command = .checkPrepared g.client g.claimed ∧ g.claimed ≠ ∅) ∨
    g.Stands W s.setting.journal) d s.pending

theorem Attends.accept (h : s.Attends W d) (q : Queued) (rest : Queue) :
    (s.accept q rest).Checking W q d := by
  refine h.of_filter rfl fun g _ stands => ?_
  by_cases checked : q.command = .checkPrepared g.client g.claimed
  · exact .inl ⟨checked, stands.claims⟩
  · refine .inr (stands.append [.took q] fun p took => ?_)
    obtain rfl : p = q := by simpa using took
    exact checked

theorem Checking.attends {q : Queued} (h : s.Checking W q d)
    (other : ∀ c rs, q.command ≠ .checkPrepared c rs) : s.Attends W d :=
  h.of_filter rfl fun _ _ stands => stands.resolve_left fun checked => other _ _ checked.1

theorem attends_process {q : Queued} (running : s.phase = .running)
    (formed : ∀ g ∈ s.pending, Formed W g) (left : ∀ d, s.Checking W q d)
    (still : (s.process W q).phase = .running) (d : ClientId) : (s.process W q).Attends W d := by
  have unserved := unserved_of_acts (acts_process W q (k := 0) running)
  have kept (other : ∀ c rs, q.command ≠ .checkPrepared c rs) (e : ClientId) : s.Attends W e :=
    (left e).attends other
  obtain ⟨command, priority, seq⟩ := q
  unfold process at still unserved ⊢
  cases command with
  | allocate c rs => exact attends_allocate _ running (kept (by simp)) still d
  | checkPrepared c rs =>
    refine attends_checkPrepared running formed (fun e => ?_) still d
    refine (left e).of_filter rfl fun g _ stands => stands.imp_left ?_
    rintro ⟨checked, something⟩
    obtain ⟨rfl, rfl⟩ := Command.checkPrepared.inj checked
    exact ⟨rfl, rfl, something⟩
  | free c rs => exact attends_free running (kept (by simp)) still d
  | freeAll c => exact attends_free running (kept (by simp)) still d
  | shutdown => cases still
  | released c rs => exact (kept (by simp) d).across unserved rfl
  | snapshot => exact (kept (by simp) d).across unserved rfl
  | retryDeferred => exact (kept (by simp) d).across unserved (by simp)
  | withdraw c => exact (kept (by simp) d).across unserved (by simp)

/-! ### Histories -/

/-- What is locked for a grant is what the expander once answered. -/
theorem Move.expanded (move : Move W s t)
    (h : ∀ g ∈ s.pending, ∃ w, (W.expand g.requested w).1 = some g.expanded) :
    ∀ g ∈ t.pending, ∃ w, (W.expand g.requested w).1 = some g.expanded := by
  intro g hg
  cases move with
  | submit | poll | shift | serve | release | report => exact h g hg
  | free =>
    rw [pending_cancelOrphaned, pending_take] at hg
    exact h g (List.mem_filter.mp hg).1
  | tell =>
    rw [pending_followUp, pending_record] at hg
    exact h g hg
  | lock k u running obtained =>
    rcases List.mem_append.mp (show g ∈ u.pending ++ [k] from hg) with hg | hg
    · obtain ⟨v, table, asks, rfl, -⟩ := tryAllocate_some obtained
      exact h g (asks.quietly.pending ▸ hg)
    · obtain rfl := List.mem_singleton.mp hg
      refine ⟨s.setting.world, ?_⟩
      obtain ⟨none, -⟩ | ⟨expanded, _, found, -, -, ⟨same, -⟩ | ⟨locked, -, same⟩⟩ :=
        tryAllocate_expanded obtained
      · cases none
      · cases same
        exact found
      · cases locked <;> cases same
        exact found
  | defer r u running failed =>
    rw [pending_defer, (tryAllocate_none failed).quietly.pending] at hg
    exact h g hg
  | wait before k after _ running split unready =>
    exact h g ((kept_of_isReady unready).2 ▸ hg)
  | deliver before k after u running split ready =>
    obtain ⟨p, pending, -⟩ := pending_deliver W k { u with pending := before ++ after }
    rw [pending] at hg
    refine h g (split ▸ ?_)
    exact ((List.sublist_cons_self k after).append_left before).subset (List.mem_filter.mp hg).1
  | retry => exact h g (by simpa using hg)
  | withdraw => exact h g (by simpa using hg)
  | stop => cases hg

theorem run_formed (W : World σ) (advisors : List Advisor) (sink : AuditSink) (w : σ)
    (hs : List (Happening σ)) : ∀ g ∈ ((initial advisors sink w).run W hs).pending, Formed W g := by
  have moves := run_moves W (initial advisors sink w) hs
  have expanded := moves_invariant (P := fun s : Allocator σ =>
    ∀ g ∈ s.pending, ∃ w, (W.expand g.requested w).1 = some g.expanded) Move.expanded moves
    (fun g hg => absurd hg List.not_mem_nil)
  have inOrder : ((initial advisors sink w).run W hs).books.InOrder :=
    Books.turns_invariant Books.Turn.inOrder moves.turns Books.initial_inOrder
  exact fun g hg => ⟨expanded g hg, inOrder.claims g hg⟩

theorem attends_apply {h : Happening σ} (formed : ∀ g ∈ s.pending, Formed W g)
    (attends : s.phase = .running → ∀ d, s.Attends W d)
    (still : (s.apply W h).phase = .running) (d : ClientId) : (s.apply W h).Attends W d := by
  cases h with
  | submit x =>
    exact (attends still d).across (unserved_of_acts (i := none) (m := 0) (acts_submit W x s)) rfl
  | poll number task o =>
    exact (attends still d).across
      (unserved_of_acts (i := none) (m := 0) (acts_poll W number task o s)) rfl
  | shift w => exact attends still d
  | step =>
    obtain idle | ⟨running, q, rest, -, served⟩ := step_cases W s
    · rw [show s.apply W .step = s from idle] at still ⊢
      exact attends still d
    · rw [show s.apply W .step = _ from served] at still ⊢
      exact attends_process (s := s.accept q rest) running formed
        (fun e => (attends running e).accept q rest) still d

theorem run_attends (W : World σ) (advisors : List Advisor) (sink : AuditSink) (w : σ)
    (hs : List (Happening σ)) (running : ((initial advisors sink w).run W hs).phase = .running)
    (d : ClientId) : ((initial advisors sink w).run W hs).Attends W d := by
  induction hs using List.reverseRecOn generalizing d with
  | nil => exact fun before g after split => absurd split.symm (by simp [initial, run])
  | append_singleton hs h ih =>
    rw [run_append] at running ⊢
    exact attends_apply (run_formed W advisors sink w hs) ih running d

end Allocator

/-! ### What a grant waits for in the end -/

theorem Books.Turn.emptied {b b' : Books} (turn : Turn b b')
    (h : b.phase = .terminated → b.pending = []) : b'.phase = .terminated → b'.pending = [] := by
  have going (running : b.phase = .running) (ended : b.phase = .terminated) : False := by
    rw [running] at ended
    cases ended
  intro ended
  cases turn with
  | quiet es phase quiet kept =>
    rcases kept with rfl | rfl
    · exact h ended
    · cases ended
  | lock lockable => exact (going lockable.running ended).elim
  | accept ready | refuse _ _ ready => exact (going ready.running ended).elim
  | free _ _ _ running | defer _ running | retry running | withdraw _ running =>
    exact (going running ended).elim
  | stop => rfl

namespace Grant

/-- Whichever of the grants that hold `g` back one follows, and those that hold these back, one ends
at a grant that claims something. `before` are the grants made before it. -/
inductive Rests : List Grant → Grant → Prop
  | claims {before : List Grant} {g : Grant} (something : g.claimed ≠ ∅) : Rests before g
  | behind {before : List Grant} {g : Grant} (held : ∃ k ∈ before, k.holdsBack g = true)
      (rests : ∀ front k gap, before = front ++ k :: gap → k.holdsBack g = true → Rests front k) :
      Rests before g

theorem held_of_waits {gs before after : List Grant} {g : Grant}
    (waits : ∀ c, Waits (·.claimed ≠ ∅) c gs) (split : gs = before ++ g :: after)
    (nothing : g.claimed = ∅) : ∃ k ∈ before, k.holdsBack g = true := by
  by_contra unheld
  refine waits g.client before g after split rfl (fun k hk => ?_) nothing
  exact Bool.eq_false_iff.mpr fun held => unheld ⟨k, hk, held⟩

theorem rests_of_waits {gs before after : List Grant} {g : Grant}
    (waits : ∀ c, Waits (·.claimed ≠ ∅) c gs) (split : gs = before ++ g :: after) :
    Rests before g := by
  induction length : before.length using Nat.strongRecOn generalizing before g after with
  | ind n ih =>
    by_cases nothing : g.claimed = ∅
    · refine .behind (held_of_waits waits split nothing) fun front k gap within _ => ?_
      have shorter : front.length < n := by
        rw [← length, within, List.length_append, List.length_cons]
        omega
      have whole : gs = front ++ k :: (gap ++ g :: after) := by
        rw [split, within, List.append_assoc, List.cons_append]
      exact ih front.length shorter whole rfl
    · exact .claims nothing

end Grant

namespace Allocator

open Grant

/-- A crash breaks off a step in the middle. Short of that, a tentative grant that claims nothing is
held back by an earlier one, and whichever one follows from there, one ends at a grant that waits for
its own preparation. -/
theorem tentative_rests (W : World σ) (advisors : List Advisor) (sink : AuditSink) (w : σ)
    (hs : List (Happening σ)) (alive : ((initial advisors sink w).run W hs).phase ≠ .crashed) :
    let s := (initial advisors sink w).run W hs
    ∀ before g after, s.pending = before ++ g :: after →
      (g.claimed = ∅ → ∃ k ∈ before, k.holdsBack g = true) ∧ Rests before g := by
  intro s before g after split
  have waits : ∀ c, Waits (·.claimed ≠ ∅) c s.pending := by
    intro c
    cases phase : s.phase with
    | running =>
      exact (run_attends W advisors sink w hs phase c).of_filter rfl fun _ _ stands => stands.claims
    | terminated =>
      have turns := (run_moves W (initial advisors sink w) hs).turns
      have none : s.pending = [] :=
        Books.turns_invariant Books.Turn.emptied turns (fun ended => by cases ended) phase
      exact fun before g after split => absurd split.symm (by simp [none])
    | crashed => exact absurd phase alive
  exact ⟨held_of_waits waits split, rests_of_waits waits split⟩

/-- A client asks twice more for a part of what is being prepared for it. -/
theorem asked_again_rests :
    let s := (initial [.outside 0 "slow"] .nowhere 0).run (.steady .no)
      [asking "x" ["a", "b"], .step, asking "x" ["b"], .step, asking "x" ["b"], .step]
    s.phase ≠ .crashed ∧ ∃ first second third, s.pending = [first, second, third] ∧
      third.claimed = ∅ ∧ (∃ k ∈ [first, second], k.holdsBack third = true) ∧
      Rests [first, second] third := by
  intro s
  have alive : s.phase ≠ .crashed := by decide +kernel
  obtain ⟨first, second, third, pending, nothing⟩ :
      ∃ first second third, s.pending = [first, second, third] ∧ third.claimed = ∅ := by
    exact ⟨_, _, _, by rfl, by decide +kernel⟩
  have waits := tentative_rests _ _ _ _ _ alive [first, second] third [] pending
  exact ⟨alive, first, second, third, pending, nothing, waits.1 nothing, waits.2⟩

end Allocator

/-! ### Checks of what is complete -/

namespace Journal

/-- A preparation has been called incomplete. -/
def Denied (j : Journal) (c : ClientId) (rs : ResourceSet) : Prop :=
  ∃ tag answer, .advised tag .complete c rs answer ∈ j ∧ answer.approves = false

/-- An advisor submits a check when a preparation that it has called incomplete becomes complete:
then, or, if that happens while it is being asked, before its answer is in. `complete` says which
preparations are complete after some entries. -/
structure Reports (complete : ClientId → ResourceSet → Journal → Prop) (e : Event) (j : Journal) :
    Prop where
  asked : ∀ tag c rs answer, e = .advised tag .complete c rs answer → answer.approves = false →
    complete c rs (e :: j) → ∃ es before q, j = es ++ before ∧ (∀ x ∈ es, x.isBackground = true) ∧
      .entered q ∈ es ∧ q.command = .checkPrepared c rs
  afterwards : ∀ c rs, j.Denied c rs → ¬ complete c rs j → complete c rs (e :: j) →
    ∃ q, e = .entered q ∧ q.command = .checkPrepared c rs

/-- A check has come in since the last one was served. -/
theorem entered_of_reports {complete : ClientId → ResourceSet → Journal → Prop} {c : ClientId}
    {rs : ResourceSet} {tag : AdvisorTag} {answer : Answer} {later earlier : Journal}
    (reports : Always (Reports complete) (later ++ .advised tag .complete c rs answer :: earlier))
    (no : answer.approves = false)
    (unchecked : ∀ q, .took q ∈ later → q.command ≠ .checkPrepared c rs)
    (now : complete c rs (later ++ .advised tag .complete c rs answer :: earlier)) :
    ∃ since before q, later ++ .advised tag .complete c rs answer :: earlier = since ++ before ∧
      .entered q ∈ since ∧ q.command = .checkPrepared c rs ∧
      ∀ p, .took p ∈ since → p.command ≠ .checkPrepared c rs := by
  induction later with
  | nil =>
    obtain ⟨es, before, q, rfl, background, entered, command⟩ :=
      reports.1.asked tag c rs answer rfl no now
    refine ⟨.advised tag .complete c rs answer :: es, before, q, rfl,
      List.mem_cons_of_mem _ entered, command, fun p took => ?_⟩
    rcases List.mem_cons.mp took with e | took
    · cases e
    · cases background _ took
  | cons e later ih =>
    have others := fun q took => unchecked q (List.mem_cons_of_mem e took)
    by_cases already : complete c rs (later ++ .advised tag .complete c rs answer :: earlier)
    · obtain ⟨since, before, q, split, entered, command, untaken⟩ := ih reports.2 others already
      refine ⟨e :: since, before, q, congrArg (e :: ·) split, List.mem_cons_of_mem e entered,
        command, fun p took => ?_⟩
      rcases List.mem_cons.mp took with rfl | took
      · exact unchecked p List.mem_cons_self
      · exact untaken p took
    · have denied : Denied (later ++ .advised tag .complete c rs answer :: earlier) c rs :=
        ⟨tag, answer, by simp, no⟩
      obtain ⟨q, rfl, command⟩ := reports.1.afterwards c rs denied already now
      exact ⟨[.entered q], _, q, rfl, List.mem_singleton_self _, command, by simp⟩

/-- What has come in since it could have been taken has not been taken. -/
theorem not_took_of_entered {since before : Journal} {q : Queued}
    (arrived : Always Arrived (since ++ before)) (once : (since ++ before).entered.Nodup)
    (entered : .entered q ∈ since) (untaken : .took q ∉ since) : .took q ∉ since ++ before := by
  intro took
  rcases List.mem_append.mp took with took | took
  · exact untaken took
  · obtain ⟨later, earlier, rfl⟩ := List.append_of_mem took
    rw [← List.append_assoc] at arrived
    have came : Arrived (.took q) earlier := always_split arrived
    rw [Journal.entered, List.filterMap_append] at once
    refine (List.nodup_append.mp once).2.2 q (mem_entered.mpr entered) q (mem_entered.mpr ?_) rfl
    exact List.mem_append_right _ (List.mem_cons_of_mem _ came)

end Journal

namespace Allocator

open Journal

/-- If the expander leaves nothing out and the advisor reports what becomes complete, then of every
tentative grant that no earlier one holds back and whose preparation is complete a check waits in
the queue. -/
theorem complete_checked {W : World σ} (covers : W.Covers) (a : Advisor) (sink : AuditSink) (w : σ)
    (hs : List (Happening σ)) (running : ((initial [a] sink w).run W hs).phase = .running)
    {complete : ClientId → ResourceSet → Journal → Prop}
    (reports : Always (Reports complete) ((initial [a] sink w).run W hs).setting.journal) :
    let s := (initial [a] sink w).run W hs
    ∀ before g after, s.pending = before ++ g :: after →
      (∀ k ∈ before, k.holdsBack g = false) → complete g.client g.claimed s.setting.journal →
      ∃ q ∈ s.setting.queue.waiting, q.command = .checkPrepared g.client g.claimed := by
  intro s before g after split free now
  have filed := run_filed W [a] sink w hs
  have sound := (run_holds (W := W) (P := fun _ => True) (fun _ _ _ => trivial) (fun _ _ _ => trivial)
    [a] sink w hs trivial).1
  have stands := run_attends W [a] sink w hs running g.client before g after split rfl free
  obtain ⟨later, tag, answer, earlier, journal, no, unchecked⟩ := stands.awaits covers
  rw [journal] at reports now
  obtain ⟨since, rest, q, parts, entered, command, untaken⟩ :=
    entered_of_reports reports no unchecked now
  have whole : s.setting.journal = since ++ rest := journal.trans parts
  have arrived : Always Arrived s.setting.journal := filed.arrived
  have once : s.setting.journal.entered.Nodup := sound.regular.nodup_entered
  have came : .entered q ∈ s.setting.journal := whole ▸ List.mem_append_left _ entered
  rw [whole] at arrived once
  have unserved := not_took_of_entered arrived once entered fun took => untaken q took command
  rw [← whole] at unserved
  -- A command that has come in and has not been served still waits.
  exact ⟨q, (filed.kept running q came).resolve_left unserved, command⟩

/-- A check has come in. -/
def Checked (c : ClientId) (rs : ResourceSet) (j : Journal) : Prop :=
  .checkPrepared c rs ∈ j.entered.map (·.command)

instance (c : ClientId) (rs : ResourceSet) (j : Journal) : Decidable (Checked c rs j) :=
  inferInstanceAs (Decidable (_ ∈ _))

/-- Nothing is called incomplete once a check of it has come in. -/
def isTruthful : Event → Journal → Bool
  | .advised _ .complete c rs answer, j => answer.approves || !decide (Checked c rs j)
  | _, _ => true

theorem reports_of_truthful {e : Event} {j : Journal} (h : isTruthful e j = true) :
    Reports Checked e j := by
  refine ⟨?_, ?_⟩
  · rintro tag c rs answer rfl no now
    have unchecked : ¬ Checked c rs j := by simpa [isTruthful, no] using h
    exact absurd now unchecked
  · intro c rs _ before now
    cases e with
    | entered q =>
      rcases List.mem_cons.mp (show _ ∈ q.command :: j.entered.map (·.command) from now) with e | m
      · exact ⟨q, rfl, e.symm⟩
      · exact absurd m before
    | _ => exact absurd now before

/-- Of two overlapping preparations of a client the later is complete first, and its check is served
while the earlier holds it back. Then the earlier is complete, and its check waits. -/
theorem later_complete_first :
    let x : ClientId := ⟨"x"⟩
    let ab : ResourceSet := .ofList [⟨"a"⟩, ⟨"b"⟩]
    let s := (initial [.gates 0 { name := "slow" }] .nowhere 0).run (World.steady .yes)
      [asking "x" ["a", "b"], .step, asking "x" ["b", "c"], .step, .poll 0 1 (some .opens), .step,
        .poll 0 0 (some .opens)]
    (World.steady .yes).Covers ∧ s.phase = .running ∧
    Always (Reports Checked) s.setting.journal ∧
    ∃ first second, s.pending = [first, second] ∧ first.client = x ∧ first.claimed = ab ∧
      Checked x ab s.setting.journal ∧
      Checked second.client second.claimed s.setting.journal ∧
      ∃ q ∈ s.setting.queue.waiting, q.command = .checkPrepared x ab := by
  intro x ab s
  have covers : (World.steady .yes).Covers := fun rs w expanded e r hr => by cases e; exact hr
  have running : s.phase = .running := by decide +kernel
  have truthful : Always (fun e j => isTruthful e j = true) s.setting.journal := by decide +kernel
  have reports := truthful.imp fun e j => reports_of_truthful
  obtain ⟨first, second, pending, client, claimed, others⟩ :
      ∃ first second, s.pending = [first, second] ∧ first.client = x ∧ first.claimed = ab ∧
        Checked second.client second.claimed s.setting.journal := by
    exact ⟨_, _, by rfl, by decide +kernel, by decide +kernel, by decide +kernel⟩
  have now : Checked x ab s.setting.journal := by decide +kernel
  have checked := complete_checked covers _ _ _ _ running reports [] first [second] pending
    (by simp) (by rwa [client, claimed])
  rw [client, claimed] at checked
  exact ⟨covers, running, reports, first, second, pending, client, claimed, now, others, checked⟩

end Allocator

end Allotment
