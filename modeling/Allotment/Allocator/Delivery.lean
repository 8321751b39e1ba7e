import Allotment.Allocator.Basic

/-!
# Calling clients back

A tentative grant is ready when no earlier one of its client holds it back and the advisors have
prepared what it claims. A ready grant is delivered: its client is called back and keeps the
resources or refuses them, which gives back all of them. A delivery can make further grants of the
client ready, so `releaseBlocked` looks again from the start after each one.
-/

namespace Allotment.Allocator

variable {σ : Type}

/-! ### Readiness -/

/-- Whether a grant is ready, `earlier` being the grants made before it. -/
def isReady (W : World σ) (earlier : List Grant) (g : Grant) (s : Allocator σ) :
    Bool × Allocator σ :=
  if earlier.any (·.holdsBack g) then (false, s)
  else if g.claimed.isEmpty then (true, s)
  else s.question W .complete g.client g.claimed

/-- The first ready grant of `c` among `rest`, with the grants before and after it, `seen` being the
grants before `rest`. -/
def firstReady (W : World σ) (c : ClientId) :
    List Grant → List Grant → Allocator σ → Option (List Grant × Grant × List Grant) × Allocator σ
  | _, [], s => (none, s)
  | seen, g :: rest, s =>
    if g.client = c then
      let (ready, s) := s.isReady W seen g
      if ready then (some (seen, g, rest), s) else firstReady W c (seen ++ [g]) rest s
    else firstReady W c (seen ++ [g]) rest s

/-! ### Delivery -/

def acceptGrant (W : World σ) (g : Grant) (s : Allocator σ) : Allocator σ :=
  (s.count .addGrant).record W .grant g.client g.requested none

def announceFreed (W : World σ) (c : ClientId) (freed : ResourceSet) (s : Allocator σ) :
    Allocator σ :=
  if freed.isEmpty then s else s.announce W c freed

def refusalDetail (freed : ResourceSet) : String := "freed " ++ toString freed.size ++ " resources"

/-- The client does not want what it was granted: all of it is freed. -/
def refuseGrant (W : World σ) (g : Grant) (s : Allocator σ) : Allocator σ :=
  let (freed, s) := (s.count .addRefusal).take g.client g.expanded .refused
  let s := (s.cancelOrphaned g.client).announceFreed W g.client freed
  let s := s.record W .refuse g.client g.requested (some (refusalDetail freed))
  if freed.isEmpty then s else s.followUp [.retryDeferred]

def deliver (W : World σ) (g : Grant) (s : Allocator σ) : Allocator σ :=
  match s.call W g with
  | (.accept, s) => s.acceptGrant W g
  | (.refuse, s) => s.refuseGrant W g
  | (.breakOff, s) => s.refuseGrant W g

/-! ### Deliveries never add tentative grants -/

theorem pending_isReady (W : World σ) (earlier : List Grant) (g : Grant) (s : Allocator σ) :
    (s.isReady W earlier g).2.pending = s.pending := by
  unfold isReady
  split
  · rfl
  · split <;> rfl

theorem pending_firstReady (W : World σ) (c : ClientId) (seen rest : List Grant)
    (s : Allocator σ) : (firstReady W c seen rest s).2.pending = s.pending := by
  induction rest generalizing seen s with
  | nil => rfl
  | cons g rest ih =>
    unfold firstReady
    split
    · dsimp only
      split
      · exact pending_isReady ..
      · rw [ih, pending_isReady]
    · exact ih ..

theorem firstReady_append {W : World σ} {c : ClientId} {seen rest : List Grant} {s : Allocator σ}
    {before after : List Grant} {g : Grant}
    (h : (firstReady W c seen rest s).1 = some (before, g, after)) :
    before ++ g :: after = seen ++ rest := by
  induction rest generalizing seen s with
  | nil => cases h
  | cons a rest ih =>
    unfold firstReady at h
    split at h
    · dsimp only at h
      split at h
      · cases h
        rfl
      · simpa using ih h
    · simpa using ih h

@[simp] theorem pending_acceptGrant (W : World σ) (g : Grant) (s : Allocator σ) :
    (s.acceptGrant W g).pending = s.pending := by simp [acceptGrant]

@[simp] theorem pending_announceFreed (W : World σ) (c : ClientId) (freed : ResourceSet)
    (s : Allocator σ) : (s.announceFreed W c freed).pending = s.pending := by
  unfold announceFreed; split <;> simp

theorem length_pending_refuseGrant_le (W : World σ) (g : Grant) (s : Allocator σ) :
    (s.refuseGrant W g).pending.length ≤ s.pending.length := by
  have h := length_pending_cancelOrphaned_le g.client
    ((s.count .addRefusal).take g.client g.expanded .refused).2
  rw [pending_take, pending_count] at h
  unfold refuseGrant
  dsimp only
  split <;> simpa using h

theorem length_pending_deliver_le (W : World σ) (g : Grant) (s : Allocator σ) :
    (s.deliver W g).pending.length ≤ s.pending.length := by
  have hc := pending_call W g s
  unfold deliver
  split <;> rename_i s' h <;> rw [h] at hc <;> simp only at hc <;> rw [← hc]
  · simp
  · exact length_pending_refuseGrant_le ..
  · exact length_pending_refuseGrant_le ..

theorem length_pending_deliver_lt {W : World σ} {c : ClientId} {s t : Allocator σ}
    {before after : List Grant} {g : Grant}
    (h : firstReady W c [] s.pending s = (some (before, g, after), t)) :
    ({ t with pending := before ++ after }.deliver W g).pending.length < s.pending.length := by
  have e := firstReady_append (congrArg Prod.fst h)
  refine Nat.lt_of_le_of_lt (length_pending_deliver_le ..) ?_
  rw [← List.nil_append s.pending, ← e]
  simp

/-! ### Delivering all that is ready -/

/-- Delivers the tentative grants of `c` that are ready, each time the first of them. -/
def releaseBlocked (W : World σ) (c : ClientId) (s : Allocator σ) : Allocator σ :=
  if s.isRunning then
    match h : firstReady W c [] s.pending s with
    | (none, t) => t
    | (some (before, g, after), t) =>
      have := length_pending_deliver_lt h
      releaseBlocked W c ({ t with pending := before ++ after }.deliver W g)
  else s
termination_by s.pending.length

/-- Delivers the tentative grant at a position if it is ready, and then whatever of its client's has
become so. -/
def completeIfPrepared (W : World σ) (i : Nat) (s : Allocator σ) : Allocator σ :=
  match s.pending[i]? with
  | none => s
  | some g =>
    let (ready, s) := s.isReady W (s.pending.take i) g
    if ready then
      ({ s with pending := s.pending.eraseIdx i }.deliver W g).releaseBlocked W g.client
    else s

end Allotment.Allocator
