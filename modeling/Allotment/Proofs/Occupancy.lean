import Mathlib.Data.List.TakeWhile
import Allotment.Allocator.Step

/-!
# What zones know of their occupants

A client that prepares a set gets into the zones that it touches, up to the first that somebody else
is in (`entered`), and each of these tracks what the client has in it (`tracks_prepare_iff`) until
the client is said to have released it (`Tracks.released`). While a zone tracks a resource of one
client it lets in nobody else (`Tracks.client_eq`). A chain of advisors asks its zones as it asks
any other advisor (`consult_zones`, `notify_zones`).
-/

namespace Allotment

namespace Zones

variable {z y : Zones} {name : String} {c d : ClientId} {r : ResourceId} {rs : ResourceSet}
  {a : Zone}

/-- The zone of a name has `c` inside, with `r`. -/
def Tracks (z : Zones) (name : String) (c : ClientId) (r : ResourceId) : Prop :=
  ∃ o, z.occupancy? name = some o ∧ o.client = c ∧ r ∈ o.held

theorem mem_touched : a ∈ z.touched rs ↔ a ∈ z.zones ∧ ∃ r ∈ a.members, r ∈ rs := by
  rw [touched, List.mem_filter, ResourceSet.meets_iff]

theorem Tracks.client_eq (h : z.Tracks a.name d r) (may : z.mayAllocate c rs = true)
    (ha : a ∈ z.zones) (meets : ∃ x ∈ rs, x ∈ a.members) : d = c := by
  obtain ⟨o, found, rfl, -⟩ := h
  obtain ⟨x, hx, inside⟩ := meets
  have touched : a ∈ z.touched rs := mem_touched.mpr ⟨ha, x, inside, hx⟩
  have alone := List.all_eq_true.mp may a touched
  simpa [occupant, found] using alone

/-! ### Entering -/

theorem occupancy?_extend (name other : String) (inside : ResourceSet) (z : Zones) :
    occupancy? { z with occupied := z.occupied.map (extend other inside) } name =
      (z.occupancy? name).map (extend other inside) := by
  have same : ((fun o : Occupancy => o.zone == name) ∘ extend other inside) =
      fun o => o.zone == name := by
    funext o
    simp only [Function.comp_apply, extend]
    split <;> rfl
  rw [occupancy?, occupancy?, List.find?_map, same]

/-- Nobody else occupies the zone. -/
def admits (z : Zones) (c : ClientId) (a : Zone) : Bool := (z.occupant a.name).all (· == c)

/-- The zones that `c` gets into with a set: those it touches, up to the first that somebody else
occupies. -/
def entered (z : Zones) (c : ClientId) (rs : ResourceSet) : List Zone :=
  (z.touched rs).takeWhile (z.admits c)

theorem enter_cases (z : Zones) (c : ClientId) (rs : ResourceSet) (a : Zone) :
    (z.admits c a = true ∧ ∃ y, z.enter c rs a = .ok y) ∨
    (z.admits c a = false ∧ ∃ e, z.enter c rs a = .error e) := by
  unfold enter admits occupant
  cases found : z.occupancy? a.name with
  | none => exact .inl ⟨rfl, _, rfl⟩
  | some o =>
    by_cases own : o.client = c
    · exact .inl ⟨by simp [own], _, if_pos own⟩
    · exact .inr ⟨by simp [own], _, if_neg own⟩

/-- Whoever gets into a zone finds it free or is there already. -/
theorem enter_ok (h : z.enter c rs a = .ok y) :
    (z.occupancy? a.name = none ∧
      y = { z with occupied := z.occupied ++ [⟨a.name, c, a.members ∩ rs⟩] }) ∨
    (∃ held, z.occupancy? a.name = some ⟨a.name, c, held⟩ ∧
      y = { z with occupied := z.occupied.map (extend a.name (a.members ∩ rs)) }) := by
  unfold enter at h
  split at h
  · rename_i free
    exact .inl ⟨free, (Except.ok.inj h).symm⟩
  · rename_i o found
    split at h
    · rename_i own
      subst own
      have zone : o.zone = a.name := by simpa using List.find?_some found
      exact .inr ⟨o.held, by rw [found, ← zone], (Except.ok.inj h).symm⟩
    · cases h

/-- Whoever enters a zone adds what it holds in it, and the other zones are as before. -/
theorem occupancy?_enter (h : z.enter c rs a = .ok y) (name : String) :
    y.occupancy? name = if name = a.name then
      some ⟨a.name, c, ((z.occupancy? name).map (·.held)).getD ∅ ∪ (a.members ∩ rs)⟩
    else z.occupancy? name := by
  obtain ⟨free, rfl⟩ | ⟨held, found, rfl⟩ := enter_ok h
  · rw [occupancy?, List.find?_append]
    split
    · rename_i same
      subst same
      have nothing : (∅ : ResourceSet) ∪ (a.members ∩ rs) = a.members ∩ rs := by ext r; simp
      rw [show List.find? _ _ = none from free, free, Option.map_none, Option.getD_none, nothing]
      simp
    · rename_i other
      simp [occupancy?, Ne.symm other]
  · rw [occupancy?_extend]
    split
    · rename_i same
      subst same
      simp [found, extend]
    · rename_i other
      cases elsewhere : z.occupancy? name with
      | none => rfl
      | some p =>
        have zone : p.zone = name := by simpa using List.find?_some elsewhere
        simp [extend, zone, other]

theorem admits_enter (h : z.enter c rs a = .ok y) : y.admits c = z.admits c := by
  funext b
  unfold admits occupant
  rw [occupancy?_enter h]
  split
  · rename_i same
    obtain ⟨admitted, -⟩ | ⟨-, e, refused⟩ := enter_cases z c rs a
    · rw [same]
      simpa [admits, occupant] using admitted.symm
    · cases h.symm.trans refused
  · rfl

theorem tracks_enter (h : z.enter c rs a = .ok y) : y.Tracks name d r ↔
    z.Tracks name d r ∨ d = c ∧ r ∈ rs ∧ a.name = name ∧ r ∈ a.members := by
  unfold Tracks
  rw [occupancy?_enter h]
  split
  · rename_i same
    subst same
    obtain ⟨admitted, -⟩ | ⟨-, e, refused⟩ := enter_cases z c rs a
    · cases found : z.occupancy? a.name with
      | none => simp [and_comm, eq_comm]
      | some o =>
        have own : o.client = c := by simpa [admits, occupant, found] using admitted
        simp only [Option.map_some, Option.getD_some, Option.some.injEq, exists_eq_left',
          ResourceSet.mem_union, ResourceSet.mem_inter, own, true_and, and_or_left]
        simp only [and_comm, eq_comm]
    · cases h.symm.trans refused
  · rename_i other
    simp [Ne.symm other]

/-- What each zone entered leaves true is true in the end, however many are entered. -/
theorem enterAll_invariant {P : Zones → Prop} {as : List Zone}
    (step : ∀ a ∈ as, ∀ x y, x.enter c rs a = .ok y → P x → P y) (h : P z) :
    P (enterAll c rs as z).2 := by
  induction as generalizing z with
  | nil => exact h
  | cons a as ih =>
    obtain ⟨first, rest⟩ := List.forall_mem_cons.mp step
    unfold enterAll
    obtain ⟨-, y, entered⟩ | ⟨-, e, failed⟩ := enter_cases z c rs a
    · rw [entered]
      exact ih rest (first z y entered h)
    · rw [failed]
      exact h

theorem enterAll_cases (c : ClientId) (rs : ResourceSet) (as : List Zone) (z : Zones) :
    (as.all (z.admits c) = true ∧ (enterAll c rs as z).1 = .done) ∨
    (as.all (z.admits c) = false ∧ ∃ e, (enterAll c rs as z).1 = .error e) := by
  induction as generalizing z with
  | nil => exact .inl ⟨rfl, rfl⟩
  | cons a as ih =>
    unfold enterAll
    obtain ⟨admitted, y, entered⟩ | ⟨refused, e, failed⟩ := enter_cases z c rs a
    · rw [entered, List.all_cons, admitted, Bool.true_and, ← admits_enter entered]
      exact ih y
    · rw [failed, List.all_cons, refused]
      exact .inr ⟨rfl, e, rfl⟩

/-- Whoever wants into several zones gets into those before the first that somebody else is in. -/
theorem tracks_enterAll (c : ClientId) (rs : ResourceSet) (as : List Zone) (z : Zones) :
    (enterAll c rs as z).2.Tracks name d r ↔ z.Tracks name d r ∨
      d = c ∧ r ∈ rs ∧ ∃ a ∈ as.takeWhile (z.admits c), a.name = name ∧ r ∈ a.members := by
  induction as generalizing z with
  | nil => simp [enterAll]
  | cons a as ih =>
    unfold enterAll
    obtain ⟨admitted, y, entered⟩ | ⟨refused, e, failed⟩ := enter_cases z c rs a
    · simp only [entered, List.takeWhile_cons_of_pos admitted, List.mem_cons, exists_eq_or_imp]
      rw [ih y, tracks_enter entered, admits_enter entered, or_assoc, ← and_or_left, ← and_or_left]
    · rw [failed, List.takeWhile_cons_of_neg (by simp [refused])]
      simp

/-- A preparation adds what its client holds in the zones that it gets into. -/
theorem tracks_prepare_iff (z : Zones) (c : ClientId) (rs : ResourceSet) :
    (z.prepare c rs).2.Tracks name d r ↔ z.Tracks name d r ∨
      d = c ∧ r ∈ rs ∧ ∃ a ∈ z.entered c rs, a.name = name ∧ r ∈ a.members :=
  tracks_enterAll c rs (z.touched rs) z

/-- One that succeeds gets into all that it touches. -/
theorem entered_of_approved (h : (z.prepare c rs).1.approves = true) :
    z.entered c rs = z.touched rs := by
  obtain ⟨admitted, -⟩ | ⟨-, e, failed⟩ := enterAll_cases c rs (z.touched rs) z
  · exact List.takeWhile_eq_self_iff.mpr (List.all_eq_true.mp admitted)
  · rw [prepare, failed] at h
    cases h

/-- A preparation forgets nothing, and if it succeeds it tracks all that it was made for. -/
theorem tracks_prepare (z : Zones) (c : ClientId) (rs : ResourceSet) :
    (∀ name d r, z.Tracks name d r → (z.prepare c rs).2.Tracks name d r) ∧
      ((z.prepare c rs).1.approves = true →
        ∀ a ∈ z.zones, ∀ r ∈ a.members, r ∈ rs → (z.prepare c rs).2.Tracks a.name c r) := by
  refine ⟨fun name d r h => (tracks_prepare_iff z c rs).mpr (.inl h),
    fun approved a ha r hr hrs => (tracks_prepare_iff z c rs).mpr (.inr ⟨rfl, hrs, a, ?_, rfl, hr⟩)⟩
  rw [entered_of_approved approved]
  exact mem_touched.mpr ⟨ha, r, hr, hrs⟩

/-! ### Vacating -/

/-- Others keep what they have, and the client keeps what it does not release, if there is any. -/
theorem vacate_eq_some {o p : Occupancy} : vacate c rs o = some p ↔
    o.client ≠ c ∧ p = o ∨
    o.client = c ∧ (∃ r ∈ o.held, r ∉ rs) ∧ p = { o with held := o.held \ rs } := by
  unfold vacate
  by_cases own : o.client = c
  · rw [if_pos own]
    dsimp only
    by_cases left : ∃ r ∈ o.held, r ∉ rs
    · obtain ⟨r, held, kept⟩ := left
      have some_left : (o.held \ rs).isEmpty = false := by
        refine Bool.eq_false_iff.mpr fun nothing => ResourceSet.not_mem_empty r ?_
        rw [← ResourceSet.isEmpty_iff.mp nothing]
        exact ResourceSet.mem_sdiff.mpr ⟨held, kept⟩
      simp [own, some_left, eq_comm, show ∃ r ∈ o.held, r ∉ rs from ⟨r, held, kept⟩]
    · have none_left : (o.held \ rs).isEmpty = true := by
        refine ResourceSet.isEmpty_iff.mpr (ResourceSet.ext fun r => ?_)
        rw [ResourceSet.mem_sdiff]
        exact iff_of_false (fun kept => left ⟨r, kept⟩) (ResourceSet.not_mem_empty r)
      simp [own, none_left, left]
  · simp [own, eq_comm]

theorem find?_vacate {os : List Occupancy} {o o' : Occupancy}
    (found : os.find? (·.zone == name) = some o) (left : vacate c rs o = some o') :
    (os.filterMap (vacate c rs)).find? (·.zone == name) = some o' := by
  have zone {p q : Occupancy} (h : vacate c rs p = some q) : q.zone = p.zone := by
    obtain ⟨-, rfl⟩ | ⟨-, -, rfl⟩ := vacate_eq_some.mp h <;> rfl
  induction os with
  | nil => cases found
  | cons p os ih =>
    rw [List.find?_cons] at found
    cases named : p.zone == name with
    | true =>
      simp only [named, Option.some.injEq] at found
      subst found
      rw [List.filterMap_cons_some left, List.find?_cons, zone left, named]
    | false =>
      simp only [named] at found
      cases gone : vacate c rs p with
      | none => rw [List.filterMap_cons_none gone, ih found]
      | some q => rw [List.filterMap_cons_some gone, List.find?_cons, zone gone, named, ih found]

theorem Tracks.released (h : z.Tracks name d r) (kept : d ≠ c ∨ r ∉ rs) :
    (z.released c rs).Tracks name d r := by
  obtain ⟨o, found, rfl, hr⟩ := h
  by_cases own : o.client = c
  · have left : r ∉ rs := kept.resolve_left fun other => other own
    exact ⟨_, find?_vacate found (vacate_eq_some.mpr (.inr ⟨own, ⟨r, hr, left⟩, rfl⟩)), rfl,
      ResourceSet.mem_sdiff.mpr ⟨hr, left⟩⟩
  · exact ⟨o, find?_vacate found (vacate_eq_some.mpr (.inl ⟨own, rfl⟩)), rfl, hr⟩

end Zones

/-! ### Zones among other advisors -/

namespace Chain

variable {σ : Type} (W : World σ) (h : Hook) (c : ClientId) (rs : ResourceSet) {z : Zones}

/-- Zones may go unasked if an advisor before them objects, but not when all approve. -/
theorem consult_zones {as : List Advisor} (hz : .zones z ∈ as) (x : Setting σ) :
    ∃ y, .zones y ∈ (consult (Advisor.ask W h c rs) as x).2.1 ∧ (y = z ∨ y = (z.ask h c rs).2) ∧
      ((consult (Advisor.ask W h c rs) as x).1 = true →
        y = (z.ask h c rs).2 ∧ (z.ask h c rs).1.approves = true) := by
  induction as generalizing x with
  | nil => cases hz
  | cons a as ih =>
    unfold consult
    rcases List.mem_cons.mp hz with rfl | hz
    · dsimp only [Advisor.ask]
      split
      · rename_i approves
        exact ⟨_, List.mem_cons_self, .inr rfl, fun _ => ⟨rfl, approves⟩⟩
      · exact ⟨_, List.mem_cons_self, .inr rfl, by simp⟩
    · dsimp only
      split
      · obtain ⟨y, hy, either, approved⟩ := ih hz (Advisor.ask W h c rs a x).2.2
        exact ⟨y, List.mem_cons_of_mem _ hy, either, approved⟩
      · exact ⟨z, List.mem_cons_of_mem _ hz, .inl rfl, by simp⟩

theorem notify_zones {as : List Advisor} (hz : .zones z ∈ as) (x : Setting σ) :
    .zones (z.released c rs) ∈ (notify (Advisor.ask W .released c rs) as x).1 := by
  induction as generalizing x with
  | nil => cases hz
  | cons a as ih =>
    unfold notify
    rcases List.mem_cons.mp hz with rfl | hz
    · exact List.mem_cons_self
    · exact List.mem_cons_of_mem _ (ih hz _)

end Chain

theorem Allocator.pollGates_zones {σ : Type} {number i : Nat} {o : Option GateOutcome} {z : Zones}
    {as : List Advisor} (hz : .zones z ∈ as) (x : Setting σ) :
    .zones z ∈ (pollGates number i o as x).2.1 := by
  induction as generalizing x with
  | nil => cases hz
  | cons a as ih =>
    rcases List.mem_cons.mp hz with rfl | later
    · exact List.mem_cons_self
    · cases a with
      | zones y => exact List.mem_cons_of_mem _ (ih later x)
      | outside n name => exact List.mem_cons_of_mem _ (ih later x)
      | gates n g =>
        unfold pollGates
        split
        · exact List.mem_cons_of_mem _ later
        · exact List.mem_cons_of_mem _ (ih later x)

end Allotment
