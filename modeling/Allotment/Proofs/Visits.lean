import Mathlib.Data.List.Basic
import Mathlib.Data.List.Induction
import Allotment.Proofs.Occupancy

/-!
# Clients in zones

What zones know after any questions can be read off the questions (`tracks_run`): a client is in a
zone with what its preparations have taken into it and it has not released since. Nobody else is in
that zone then (`occupant_run`). A release undoes a preparation of the same resources, however far
that came (`released_prepare`).
-/

namespace Allotment.Zones

structure Question where
  hook : Hook
  client : ClientId
  resources : ResourceSet
deriving DecidableEq

/-- The client says that it has released the resource. -/
def Question.GivesUp (q : Question) (c : ClientId) (r : ResourceId) : Prop :=
  q.hook = .released ∧ q.client = c ∧ r ∈ q.resources

instance (q : Question) (c : ClientId) (r : ResourceId) : Decidable (q.GivesUp c r) :=
  inferInstanceAs (Decidable (_ ∧ _ ∧ _))

def pose (z : Zones) (q : Question) : Zones := (z.ask q.hook q.client q.resources).2

def run (z : Zones) (qs : List Question) : Zones := qs.foldl pose z

variable {z y : Zones} {name : String} {c d : ClientId} {r : ResourceId} {rs : ResourceSet}
  {a : Zone} {o : Occupancy} {q : Question} {qs : List Question}

theorem run_concat (z : Zones) (qs : List Question) (q : Question) :
    z.run (qs ++ [q]) = (z.run qs).pose q := List.foldl_append

/-! ### What is known of each zone -/

/-- Each zone is known to be occupied once at most, and somebody is in it with something. -/
structure Tidy (z : Zones) : Prop where
  once : z.occupied.Pairwise (·.zone ≠ ·.zone)
  inside : ∀ o ∈ z.occupied, ∃ r, r ∈ o.held

theorem Tidy.occupancy? (tidy : z.Tidy) :
    z.occupancy? name = some o ↔ o ∈ z.occupied ∧ o.zone = name := by
  constructor
  · intro found
    exact ⟨List.mem_of_find?_eq_some found, by simpa using List.find?_some found⟩
  · rintro ⟨ho, rfl⟩
    obtain ⟨before, after, split⟩ := List.append_of_mem ho
    have once := tidy.once
    rw [split, List.pairwise_append] at once
    rw [Zones.occupancy?, split, List.find?_append, List.find?_eq_none.mpr]
    · simp
    · intro p hp
      simpa using once.2.2 p hp o List.mem_cons_self

theorem Tidy.tracks (tidy : z.Tidy) :
    z.Tracks name c r ↔ ∃ o ∈ z.occupied, o.zone = name ∧ o.client = c ∧ r ∈ o.held := by
  simp only [Tracks, tidy.occupancy?, and_assoc]

theorem Tidy.occupant (tidy : z.Tidy) :
    z.occupant name = some c ↔ ∃ r, z.Tracks name c r := by
  rw [Zones.occupant, Option.map_eq_some_iff]
  constructor
  · rintro ⟨o, found, own⟩
    obtain ⟨r, held⟩ := tidy.inside o (tidy.occupancy?.mp found).1
    exact ⟨r, o, found, own, held⟩
  · rintro ⟨r, o, found, own, -⟩
    exact ⟨o, found, own⟩

theorem Tidy.enter (tidy : z.Tidy) (meets : ∃ r ∈ a.members, r ∈ rs)
    (h : z.enter c rs a = .ok y) : y.Tidy := by
  obtain ⟨r, member, wanted⟩ := meets
  obtain ⟨free, rfl⟩ | ⟨held, found, rfl⟩ := enter_ok h
  · have other (o : Occupancy) (ho : o ∈ z.occupied) : o.zone ≠ a.name := by
      simpa using List.find?_eq_none.mp free o ho
    constructor
    · exact List.pairwise_append.mpr ⟨tidy.once, by simp, by simpa using other⟩
    · intro o ho
      obtain old | new := List.mem_append.mp ho
      · exact tidy.inside o old
      · rw [List.mem_singleton.mp new]
        exact ⟨r, ResourceSet.mem_inter.mpr ⟨member, wanted⟩⟩
  · have zone (o : Occupancy) : (extend a.name (a.members ∩ rs) o).zone = o.zone := by
      unfold extend
      split <;> rfl
    constructor
    · simpa only [List.pairwise_map, zone] using tidy.once
    · intro o ho
      obtain ⟨p, hp, rfl⟩ := List.mem_map.mp ho
      obtain ⟨s, held⟩ := tidy.inside p hp
      refine ⟨s, ?_⟩
      unfold extend
      split
      · exact ResourceSet.mem_union.mpr (.inl held)
      · exact held

theorem Tidy.enterAll (tidy : z.Tidy) {as : List Zone}
    (meets : ∀ a ∈ as, ∃ r ∈ a.members, r ∈ rs) : (enterAll c rs as z).2.Tidy :=
  enterAll_invariant (fun a ha _ _ entered before => before.enter (meets a ha) entered) tidy

theorem Tidy.released (tidy : z.Tidy) (c : ClientId) (rs : ResourceSet) :
    (z.released c rs).Tidy := by
  constructor
  · refine tidy.once.filterMap _ fun p q other p' hp q' hq => ?_
    obtain ⟨-, rfl⟩ | ⟨-, -, rfl⟩ := vacate_eq_some.mp hp <;>
      obtain ⟨-, rfl⟩ | ⟨-, -, rfl⟩ := vacate_eq_some.mp hq <;> exact other
  · intro p hp
    obtain ⟨o, ho, left⟩ := List.mem_filterMap.mp hp
    obtain ⟨-, rfl⟩ | ⟨-, ⟨r, held, kept⟩, rfl⟩ := vacate_eq_some.mp left
    · exact tidy.inside p ho
    · exact ⟨r, ResourceSet.mem_sdiff.mpr ⟨held, kept⟩⟩

theorem Tidy.pose (tidy : z.Tidy) (q : Question) : (z.pose q).Tidy := by
  unfold Zones.pose
  cases q.hook with
  | may => exact tidy
  | prepare => exact tidy.enterAll fun _ ha => (mem_touched.mp ha).2
  | complete => exact tidy
  | released => exact tidy.released q.client q.resources

theorem Tidy.run (tidy : z.Tidy) (qs : List Question) : (z.run qs).Tidy := by
  induction qs generalizing z with
  | nil => exact tidy
  | cons q qs ih => exact ih (tidy.pose q)

theorem tidy_run (zs : List Zone) (qs : List Question) : (({ zones := zs } : Zones).run qs).Tidy :=
  Tidy.run ⟨List.Pairwise.nil, by simp⟩ qs

theorem zones_run (z : Zones) (qs : List Question) : (z.run qs).zones = z.zones := by
  induction qs generalizing z with
  | nil => rfl
  | cons q qs ih => exact (ih (z.pose q)).trans (zones_ask ..)

theorem tracks_released (tidy : z.Tidy) (c : ClientId) (rs : ResourceSet) :
    (z.released c rs).Tracks name d r ↔ z.Tracks name d r ∧ (d = c → r ∉ rs) := by
  constructor
  · intro tracks
    obtain ⟨p, hp, zone, own, held⟩ := (tidy.released c rs).tracks.mp tracks
    obtain ⟨o, ho, left⟩ := List.mem_filterMap.mp hp
    obtain ⟨other, rfl⟩ | ⟨-, -, rfl⟩ := vacate_eq_some.mp left
    · exact ⟨tidy.tracks.mpr ⟨p, ho, zone, own, held⟩, fun same => absurd (own.trans same) other⟩
    · obtain ⟨before, kept⟩ := ResourceSet.mem_sdiff.mp held
      exact ⟨tidy.tracks.mpr ⟨o, ho, zone, own, before⟩, fun _ => kept⟩
  · rintro ⟨tracks, kept⟩
    exact tracks.released (Decidable.not_or_of_imp kept)

/-! ### Visits -/

/-- What zones know after a question, whichever it is. -/
theorem tracks_pose (tidy : z.Tidy) (q : Question) : (z.pose q).Tracks name c r ↔
    z.Tracks name c r ∧ ¬ q.GivesUp c r ∨
    q = ⟨.prepare, c, q.resources⟩ ∧ r ∈ q.resources ∧
      ∃ a ∈ z.entered c q.resources, a.name = name ∧ r ∈ a.members := by
  obtain ⟨hook, d, rs⟩ := q
  cases hook with
  | may => simp [Zones.pose, ask, Question.GivesUp]
  | complete => simp [Zones.pose, ask, Question.GivesUp]
  | prepare =>
    refine (tracks_prepare_iff z d rs).trans ?_
    simp only [Question.GivesUp, Question.mk.injEq]
    by_cases own : d = c
    · simp [own]
    · simp [own, Ne.symm own]
  | released =>
    refine (tracks_released tidy d rs).trans ?_
    simp [Question.GivesUp, eq_comm]

/-- After `pre` the client prepares a set with `r`, which it has not released since. -/
structure Visit (qs : List Question) (c : ClientId) (r : ResourceId) (pre : List Question)
    (rs : ResourceSet) (post : List Question) : Prop where
  split : qs = pre ++ ⟨.prepare, c, rs⟩ :: post
  wanted : r ∈ rs
  stays : ∀ q ∈ post, ¬ q.GivesUp c r

/-- One more question ends a visit, makes it longer or begins it. -/
theorem visit_concat {pre post : List Question} : Visit (qs ++ [q]) c r pre rs post ↔
    (∃ rest, post = rest ++ [q] ∧ Visit qs c r pre rs rest ∧ ¬ q.GivesUp c r) ∨
    pre = qs ∧ q = ⟨.prepare, c, rs⟩ ∧ r ∈ rs ∧ post = [] := by
  constructor
  · rintro ⟨split, wanted, stays⟩
    obtain rfl | ⟨rest, last, rfl⟩ := List.eq_nil_or_concat post
    · obtain ⟨rfl, asked⟩ := List.append_inj' split rfl
      exact .inr ⟨rfl, List.singleton_inj.mp asked, wanted, rfl⟩
    · rw [List.concat_eq_append] at split stays ⊢
      rw [← List.cons_append, ← List.append_assoc] at split
      obtain ⟨rfl, same⟩ := List.append_inj' split rfl
      obtain rfl := List.singleton_inj.mp same
      obtain ⟨before, kept⟩ := List.forall_mem_append.mp stays
      exact .inl ⟨rest, rfl, ⟨rfl, wanted, before⟩, kept q List.mem_cons_self⟩
  · rintro (⟨rest, rfl, ⟨rfl, wanted, stays⟩, kept⟩ | ⟨rfl, rfl, wanted, rfl⟩)
    · exact ⟨by simp, wanted, List.forall_mem_append.mpr ⟨stays, by simpa using kept⟩⟩
    · exact ⟨rfl, wanted, by simp⟩

/-- The client has taken `r` into the zone with a preparation that succeeded. -/
def Inside (z : Zones) (qs : List Question) (name : String) (c : ClientId) (r : ResourceId) :
    Prop :=
  ∃ pre rs post, Visit qs c r pre rs post ∧ ((z.run pre).ask .prepare c rs).1 = .done ∧
    ∃ a ∈ z.zones, a.name = name ∧ r ∈ a.members

/-- The client has taken `r` into the zone with a preparation that got that far. -/
def Reached (z : Zones) (qs : List Question) (name : String) (c : ClientId) (r : ResourceId) :
    Prop :=
  ∃ pre rs post, Visit qs c r pre rs post ∧
    ∃ a ∈ (z.run pre).entered c rs, a.name = name ∧ r ∈ a.members

theorem Inside.reached (h : z.Inside qs name c r) : z.Reached qs name c r := by
  obtain ⟨pre, rs, post, visit, succeeds, a, ha, named, member⟩ := h
  refine ⟨pre, rs, post, visit, a, ?_, named, member⟩
  have approved : ((z.run pre).prepare c rs).1.approves = true := by
    rw [show ((z.run pre).prepare c rs).1 = .done from succeeds]
    rfl
  rw [entered_of_approved approved]
  exact mem_touched.mpr ⟨(zones_run z pre).symm ▸ ha, r, member, visit.wanted⟩

theorem reached_concat (z : Zones) (qs : List Question) (q : Question) :
    z.Reached (qs ++ [q]) name c r ↔ z.Reached qs name c r ∧ ¬ q.GivesUp c r ∨
      q = ⟨.prepare, c, q.resources⟩ ∧ r ∈ q.resources ∧
        ∃ a ∈ (z.run qs).entered c q.resources, a.name = name ∧ r ∈ a.members := by
  constructor
  · rintro ⟨pre, rs, post, visit, into⟩
    obtain ⟨rest, rfl, visit, kept⟩ | ⟨rfl, rfl, wanted, rfl⟩ := visit_concat.mp visit
    · exact .inl ⟨⟨pre, rs, rest, visit, into⟩, kept⟩
    · exact .inr ⟨rfl, wanted, into⟩
  · rintro (⟨⟨pre, rs, rest, visit, into⟩, kept⟩ | ⟨asked, wanted, into⟩)
    · exact ⟨pre, rs, rest ++ [q], visit_concat.mpr (.inl ⟨rest, rfl, visit, kept⟩), into⟩
    · exact ⟨qs, q.resources, [], visit_concat.mpr (.inr ⟨rfl, asked, wanted, rfl⟩), into⟩

/-- The zones know of each visit as far as it got, and of nothing else. -/
theorem tracks_run (zs : List Zone) (qs : List Question) :
    (({ zones := zs } : Zones).run qs).Tracks name c r ↔
      ({ zones := zs } : Zones).Reached qs name c r := by
  induction qs using List.reverseRecOn with
  | nil =>
    refine iff_of_false ?_ ?_
    · rintro ⟨o, found, -⟩
      cases found
    · rintro ⟨pre, rs, post, visit, -⟩
      exact absurd visit.split.symm (by simp)
  | append_singleton qs q ih =>
    rw [run_concat, tracks_pose (tidy_run zs qs), reached_concat, ih]

/-- Whoever is inside a zone occupies it, so that nobody else is inside. A zone is occupied as long
as somebody has reached it with something, be it with a preparation that failed later. -/
theorem occupant_run (zs : List Zone) (qs : List Question) (name : String) :
    let z : Zones := { zones := zs }
    (∀ c r, z.Inside qs name c r → (z.run qs).occupant name = some c) ∧
    (∀ c d r s, z.Inside qs name c r → z.Inside qs name d s → c = d) ∧
    ∀ c, (z.run qs).occupant name = some c ↔ ∃ r, z.Reached qs name c r := by
  intro z
  have occupant (c : ClientId) :
      (z.run qs).occupant name = some c ↔ ∃ r, z.Reached qs name c r := by
    rw [(tidy_run zs qs).occupant]
    simp only [tracks_run, z]
  have inside (c : ClientId) (r : ResourceId) (h : z.Inside qs name c r) :
      (z.run qs).occupant name = some c := (occupant c).mpr ⟨r, h.reached⟩
  exact ⟨inside, fun c d r s hc hd => Option.some.inj ((inside c r hc).symm.trans (inside d s hd)),
    occupant⟩

/-- A client occupies what it has reached with a preparation that was refused at a later zone, where
somebody else is under the same name. -/
theorem occupied_past_refusal :
    let x : ClientId := ⟨"x"⟩
    let y : ClientId := ⟨"y"⟩
    let zs : List Zone := [⟨"hall", .ofList [⟨"h"⟩]⟩, ⟨"dock", .ofList [⟨"d"⟩, ⟨"s"⟩]⟩,
      ⟨"hall", .ofList [⟨"s"⟩]⟩]
    let z : Zones := { zones := zs }
    let qs : List Question := [⟨.prepare, x, .ofList [⟨"h"⟩]⟩,
      ⟨.prepare, y, .ofList [⟨"d"⟩, ⟨"s"⟩]⟩, ⟨.released, y, .ofList [⟨"h"⟩, ⟨"d"⟩]⟩]
    z.Inside qs "hall" x ⟨"h"⟩ ∧ (z.run qs).occupant "hall" = some x ∧
    z.Reached qs "dock" y ⟨"s"⟩ ∧ (z.run qs).occupant "dock" = some y := by
  intro x y zs z qs
  have inside : z.Inside qs "hall" x ⟨"h"⟩ :=
    ⟨[], _, _, ⟨rfl, by decide, by decide⟩, by decide,
      ⟨"hall", .ofList [⟨"h"⟩]⟩, by decide, rfl, by decide⟩
  have reached : z.Reached qs "dock" y ⟨"s"⟩ :=
    ⟨[_], _, _, ⟨rfl, by decide, by decide⟩,
      ⟨"dock", .ofList [⟨"d"⟩, ⟨"s"⟩]⟩, by decide, rfl, by decide⟩
  exact ⟨inside, (occupant_run zs qs "hall").1 x ⟨"h"⟩ inside, reached,
    ((occupant_run zs qs "dock").2.2 y).mpr ⟨⟨"s"⟩, reached⟩⟩

/-! ### Taking preparations back -/

theorem released_enter (tidy : z.Tidy) (h : z.enter c rs a = .ok y) :
    y.released c rs = z.released c rs := by
  unfold released
  obtain ⟨-, rfl⟩ | ⟨held, found, rfl⟩ := enter_ok h
  · have gone : vacate c rs ⟨a.name, c, a.members ∩ rs⟩ = none := by
      refine Option.eq_none_iff_forall_ne_some.mpr fun p left => ?_
      obtain ⟨other, -⟩ | ⟨-, ⟨r, inside, kept⟩, -⟩ := vacate_eq_some.mp left
      · exact other rfl
      · exact kept (ResourceSet.mem_inter.mp inside).2
    simp [List.filterMap_append, gone]
  · have same (o : Occupancy) (ho : o ∈ z.occupied) :
        vacate c rs (extend a.name (a.members ∩ rs) o) = vacate c rs o := by
      by_cases here : o.zone = a.name
      · have only : o = ⟨a.name, c, held⟩ :=
          Option.some.inj ((tidy.occupancy?.mpr ⟨ho, here⟩).symm.trans found)
        have left : (held ∪ (a.members ∩ rs)) \ rs = held \ rs := by
          ext r
          simp only [ResourceSet.mem_sdiff, ResourceSet.mem_union, ResourceSet.mem_inter]
          tauto
        simp [only, extend, vacate, left]
      · rw [extend, if_neg here]
    dsimp only
    rw [List.filterMap_map]
    exact congrArg (Zones.mk z.zones) (List.filterMap_congr same)

/-- A release takes back all that a preparation of its resources has added, be it refused or not. -/
theorem released_prepare (tidy : z.Tidy) (c : ClientId) (rs : ResourceSet) :
    (z.prepare c rs).2.released c rs = z.released c rs := by
  refine (enterAll_invariant (P := fun y => y.Tidy ∧ y.released c rs = z.released c rs) ?_
    ⟨tidy, rfl⟩).2
  rintro a ha x y entered ⟨before, same⟩
  exact ⟨before.enter (mem_touched.mp ha).2 entered, (released_enter before entered).trans same⟩

theorem released_idle (tidy : z.Tidy) (nothing : ∀ name, ∀ r ∈ rs, ¬ z.Tracks name c r) :
    z.released c rs = z := by
  have same (o : Occupancy) (ho : o ∈ z.occupied) : vacate c rs o = some o := by
    refine vacate_eq_some.mpr ?_
    by_cases own : o.client = c
    · have kept (r : ResourceId) (held : r ∈ o.held) : r ∉ rs := fun given =>
        nothing o.zone r given (tidy.tracks.mpr ⟨o, ho, rfl, own, held⟩)
      obtain ⟨r, held⟩ := tidy.inside o ho
      have whole : o.held \ rs = o.held := by
        ext r
        rw [ResourceSet.mem_sdiff, and_iff_left_of_imp (kept r)]
      exact .inr ⟨own, ⟨r, held, kept r held⟩, by rw [whole]⟩
    · exact .inl ⟨own, rfl⟩
  rw [released, List.filterMap_congr same, List.filterMap_some]

/-- A release after a preparation of its resources leaves what it would have left without. So it
restores what there was if its client had none of them. -/
theorem release_undoes_prepare (zs : List Zone) (qs : List Question) (c : ClientId)
    (rs : ResourceSet) :
    let z : Zones := Zones.run { zones := zs } qs
    let y := (z.ask .prepare c rs).2
    (y.ask .released c rs).2 = (z.ask .released c rs).2 ∧
    ((∀ name, ∀ r ∈ rs, ¬ z.Tracks name c r) → (y.ask .released c rs).2 = z) := by
  intro z y
  have tidy : z.Tidy := tidy_run zs qs
  have undone : y.released c rs = z.released c rs := released_prepare tidy c rs
  exact ⟨undone, fun nothing => undone.trans (released_idle tidy nothing)⟩

/-- A preparation that the second zone refuses leaves its mark on the first until it is released. -/
theorem refusal_undone :
    let x : ClientId := ⟨"x"⟩
    let y : ClientId := ⟨"y"⟩
    let rs : ResourceSet := .ofList [⟨"d"⟩, ⟨"h"⟩]
    let zs : List Zone := [⟨"dock", .ofList [⟨"d"⟩]⟩, ⟨"hall", .ofList [⟨"h"⟩]⟩]
    let qs : List Question := [⟨.prepare, y, .ofList [⟨"h"⟩]⟩]
    let z : Zones := Zones.run { zones := zs } qs
    let p := z.ask .prepare x rs
    p.1.approves = false ∧ p.2 ≠ z ∧ (∀ name, ∀ r ∈ rs, ¬ z.Tracks name x r) ∧
    (p.2.ask .released x rs).2 = z := by
  intro x y rs zs qs z p
  have nothing : ∀ name, ∀ r ∈ rs, ¬ z.Tracks name x r := by
    rintro name r - ⟨o, found, own, -⟩
    have only : o ∈ [(⟨"hall", y, .ofList [⟨"h"⟩]⟩ : Occupancy)] := List.mem_of_find?_eq_some found
    rw [List.mem_singleton.mp only] at own
    exact absurd own (by decide)
  exact ⟨by decide, by decide, nothing, (release_undoes_prepare zs qs x rs).2 nothing⟩

end Allotment.Zones
