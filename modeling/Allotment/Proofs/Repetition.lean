import Allotment.Proofs.Freshness
import Allotment.Proofs.Visits

/-!
# Preparing again

Advisors may be asked to prepare what they have prepared. Zones answer as they did the first time
and learn nothing new (`Zones.enterAll_again`). Gates start no second task, whether the first is
still waiting or has found its gate open or failing (`Gates.ask_again`).
-/

namespace Allotment

namespace Zones

variable {z : Zones} {c : ClientId} {rs : ResourceSet} {a : Zone}

/-- Whoever is in a zone with all that it wants there changes nothing by entering. -/
theorem enter_known (tidy : z.Tidy) (meets : ∃ r ∈ a.members, r ∈ rs)
    (known : ∀ r ∈ a.members, r ∈ rs → z.Tracks a.name c r) : z.enter c rs a = .ok z := by
  obtain ⟨r, member, wanted⟩ := meets
  obtain ⟨o, found, own, -⟩ := known r member wanted
  have held : o.held ∪ (a.members ∩ rs) = o.held := by
    ext s
    rw [ResourceSet.mem_union, ResourceSet.mem_inter]
    refine or_iff_left_of_imp fun ⟨member, wanted⟩ => ?_
    obtain ⟨p, same, -, held⟩ := known s member wanted
    rwa [Option.some.inj (found.symm.trans same)]
  have kept (p : Occupancy) (hp : p ∈ z.occupied) : extend a.name (a.members ∩ rs) p = p := by
    by_cases here : p.zone = a.name
    · obtain rfl : o = p := Option.some.inj (found.symm.trans (tidy.occupancy?.mpr ⟨hp, here⟩))
      rw [extend, if_pos here, held]
    · exact if_neg here
  unfold enter
  rw [found]
  dsimp only
  rw [if_pos own, List.map_congr_left kept, List.map_id']

theorem enterAll_again (tidy : z.Tidy) {as : List Zone}
    (meets : ∀ a ∈ as, ∃ r ∈ a.members, r ∈ rs) :
    enterAll c rs as (enterAll c rs as z).2 = enterAll c rs as z := by
  induction as generalizing z with
  | nil => rfl
  | cons a as ih =>
    obtain ⟨first, rest⟩ := List.forall_mem_cons.mp meets
    obtain ⟨-, y, entered⟩ | ⟨-, e, failed⟩ := enter_cases z c rs a
    · have later : (enterAll c rs as y).2.enter c rs a = .ok (enterAll c rs as y).2 := by
        refine enter_known ((tidy.enter first entered).enterAll rest) first ?_
        intro r member wanted
        have now := (tracks_enter entered).mpr (.inr ⟨rfl, wanted, rfl, member⟩)
        exact (tracks_enterAll c rs as y).mpr (.inl now)
      have once : enterAll c rs (a :: as) z = enterAll c rs as y := by rw [enterAll, entered]
      rw [once, enterAll, later]
      exact ih (tidy.enter first entered) rest
    · have once : enterAll c rs (a :: as) z = (.error e, z) := by rw [enterAll, failed]
      rw [once]
      exact once

theorem prepare_done_iff (z : Zones) (c : ClientId) (rs : ResourceSet) :
    (z.prepare c rs).1 = .done ↔ z.mayAllocate c rs = true := by
  obtain ⟨admitted, done⟩ | ⟨refused, e, failed⟩ := enterAll_cases c rs (z.touched rs) z
  · exact iff_of_true done admitted
  · refine iff_of_false ?_ ?_
    · rw [prepare, failed]
      simp
    · exact Bool.eq_false_iff.mp refused

end Zones

theorem Gates.ask_again {g : Gates} {k : GateKey} {as : List Gates.Act}
    (kept : ∀ a ∈ as, a.releases k = false) :
    ((g.act (.prepare k)).run as).ask .prepare k.client k.resources =
      (.done, false, (g.act (.prepare k)).run as) := by
  obtain ⟨st, found⟩ :=
    Option.ne_none_iff_exists'.mp (present_run kept (present_prepare g k))
  rw [ask, prepare, found]

/-- Zones prepare just what they say yes to, and preparing it again changes neither the answer nor
the zones. Gates have done at once what they were asked for before, if it has not been released
since, whatever has become of its task. -/
theorem Advisor.prepared_again (zs : List Zone) (qs : List Zones.Question) (name : String)
    (h since : List Gates.Act) (c : ClientId) (rs : ResourceSet)
    (kept : ∀ a ∈ since, a.releases ⟨c, rs⟩ = false) :
    let z : Zones := Zones.run { zones := zs } qs
    let g : Gates := Gates.run { name := name } (h ++ .prepare ⟨c, rs⟩ :: since)
    ((z.ask .prepare c rs).1 = .done ↔ (z.ask .may c rs).1 = .yes) ∧
    (z.ask .prepare c rs).2.ask .prepare c rs = z.ask .prepare c rs ∧
    g.ask .prepare c rs = (.done, false, g) := by
  intro z g
  have tidy : z.Tidy := Zones.tidy_run zs qs
  refine ⟨?_, ?_, ?_⟩
  · refine (Zones.prepare_done_iff z c rs).trans ?_
    show _ ↔ Answer.ofBool (z.mayAllocate c rs) = .yes
    cases z.mayAllocate c rs <;> simp [Answer.ofBool]
  · have same : (z.prepare c rs).2.touched rs = z.touched rs :=
      congrArg (List.filter _) (Zones.zones_enterAll c rs (z.touched rs) z)
    show (z.prepare c rs).2.prepare c rs = z.prepare c rs
    rw [Zones.prepare, same]
    exact Zones.enterAll_again tidy fun _ ha => (Zones.mem_touched.mp ha).2
  · have split : g = ((Gates.run { name := name } h).act (.prepare ⟨c, rs⟩)).run since :=
      Gates.run_append ..
    rw [split]
    exact Gates.ask_again kept

/-- A zone that has refused a client refuses it again, and a gate that has failed is not tried
again. -/
theorem Advisor.refused_again :
    let c : ClientId := ⟨"x"⟩
    let rs : ResourceSet := .ofList [⟨"d"⟩, ⟨"h"⟩]
    let zs : List Zone := [⟨"dock", .ofList [⟨"d"⟩]⟩, ⟨"hall", .ofList [⟨"h"⟩]⟩]
    let z : Zones := Zones.run { zones := zs } [⟨.prepare, ⟨"y"⟩, .ofList [⟨"h"⟩]⟩]
    let p := z.ask .prepare c rs
    let since : List Gates.Act :=
      [.poll 0 (some (.refuses (.failed "stuck"))), .release c (.ofList [⟨"a"⟩])]
    let g : Gates := Gates.run { name := "door" } (.prepare ⟨c, rs⟩ :: since)
    p.1 = .error (.rejected "zone hall occupied by y") ∧ p.2 ≠ z ∧ p.2.ask .prepare c rs = p ∧
    (∀ a ∈ since, a.releases ⟨c, rs⟩ = false) ∧ g.state? ⟨c, rs⟩ = some .failed ∧
    g.ask .prepare c rs = (.done, false, g) := by
  intro c rs zs z p since g
  have kept : ∀ a ∈ since, a.releases ⟨c, rs⟩ = false := by decide
  obtain ⟨-, zone, gate⟩ :=
    Advisor.prepared_again zs [⟨.prepare, ⟨"y"⟩, .ofList [⟨"h"⟩]⟩] "door" [] since c rs kept
  exact ⟨by decide, by decide, zone, kept, by decide, gate⟩

end Allotment
