import Allotment.Advisor.Answer
import Allotment.ResourceSet

/-!
# Zones with a single occupant

At most one client at a time has resources inside a zone. A zone is taken when an allocation that
touches it is prepared, and vacated when the last resource in it has been released. Zones of one
name share their occupant.
-/

namespace Allotment

structure Zone where
  name : String
  members : ResourceSet
deriving DecidableEq

structure Occupancy where
  zone : String
  client : ClientId
  held : ResourceSet
deriving DecidableEq

structure Zones where
  zones : List Zone
  occupied : List Occupancy := []
deriving DecidableEq

namespace Zones

def advisorName : String := "single-occupant-zone"

def occupancy? (z : Zones) (name : String) : Option Occupancy :=
  z.occupied.find? (·.zone == name)

def occupant (z : Zones) (name : String) : Option ClientId :=
  (z.occupancy? name).map (·.client)

/-- The zones with a member in the set, in their order. -/
def touched (z : Zones) (rs : ResourceSet) : List Zone :=
  z.zones.filter fun a => a.members.meets rs

/-- Whether no touched zone has another occupant. -/
def mayAllocate (z : Zones) (c : ClientId) (rs : ResourceSet) : Bool :=
  (z.touched rs).all fun a => (z.occupant a.name).all (· == c)

/-! ### Taking zones -/

/-- Adds what `c` holds in a zone to its occupancy. -/
def extend (name : String) (inside : ResourceSet) (o : Occupancy) : Occupancy :=
  if o.zone = name then { o with held := o.held ∪ inside } else o

def enter (z : Zones) (c : ClientId) (rs : ResourceSet) (a : Zone) : Except AdvisorError Zones :=
  match z.occupancy? a.name with
  | none => .ok { z with occupied := z.occupied ++ [⟨a.name, c, a.members ∩ rs⟩] }
  | some o =>
    if o.client = c then .ok { z with occupied := z.occupied.map (extend a.name (a.members ∩ rs)) }
    else .error (.rejected ("zone " ++ a.name ++ " occupied by " ++ o.client.name))

/-- Lets `c` into the zones one after the other; those before one that is taken stay entered. -/
def enterAll (c : ClientId) (rs : ResourceSet) : List Zone → Zones → Answer × Zones
  | [], z => (.done, z)
  | a :: as, z =>
    match z.enter c rs a with
    | .ok y => enterAll c rs as y
    | .error e => (.error e, z)

def prepare (z : Zones) (c : ClientId) (rs : ResourceSet) : Answer × Zones :=
  enterAll c rs (z.touched rs) z

/-! ### Vacating zones -/

/-- What is left of an occupancy after `c` has released the resources. -/
def vacate (c : ClientId) (rs : ResourceSet) (o : Occupancy) : Option Occupancy :=
  if o.client = c then
    let held := o.held \ rs
    if held.isEmpty then none else some { o with held }
  else some o

def released (z : Zones) (c : ClientId) (rs : ResourceSet) : Zones :=
  { z with occupied := z.occupied.filterMap (vacate c rs) }

/-- A preparation of zones is complete as soon as it is made. -/
def ask (z : Zones) (h : Hook) (c : ClientId) (rs : ResourceSet) : Answer × Zones :=
  match h with
  | .may => (.ofBool (z.mayAllocate c rs), z)
  | .prepare => z.prepare c rs
  | .complete => (.yes, z)
  | .released => (.done, z.released c rs)

@[simp] theorem zones_enter {z y : Zones} {c : ClientId} {rs : ResourceSet} {a : Zone}
    (h : z.enter c rs a = .ok y) : y.zones = z.zones := by
  unfold enter at h
  split at h
  · cases h; rfl
  · split at h <;> cases h
    rfl

theorem zones_enterAll (c : ClientId) (rs : ResourceSet) (as : List Zone) (z : Zones) :
    (enterAll c rs as z).2.zones = z.zones := by
  induction as generalizing z with
  | nil => rfl
  | cons a as ih =>
    unfold enterAll
    split
    · rename_i y hy
      rw [ih, zones_enter hy]
    · rfl

/-- Asking never changes which zones are guarded. -/
theorem zones_ask (z : Zones) (h : Hook) (c : ClientId) (rs : ResourceSet) :
    (z.ask h c rs).2.zones = z.zones := by
  cases h
  · rfl
  · exact zones_enterAll ..
  · rfl
  · rfl

end Zones

end Allotment
