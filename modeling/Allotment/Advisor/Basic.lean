import Allotment.Advisor.Zones
import Allotment.World

/-!
# Advisors

An advisor is one of the kinds that come with the library, with its state, or one of the world's.
-/

namespace Allotment

inductive Advisor
  | zones (z : Zones)
  /-- The number tells the world whose tasks are meant. -/
  | gates (number : Nat) (g : Gates)
  /-- The number is the one the world knows the advisor by. -/
  | outside (number : Nat) (name : String)
deriving DecidableEq

namespace Advisor

variable {σ : Type}

def name : Advisor → String
  | zones _ => Zones.advisorName
  | gates _ g => g.name
  | outside _ name => name

def tag : Advisor → AdvisorTag
  | zones _ => .zones
  | gates _ g => .gates g.name
  | outside _ name => .outside name

/-! ### Gates and their tasks -/

def poll (number : Nat) (g : Gates) (i : Nat) (o : Option GateOutcome) (x : Setting σ) :
    Gates.Poll × Gates × Setting σ :=
  let (result, task, report, g) := g.poll i o
  let x := match task with
    | none => x
    | some t =>
      let x := if t.started then x else x.note (.gateAsked t.key)
      match o with
      | none => x
      | some o => x.note (.gateFinished number i t.key o)
  (result, g, x.submitAll (report.toList.map fun c => ⟨c, .normal⟩))

def pollAll (number : Nat) (polls : List (Nat × Option GateOutcome)) (g : Gates) (x : Setting σ) :
    Gates × Setting σ :=
  polls.foldl (fun (g, x) p => (poll number g p.1 p.2 x).2) (g, x)

def askGates (W : World σ) (number : Nat) (g : Gates) (h : Hook) (c : ClientId)
    (rs : ResourceSet) (x : Setting σ) : Answer × Gates × Setting σ :=
  let (answer, started, g) := g.ask h c rs
  let task := if started then some (g.tasks.length - 1) else none
  let x := match task with
    | none => x
    | some i => x.note (.gateStarted number i ⟨c, rs⟩)
  let (polls, w) := W.tasks number task x.world
  let (g, x) := pollAll number polls g { x with world := w }
  (answer, g, x.note (.advised (.gates g.name) h c rs answer))

/-! ### Asking an advisor -/

def ask (W : World σ) (h : Hook) (c : ClientId) (rs : ResourceSet) (a : Advisor) (x : Setting σ) :
    Answer × Advisor × Setting σ :=
  match a with
  | zones z =>
    let (answer, z) := z.ask h c rs
    (answer, zones z, x.note (.advised .zones h c rs answer))
  | gates number g =>
    let (answer, g, x) := askGates W number g h c rs x
    (answer, gates number g, x)
  | outside number name =>
    let (answer, submissions, w) := W.advise number h c rs x.world
    let x := { x with world := w }.note (.advised (.outside name) h c rs answer)
    (answer, a, x.submitAll submissions)

end Advisor

end Allotment
