import Allotment.Proofs.Frames

/-!
# What advisors do to a setting

An advisor answers, submits, changes, and changes the world (`Advisor.respond`). The setting that it
leaves differs by what has been submitted and by what the `outline` of the journal shows
(`Setting.Leads`). No more can be seen of it without knowing of what kind the advisor is.
-/

namespace Allotment

variable {σ τ : Type}

def AdvisorTag.name : AdvisorTag → String
  | zones => Zones.advisorName
  | gates name | outside name => name

/-- What an entry shows of the calls to the outside and of what comes of them. How commands come in,
how gates are asked, and of which kind an advisor is, is left out. -/
def Event.outlined : Event → Option Event
  | entered _ | gateStarted .. | gateAsked _ | gateFinished .. => none
  | advised tag h c rs answer => some (advised (.outside tag.name) h c rs answer)
  | e => some e

def Journal.outline (j : Journal) : Journal := j.filterMap Event.outlined

namespace Gates

/-- What tasks that ask their gates report, and how the gates are afterwards. -/
def reports (g : Gates) : List (Nat × Option GateOutcome) → List Submission × Gates
  | [] => ([], g)
  | (i, o) :: polls =>
    let (_, _, report, g) := g.poll i o
    let (more, g) := g.reports polls
    ((report.toList.map fun c => ⟨c, .normal⟩) ++ more, g)

theorem name_reports (g : Gates) (polls : List (Nat × Option GateOutcome)) :
    (g.reports polls).2.name = g.name := by
  induction polls generalizing g with
  | nil => rfl
  | cons p polls ih => exact (ih _).trans (g.name_poll p.1 p.2)

end Gates

namespace Advisor

/-- What an advisor answers and submits, and how it and the world are afterwards. -/
def respond (W : World σ) (h : Hook) (c : ClientId) (rs : ResourceSet) (w : σ) :
    Advisor → Answer × List Submission × Advisor × σ
  | zones z =>
    let (answer, z) := z.ask h c rs
    (answer, [], zones z, w)
  | gates number g =>
    let (answer, started, g) := g.ask h c rs
    let (polls, w) := W.tasks number (if started then some (g.tasks.length - 1) else none) w
    let (submissions, g) := g.reports polls
    (answer, submissions, gates number g, w)
  | outside number name =>
    let (answer, submissions, w) := W.advise number h c rs w
    (answer, submissions, outside number name, w)

/-- What comes of a poll: what is reported, and how the advisors are afterwards. -/
def polled (number i : Nat) (o : Option GateOutcome) :
    List Advisor → List Submission × List Advisor
  | [] => ([], [])
  | .gates n g :: as =>
    if n = number then
      ((g.poll i o).2.2.1.toList.map fun c => ⟨c, .normal⟩, .gates n (g.poll i o).2.2.2 :: as)
    else
      let (ss, as) := polled number i o as
      (ss, .gates n g :: as)
  | a :: as =>
    let (ss, as) := polled number i o as
    (ss, a :: as)

end Advisor

/-! ### What a setting shows -/

namespace Journal

theorem outline_append (es j : Journal) : outline (es ++ j) = outline es ++ outline j :=
  List.filterMap_append

theorem outline_hidden {es : List Event} (h : ∀ e ∈ es, e.outlined = none) : outline es = [] :=
  List.filterMap_eq_nil_iff.mpr h

end Journal

namespace Setting

variable {x y z : Setting σ} {ss ts : List Submission} {es fs : List Event}

theorem submitAll_append (x : Setting σ) (ss ts : List Submission) :
    x.submitAll (ss ++ ts) = (x.submitAll ss).submitAll ts := List.foldl_append

@[simp] theorem world_submitAll (x : Setting σ) (ss : List Submission) :
    (x.submitAll ss).world = x.world := by
  induction ss generalizing x with
  | nil => rfl
  | cons s ss ih => exact (ih _).trans (world_submit x s)

/-- What comes in depends on the queue only. -/
theorem submitAll_congr {x : Setting σ} {y : Setting τ} (queue : y.queue = x.queue)
    (entered : y.journal.entered = x.journal.entered) (ss : List Submission) :
    (y.submitAll ss).queue = (x.submitAll ss).queue ∧
      (y.submitAll ss).journal.entered = (x.submitAll ss).journal.entered := by
  induction ss generalizing x y with
  | nil => exact ⟨queue, entered⟩
  | cons s ss ih =>
    have next : (y.submit s).queue = (x.submit s).queue ∧
        (y.submit s).journal.entered = (x.submit s).journal.entered := by
      unfold submit
      rw [queue]
      split
      · exact ⟨queue, entered⟩
      · exact ⟨rfl, by simp [Journal.entered] at entered ⊢; exact entered⟩
    exact ih next.1 next.2

/-- From `x` on these have been submitted, and this is what the journal shows besides. -/
structure Leads (x y : Setting σ) (ss : List Submission) (es : List Event) : Prop where
  queue : y.queue = (x.submitAll ss).queue
  entered : y.journal.entered = (x.submitAll ss).journal.entered
  outline : y.journal.outline = es ++ x.journal.outline

theorem Leads.trans (h : Leads x y ss es) (k : Leads y z ts fs) :
    Leads x z (ss ++ ts) (fs ++ es) := by
  obtain ⟨queue, entered⟩ := submitAll_congr h.queue h.entered ts
  rw [← submitAll_append] at queue entered
  exact ⟨k.queue.trans queue, k.entered.trans entered, by
    rw [k.outline, h.outline, List.append_assoc]⟩

theorem leads_turn (x : Setting σ) (w : σ) : Leads x { x with world := w } [] [] :=
  ⟨rfl, rfl, rfl⟩

theorem leads_hidden (queue : y.queue = x.queue)
    (h : x.Grows (fun e => e.isTraffic = false ∧ e.outlined = none) y) : Leads x y [] [] := by
  obtain ⟨es, hidden, journal⟩ := h
  refine ⟨queue, ?_, ?_⟩
  · rw [journal]
    exact Journal.entered_append (fun e he => (hidden e he).1) x.journal
  · rw [journal, Journal.outline_append, Journal.outline_hidden fun e he => (hidden e he).2]

theorem leads_note {e : Event} (silent : Journal.entered [e] = []) (x : Setting σ) :
    Leads x (x.note e) [] (Journal.outline [e]) := by
  refine ⟨rfl, ?_, Journal.outline_append [e] x.journal⟩
  show Journal.entered ([e] ++ x.journal) = Journal.entered x.journal
  rw [Journal.entered, List.filterMap_append, ← Journal.entered, silent]
  rfl

theorem leads_submitAll (x : Setting σ) (ss : List Submission) :
    Leads x (x.submitAll ss) ss [] := by
  refine ⟨rfl, rfl, ?_⟩
  obtain ⟨es, entries, journal⟩ := grows_submitAll x ss
  rw [journal, Journal.outline_append, Journal.outline_hidden fun e he => ?_]
  obtain ⟨q, rfl⟩ := entries e he
  rfl

/-! ### What advisors do to a setting -/

theorem leads_poll (number : Nat) (g : Gates) (i : Nat) (o : Option GateOutcome) (x : Setting σ) :
    (Advisor.poll number g i o x).2.1 = (g.poll i o).2.2.2 ∧
      (Advisor.poll number g i o x).2.2.world = x.world ∧
      Leads x (Advisor.poll number g i o x).2.2
        ((g.poll i o).2.2.1.toList.map fun c => ⟨c, .normal⟩) [] := by
  obtain ⟨y, queue, world, polls, same⟩ := poll_cases number g i o x
  have hidden : Leads x y [] [] := leads_hidden queue (polls.mono fun e poll => by
    cases e <;> first | exact ⟨rfl, rfl⟩ | cases poll)
  rw [same]
  exact ⟨rfl, (world_submitAll y _).trans world, hidden.trans (leads_submitAll y _)⟩

theorem leads_pollAll (number : Nat) (polls : List (Nat × Option GateOutcome)) (g : Gates)
    (x : Setting σ) :
    (Advisor.pollAll number polls g x).1 = (g.reports polls).2 ∧
      (Advisor.pollAll number polls g x).2.world = x.world ∧
      Leads x (Advisor.pollAll number polls g x).2 (g.reports polls).1 [] := by
  unfold Advisor.pollAll
  induction polls generalizing g x with
  | nil => exact ⟨rfl, rfl, rfl, rfl, rfl⟩
  | cons p polls ih =>
    obtain ⟨gates, world, leads⟩ := leads_poll number g p.1 p.2 x
    obtain ⟨allGates, allWorld, further⟩ := ih (g.poll p.1 p.2).2.2.2
      (Advisor.poll number g p.1 p.2 x).2.2
    have next : (Advisor.poll number g p.1 p.2 x).2 =
        ((g.poll p.1 p.2).2.2.2, (Advisor.poll number g p.1 p.2 x).2.2) := Prod.ext gates rfl
    rw [← next] at allGates allWorld further
    exact ⟨allGates, allWorld.trans world, leads.trans further⟩

/-- An advisor does what its response says: it submits, and its answer is written down. -/
theorem ask_responds (W : World σ) (h : Hook) (c : ClientId) (rs : ResourceSet) (a : Advisor)
    (x : Setting σ) :
    let r := a.respond W h c rs x.world
    let asked := Advisor.ask W h c rs a x
    asked.1 = r.1 ∧ asked.2.1 = r.2.2.1 ∧ asked.2.2.world = r.2.2.2 ∧ r.2.2.1.name = a.name ∧
      Leads x asked.2.2 r.2.1 [.advised (.outside a.name) h c rs r.1] := by
  cases a with
  | zones z => exact ⟨rfl, rfl, rfl, rfl, leads_note rfl x⟩
  | outside number name =>
    have noted := (leads_turn x (W.advise number h c rs x.world).2.2).trans
      (leads_note (e := .advised (.outside name) h c rs (W.advise number h c rs x.world).1) rfl _)
    exact ⟨rfl, rfl, world_submitAll _ _, rfl, noted.trans (leads_submitAll _ _)⟩
  | gates number g =>
    dsimp only [Advisor.ask, Advisor.askGates, Advisor.respond]
    have named := g.name_ask h c rs
    generalize g.ask h c rs = asked at named ⊢
    obtain ⟨answer, started, g'⟩ := asked
    dsimp only at named ⊢
    generalize (if started then some (g'.tasks.length - 1) else none) = task
    -- The task that is started, if any, has been written down in `y`.
    have polled {y : Setting σ} (world : y.world = x.world) (start : Leads x y [] []) :
        let (polls, w) := W.tasks number task x.world
        let z := Advisor.pollAll number (W.tasks number task y.world).1 g'
          { y with world := (W.tasks number task y.world).2 }
        Advisor.gates number z.1 = .gates number (g'.reports polls).2 ∧ z.2.world = w ∧
          (g'.reports polls).2.name = g.name ∧
          Leads x (z.2.note (.advised (.gates z.1.name) h c rs answer)) (g'.reports polls).1
            [.advised (.outside g.name) h c rs answer] := by
      rw [world]
      rcases W.tasks number task x.world with ⟨polls, w⟩
      obtain ⟨gates, turned, leads⟩ := leads_pollAll number polls g' { y with world := w }
      have name : (g'.reports polls).2.name = g.name := (g'.name_reports polls).trans named
      have through := ((start.trans (leads_turn y w)).trans leads).trans
        (leads_note (e := .advised (.gates g.name) h c rs answer) rfl _)
      rw [List.append_nil] at through
      refine ⟨congrArg _ gates, turned, name, ?_⟩
      dsimp only
      rw [gates, name]
      exact through
    cases task with
    | none => exact ⟨rfl, polled rfl ⟨rfl, rfl, rfl⟩⟩
    | some i =>
      exact ⟨rfl, polled (y := x.note (.gateStarted number i ⟨c, rs⟩)) rfl
        (leads_hidden rfl (grows_note ⟨rfl, rfl⟩ x))⟩

theorem pollGates_reports (number i : Nat) (o : Option GateOutcome) (as : List Advisor)
    (x : Setting σ) :
    (Allocator.pollGates number i o as x).2.1 = (Advisor.polled number i o as).2 ∧
      (Allocator.pollGates number i o as x).2.2.world = x.world ∧
      Leads x (Allocator.pollGates number i o as x).2.2 (Advisor.polled number i o as).1 [] := by
  induction as with
  | nil => exact ⟨rfl, rfl, rfl, rfl, rfl⟩
  | cons a as ih =>
    obtain ⟨advisors, world, leads⟩ := ih
    cases a with
    | zones z => exact ⟨congrArg (_ :: ·) advisors, world, leads⟩
    | outside n name => exact ⟨congrArg (_ :: ·) advisors, world, leads⟩
    | gates n g =>
      unfold Allocator.pollGates Advisor.polled
      split
      · obtain ⟨gates, still, report⟩ := leads_poll n g i o x
        exact ⟨congrArg (fun g => .gates n g :: as) gates, still, report⟩
      · exact ⟨congrArg (_ :: ·) advisors, world, leads⟩

end Setting

end Allotment
