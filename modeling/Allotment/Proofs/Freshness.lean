import Mathlib.Data.List.Induction
import Allotment.Advisor.Gates

/-!
# What a complete preparation rests on

A preparation is complete if and only if it is under way and the last of its tasks to finish since
it began found the gate open (`complete_iff`). That need not be the task that it started: one left
from an earlier preparation of the same resources, released since, counts as well.
-/

namespace Allotment.Gates

inductive Act
  | prepare (k : GateKey)
  | release (c : ClientId) (rs : ResourceSet)
  /-- A task asks its gate, which may leave the answer for later. -/
  | poll (task : Nat) (o : Option GateOutcome)
deriving DecidableEq

def act (g : Gates) : Act → Gates
  | .prepare k => (g.prepare k).2
  | .release c rs => g.released c rs
  | .poll i o => (g.poll i o).2.2.2

def run (g : Gates) (as : List Act) : Gates := as.foldl act g

/-- The preparation is given up. -/
def Act.releases (k : GateKey) : Act → Bool
  | .release c rs => k.client == c && k.resources.meets rs
  | _ => false

/-- A task for the preparation has not finished. -/
def awaits (g : Gates) (k : GateKey) (i : Nat) : Bool := (g.waiting? i).any (·.key == k)

/-- With what a task for the preparation finishes. -/
def outcome? (g : Gates) (k : GateKey) : Act → Option GateOutcome
  | .poll i o => if g.awaits k i then o else none
  | _ => none

variable {g : Gates} {k : GateKey} {a : Act} {as bs : List Act}

theorem run_append (g : Gates) (as bs : List Act) : g.run (as ++ bs) = (g.run as).run bs :=
  List.foldl_append

theorem run_concat (g : Gates) (as : List Act) (a : Act) : g.run (as ++ [a]) = (g.run as).act a :=
  run_append g as [a]

/-! ### What acts do to a preparation -/

theorem prepare_again (present : g.state? k ≠ none) : (g.prepare k).2 = g := by
  unfold prepare
  cases found : g.state? k with
  | some st => rfl
  | none => exact absurd found present

theorem prepare_anew (absent : g.state? k = none) : (g.prepare k).2 =
    { g with states := g.states ++ [(k, .opening)], tasks := g.tasks ++ [{ key := k }] } := by
  unfold prepare
  rw [absent]

theorem tasks_anew (absent : g.state? k = none) :
    (g.act (.prepare k)).tasks = g.tasks ++ [{ key := k }] :=
  congrArg Gates.tasks (prepare_anew absent)

theorem state?_prepare (g : Gates) (k l : GateKey) :
    (g.prepare l).2.state? k = if l = k then some ((g.state? k).getD .opening) else g.state? k := by
  by_cases present : g.state? l = none
  · rw [prepare_anew present]
    unfold state? at present ⊢
    rw [List.find?_append]
    by_cases same : l = k
    · subst same
      rw [Option.map_eq_none_iff.mp present]
      simp
    · simp [same]
  · rw [prepare_again present]
    split
    · rename_i same
      subst same
      obtain ⟨st, found⟩ := Option.ne_none_iff_exists'.mp present
      rw [found]
      rfl
    · rfl

theorem state?_released (g : Gates) (k : GateKey) (c : ClientId) (rs : ResourceSet) :
    (g.released c rs).state? k =
      if (Act.release c rs).releases k then none else g.state? k := by
  have same (x : GateKey × GateState) :
      decide ((!(x.1.client == c && x.1.resources.meets rs)) = true ∧ (x.1 == k) = true) =
        (!(Act.release c rs).releases k && x.1 == k) := by
    by_cases own : x.1 = k
    · subst own
      cases held : x.1.client == c <;> simp [Act.releases, held]
    · simp [own]
  unfold state? released
  rw [List.find?_filter, funext same]
  cases (Act.release c rs).releases k <;> simp

theorem state?_settle (g : Gates) (k l : GateKey) (o : GateOutcome) :
    (g.settle l o).state? k = if l = k then (g.state? k).map fun _ => o.state else g.state? k := by
  have same : ((·.1 == k) ∘ fun x : GateKey × GateState => if x.1 = l then (l, o.state) else x) =
      (·.1 == k) := by
    funext x
    by_cases own : x.1 = l <;> simp [own]
  unfold state? settle
  rw [List.find?_map, same]
  cases found : g.states.find? (·.1 == k) with
  | none => simp
  | some x =>
    have key : x.1 = k := by simpa using List.find?_some found
    by_cases own : l = k <;> simp [key, own, eq_comm]

theorem act_poll_idle {i : Nat} (idle : g.waiting? i = none) (o : Option GateOutcome) :
    g.act (.poll i o) = g := by
  unfold act poll
  dsimp only
  rw [idle]

theorem act_poll_waiting {i : Nat} {t : GateTask} (waits : g.waiting? i = some t) :
    g.act (.poll i none) = g.setTask i { t with started := true } ∧
    ∀ o, g.act (.poll i (some o)) =
      (g.settle t.key o).setTask i { t with started := true, finished := true } := by
  unfold act poll
  dsimp only
  rw [waits]
  exact ⟨rfl, fun _ => rfl⟩

theorem awaits_iff {i : Nat} :
    g.awaits k i = true ↔ ∃ t, g.waiting? i = some t ∧ t.key = k := by
  simp [awaits, Option.any_eq_true]

theorem state?_poll (g : Gates) (k : GateKey) (i : Nat) (o : Option GateOutcome) :
    (g.act (.poll i o)).state? k =
      if g.awaits k i then (match o with
        | some o => (g.state? k).map fun _ => o.state
        | none => g.state? k)
      else g.state? k := by
  cases waits : g.waiting? i with
  | none =>
    have other : g.awaits k i = false := by rw [awaits, waits]; rfl
    rw [act_poll_idle waits, other]
    rfl
  | some t =>
    obtain ⟨asked, finished⟩ := act_poll_waiting waits
    have own : g.awaits k i = (t.key == k) := by rw [awaits, waits]; rfl
    cases o with
    | none =>
      rw [asked, ite_self]
      rfl
    | some o =>
      rw [finished, own]
      exact (state?_settle g k t.key o).trans (by simp)

/-- Every act in one statement. -/
theorem state?_act (g : Gates) (k : GateKey) (a : Act) :
    (g.act a).state? k =
      if a.releases k then none
      else if a = .prepare k then some ((g.state? k).getD .opening)
      else match g.outcome? k a with
        | some o => (g.state? k).map fun _ => o.state
        | none => g.state? k := by
  cases a with
  | prepare l =>
    refine (state?_prepare g k l).trans ?_
    simp [Act.releases, outcome?]
  | release c rs =>
    refine (state?_released g k c rs).trans ?_
    simp [outcome?]
  | poll i o =>
    refine (state?_poll g k i o).trans ?_
    simp only [Act.releases, outcome?]
    cases g.awaits k i <;> cases o <;> simp

theorem outcome?_eq_some {o : GateOutcome} (h : g.outcome? k a = some o) :
    ∃ i, a = .poll i (some o) ∧ g.awaits k i = true := by
  cases a with
  | poll i r =>
    unfold outcome? at h
    dsimp only at h
    split at h
    · rename_i awaited
      exact ⟨i, by rw [h], awaited⟩
    · cases h
  | prepare l => cases h
  | release c rs => cases h

/-! ### A preparation under way -/

theorem present_prepare (g : Gates) (k : GateKey) : (g.act (.prepare k)).state? k ≠ none := by
  rw [state?_act]
  simp [Act.releases]

theorem present_act (kept : a.releases k = false) (present : g.state? k ≠ none) :
    (g.act a).state? k ≠ none := by
  rw [state?_act, kept]
  split
  · contradiction
  · split
    · simp
    · split <;> simp [present]

theorem present_run (kept : ∀ a ∈ as, a.releases k = false) (present : g.state? k ≠ none) :
    (g.run as).state? k ≠ none := by
  induction as generalizing g with
  | nil => exact present
  | cons a as ih =>
    obtain ⟨first, rest⟩ := List.forall_mem_cons.mp kept
    exact ih rest (present_act first present)

/-- A preparation is under way if it has been asked for and not been released since. -/
theorem present_iff (absent : g.state? k = none) (h : List Act) :
    (g.run h).state? k ≠ none ↔ ∃ pre rest, h = pre ++ .prepare k :: rest ∧
      (g.run pre).state? k = none ∧ ∀ a ∈ rest, a.releases k = false := by
  constructor
  · intro present
    induction h using List.reverseRecOn with
    | nil => exact absurd absent present
    | append_singleton h a ih =>
      rw [run_concat, state?_act] at present
      split at present
      · exact absurd rfl present
      · rename_i kept
        have kept : a.releases k = false := by simpa using kept
        by_cases before : (g.run h).state? k = none
        · split at present
          · rename_i asked
            exact ⟨h, [], by rw [asked], before, by simp⟩
          · rw [before] at present
            split at present <;> exact absurd rfl present
        · obtain ⟨pre, rest, rfl, start, since⟩ := ih before
          refine ⟨pre, rest ++ [a], by simp, start, fun b hb => ?_⟩
          obtain old | new := List.mem_append.mp hb
          · exact since b old
          · rw [List.mem_singleton.mp new]
            exact kept
  · rintro ⟨pre, rest, rfl, -, kept⟩
    rw [run_append]
    exact present_run (g := (g.run pre).act (.prepare k)) kept (present_prepare _ k)

/-- No act releases the preparation, and no task for it finishes. -/
def Leaves (k : GateKey) : Gates → List Act → Prop
  | _, [] => True
  | g, a :: as => a.releases k = false ∧ g.outcome? k a = none ∧ Leaves k (g.act a) as

theorem leaves_concat : Leaves k g (as ++ [a]) ↔
    Leaves k g as ∧ a.releases k = false ∧ (g.run as).outcome? k a = none := by
  induction as generalizing g with
  | nil => simp [Leaves, run]
  | cons b as ih =>
    show _ ∧ _ ∧ Leaves k (g.act b) (as ++ [a]) ↔ _
    rw [ih]
    simp only [Leaves, run, List.foldl_cons, and_assoc]

theorem state?_run (leaves : Leaves k g as) {st : GateState} (present : g.state? k = some st) :
    (g.run as).state? k = some st := by
  induction as generalizing g with
  | nil => exact present
  | cons a as ih =>
    obtain ⟨kept, idle, rest⟩ := leaves
    refine ih rest ?_
    rw [state?_act, kept, idle, present]
    simp

/-- The tasks for a preparation are no younger than the one of a number. -/
def Oldest (k : GateKey) (n : Nat) (g : Gates) : Prop :=
  ∀ i t, g.tasks[i]? = some t → t.key = k → i ≤ n

theorem oldest_setTask {n i : Nat} {t u : GateTask} (waits : g.waiting? i = some t)
    (same : u.key = t.key) (h : Oldest k n g) : Oldest k n (g.setTask i u) := by
  intro j v found own
  obtain ⟨before, -⟩ := Option.filter_eq_some_iff.mp waits
  have put : (g.tasks.set i u)[j]? = some v := found
  rw [List.getElem?_set] at put
  split at put
  · rename_i here
    subst here
    split at put
    · cases put
      exact h i t before (same ▸ own)
    · cases put
  · exact h j v put own

/-- No second task is started for a preparation that is under way. -/
theorem oldest_act {n : Nat} (present : g.state? k ≠ none) (h : Oldest k n g) (a : Act) :
    Oldest k n (g.act a) := by
  cases a with
  | release c rs => exact h
  | prepare l =>
    by_cases anew : g.state? l = none
    · -- The new task is for something else, since this preparation is under way.
      intro i t found own
      rw [tasks_anew anew, List.getElem?_append] at found
      split at found
      · exact h i t found own
      · obtain rfl : t = { key := l } := by simpa using List.mem_of_getElem? found
        obtain rfl : l = k := own
        exact absurd anew present
    · have same : g.act (.prepare l) = g := prepare_again anew
      rw [same]
      exact h
  | poll i o =>
    cases waits : g.waiting? i with
    | none =>
      rw [act_poll_idle waits]
      exact h
    | some t =>
      obtain ⟨asked, finished⟩ := act_poll_waiting waits
      cases o with
      | none =>
        rw [asked]
        exact oldest_setTask waits rfl h
      | some o =>
        rw [finished]
        exact oldest_setTask (g := g.settle t.key o) waits rfl h

theorem oldest_run {n : Nat} (kept : ∀ a ∈ as, a.releases k = false) (present : g.state? k ≠ none)
    (h : Oldest k n g) : Oldest k n (g.run as) := by
  induction as generalizing g with
  | nil => exact h
  | cons a as ih =>
    obtain ⟨first, rest⟩ := List.forall_mem_cons.mp kept
    exact ih rest (present_act first present) (oldest_act present h a)

/-- A task that is awaited has been so since it was started. -/
theorem awaits_act {i : Nat} (old : i < g.tasks.length) (a : Act) :
    i < (g.act a).tasks.length ∧ ((g.act a).awaits k i = true → g.awaits k i = true) := by
  cases a with
  | release c rs => exact ⟨old, id⟩
  | prepare l =>
    by_cases anew : g.state? l = none
    · unfold awaits waiting?
      rw [tasks_anew anew, List.getElem?_append_left old, List.length_append]
      exact ⟨Nat.lt_add_right _ old, id⟩
    · have same : g.act (.prepare l) = g := prepare_again anew
      rw [same]
      exact ⟨old, id⟩
  | poll j o =>
    cases waits : g.waiting? j with
    | none =>
      rw [act_poll_idle waits]
      exact ⟨old, id⟩
    | some t =>
      have set (u : GateTask) (same : u.key = t.key) : i < (g.setTask j u).tasks.length ∧
          ((g.setTask j u).awaits k i = true → g.awaits k i = true) := by
        refine ⟨by simpa [setTask] using old, fun awaited => ?_⟩
        obtain ⟨v, later, own⟩ := awaits_iff.mp awaited
        have put : (g.tasks.set j u)[i]? = some v := (Option.filter_eq_some_iff.mp later).1
        by_cases here : j = i
        · subst here
          obtain rfl : u = v := by simpa [old] using put
          exact awaits_iff.mpr ⟨t, waits, same.symm.trans own⟩
        · have there : (g.setTask j u).waiting? i = g.waiting? i := by
            simp [waiting?, setTask, here]
          exact awaits_iff.mpr ⟨v, there.symm.trans later, own⟩
      obtain ⟨asked, finished⟩ := act_poll_waiting waits
      cases o with
      | none =>
        rw [asked]
        exact set _ rfl
      | some o =>
        rw [finished]
        exact set _ rfl

theorem awaits_run {i : Nat} (old : i < g.tasks.length) (awaited : (g.run as).awaits k i = true) :
    g.awaits k i = true := by
  induction as generalizing g with
  | nil => exact awaited
  | cons a as ih =>
    obtain ⟨still, before⟩ := awaits_act (k := k) old a
    exact before (ih still awaited)

/-! ### What completes a preparation -/

/-- In the history `h`, the preparation begins after `pre` and is not released again. After `mid`
the task `i`, which is for it, finds the gate open. -/
structure Opens (g : Gates) (k : GateKey) (h pre mid post : List Act) (i : Nat) : Prop where
  split : h = pre ++ .prepare k :: (mid ++ .poll i (some .opens) :: post)
  begins : (g.run pre).state? k = none
  kept : ∀ a ∈ mid ++ post, a.releases k = false
  awaited : (g.run (pre ++ .prepare k :: mid)).awaits k i = true

/-- The task that the preparation itself has started finds the gate open. -/
def Fresh (g : Gates) (k : GateKey) (h : List Act) : Prop :=
  ∃ pre mid post, g.Opens k h pre mid post (g.run pre).tasks.length

theorem complete_eq_yes_iff : g.complete k = .yes ↔ g.state? k = some .opened := by
  unfold complete
  split <;> simp_all

/-- The preparation has been under way since `pre`, and the last of its tasks to finish since then,
`i`, found the gate open. It is the one that the preparation has started, or an older one. -/
def Opened (g : Gates) (k : GateKey) (h : List Act) : Prop :=
  ∃ pre mid post i, g.Opens k h pre mid post i ∧ i ≤ (g.run pre).tasks.length ∧
    Leaves k (g.run (pre ++ .prepare k :: (mid ++ [.poll i (some .opens)]))) post

theorem opened_cases (h : (g.act a).state? k = some .opened) : a.releases k = false ∧
    (g.outcome? k a = none ∧ g.state? k = some .opened ∨
      ∃ i, a = .poll i (some .opens) ∧ g.awaits k i = true ∧ g.state? k ≠ none) := by
  rw [state?_act] at h
  split at h
  · cases h
  · rename_i kept
    refine ⟨by simpa using kept, ?_⟩
    split at h
    · rename_i asked
      cases before : g.state? k with
      | none =>
        rw [before] at h
        cases h
      | some st =>
        rw [before] at h
        exact .inl ⟨by rw [asked]; rfl, h⟩
    · cases outcome : g.outcome? k a with
      | none =>
        rw [outcome] at h
        exact .inl ⟨rfl, h⟩
      | some o =>
        obtain ⟨i, rfl, awaited⟩ := outcome?_eq_some outcome
        rw [outcome] at h
        obtain ⟨st, before, found⟩ := Option.map_eq_some_iff.mp h
        cases o with
        | opens => exact .inr ⟨i, rfl, awaited, by rw [before]; simp⟩
        | refuses e => cases found

theorem Opened.concat {h : List Act} (opened : g.Opened k h) (kept : a.releases k = false)
    (idle : (g.run h).outcome? k a = none) : g.Opened k (h ++ [a]) := by
  obtain ⟨pre, mid, post, i, ⟨rfl, begins, since, awaited⟩, old, leaves⟩ := opened
  refine ⟨pre, mid, post ++ [a], i, ⟨by simp, begins, fun b hb => ?_, awaited⟩, old,
    leaves_concat.mpr ⟨leaves, kept, ?_⟩⟩
  · rw [← List.append_assoc] at hb
    obtain before | new := List.mem_append.mp hb
    · exact since b before
    · rw [List.mem_singleton.mp new]
      exact kept
  · rw [← run_append]
    simpa using idle

theorem oldest_begun {pre mid : List Act} (begins : (g.run pre).state? k = none)
    (kept : ∀ a ∈ mid, a.releases k = false) :
    Oldest k (g.run pre).tasks.length (g.run (pre ++ .prepare k :: mid)) := by
  rw [run_append]
  refine oldest_run (g := (g.run pre).act (.prepare k)) kept (present_prepare _ k) ?_
  · intro i t found _
    have inside := (List.getElem?_eq_some_iff.mp found).1
    rw [tasks_anew begins, List.length_append, List.length_singleton] at inside
    omega

theorem opened_of_state (absent : g.state? k = none) {h : List Act}
    (opened : (g.run h).state? k = some .opened) : g.Opened k h := by
  induction h using List.reverseRecOn with
  | nil => exact absurd (absent.symm.trans opened) (by simp)
  | append_singleton h a ih =>
    rw [run_concat] at opened
    obtain ⟨kept, ⟨idle, before⟩ | ⟨i, rfl, awaited, present⟩⟩ := opened_cases opened
    · exact (ih before).concat kept idle
    · obtain ⟨pre, mid, rfl, begins, since⟩ := (present_iff absent h).mp present
      obtain ⟨t, waits, own⟩ := awaits_iff.mp awaited
      have old := oldest_begun begins since i t (Option.filter_eq_some_iff.mp waits).1 own
      exact ⟨pre, mid, [], i, ⟨by simp, begins, by simpa using since, awaited⟩, old, trivial⟩

theorem Opened.state (absent : g.state? k = none) {h : List Act} (opened : g.Opened k h) :
    (g.run h).state? k = some .opened := by
  obtain ⟨pre, mid, post, i, ⟨rfl, begins, kept, awaited⟩, -, leaves⟩ := opened
  have under_way : (g.run (pre ++ .prepare k :: mid)).state? k ≠ none :=
    (present_iff absent _).mpr
      ⟨pre, mid, rfl, begins, fun a ha => kept a (List.mem_append_left _ ha)⟩
  obtain ⟨st, present⟩ := Option.ne_none_iff_exists'.mp under_way
  have polled : (g.run (pre ++ .prepare k :: (mid ++ [.poll i (some .opens)]))).state? k =
      some .opened := by
    rw [← List.cons_append, ← List.append_assoc, run_concat, state?_poll, awaited, present]
    rfl
  have later := state?_run leaves polled
  rw [← run_append] at later
  simpa using later

/-- A preparation is complete if and only if a task of its own or an older one for the same client
and resources opened it, and no other has finished since. Where no older one was left when it began,
that was its own. -/
theorem complete_iff (name : String) (k : GateKey) (h : List Act) :
    let g : Gates := { name := name }
    ((g.run h).complete k = .yes ↔ g.Opened k h) ∧
    ((∀ pre rest, h = pre ++ .prepare k :: rest → (g.run pre).state? k = none →
      ∀ i, (g.run pre).awaits k i = false) → (g.run h).complete k = .yes → g.Fresh k h) := by
  intro g
  rw [complete_eq_yes_iff]
  have absent : g.state? k = none := rfl
  refine ⟨⟨opened_of_state absent, Opened.state absent⟩, fun left opened => ?_⟩
  obtain ⟨pre, mid, post, i, opens, old, -⟩ := opened_of_state absent opened
  obtain older | rfl := Nat.lt_or_eq_of_le old
  · have awaited := opens.awaited
    rw [run_append] at awaited
    have before := awaits_run older awaited
    rw [left pre _ opens.split opens.begins i] at before
    cases before
  · exact ⟨pre, mid, post, opens⟩

/-- A task that outlives the preparation it was started for opens the next one. -/
theorem complete_past_release :
    let k : GateKey := ⟨⟨"x"⟩, .ofList [⟨"a"⟩]⟩
    let g : Gates := { name := "door" }
    let h : List Act :=
      [.prepare k, .release k.client k.resources, .prepare k, .poll 0 (some .opens)]
    (g.run h).complete k = .yes ∧ ¬ g.Fresh k h := by
  intro k g h
  refine ⟨by decide, ?_⟩
  rintro ⟨pre, mid, post, split, begins, kept, awaited⟩
  match pre with
  | [] =>
    -- The release comes after the first preparation.
    obtain ⟨-, rest⟩ := List.cons.inj split
    have released : .release k.client k.resources ∈ mid ++ Act.poll 0 (some .opens) :: post :=
      rest ▸ List.mem_cons_self
    have inside : .release k.client k.resources ∈ mid ++ post := by simpa using released
    exact absurd (kept _ inside) (by decide)
  | [_] => simp [h] at split
  | [a, b] =>
    -- The task of the second preparation has never been asked.
    obtain ⟨rfl, split⟩ := List.cons.inj split
    obtain ⟨rfl, split⟩ := List.cons.inj split
    obtain ⟨-, rest⟩ := List.cons.inj split
    have asked : Act.poll 1 (some .opens) ∈ [Act.poll 0 (some .opens)] :=
      rest ▸ List.mem_append_right mid List.mem_cons_self
    exact absurd asked (by decide)
  | _ :: _ :: _ :: pre =>
    have asked : .prepare k ∈ [Act.poll 0 (some .opens)] := by
      obtain ⟨-, split⟩ := List.cons.inj split
      obtain ⟨-, split⟩ := List.cons.inj split
      obtain ⟨-, rest⟩ := List.cons.inj split
      exact rest ▸ List.mem_append_right pre List.mem_cons_self
    exact absurd asked (by simp)

end Allotment.Gates
