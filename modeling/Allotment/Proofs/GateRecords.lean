import Allotment.Proofs.Consultation
import Allotment.Proofs.Freshness

/-!
# What the journal shows of gates

A task that starts or finishes, and a release that gates hear of, are entries in the journal. What
gates know is read off these entries (`Gates.Mirrors`), and so is what they knew when somebody
asked them.
-/

namespace Allotment

variable {σ : Type} {W : World σ} {number : Nat} {k : GateKey}

namespace Event

/-- What the gates know of a preparation after the event, given what they knew before. -/
def gate (k : GateKey) : Event → Option GateState → Option GateState
  | gateStarted _ _ l, st => if l = k then some .opening else st
  | gateFinished _ _ l o, st => if l = k then st.map fun _ => o.state else st
  | advised _ .released c rs _, st => if (Gates.Act.release c rs).releases k then none else st
  | _, st => st

/-- The gates hear that what was prepared has been released. -/
def forgets (k : GateKey) : Event → Bool
  | advised _ .released c rs _ => (Gates.Act.release c rs).releases k
  | _ => false

/-- Can change what gates know. -/
def isGate : Event → Bool
  | gateStarted .. | gateFinished .. | advised _ .released .. => true
  | _ => false

/-- A task starts or finishes. -/
def isTask : Event → Bool
  | gateStarted .. | gateFinished .. => true
  | _ => false

def isStart : Event → Bool
  | gateStarted .. => true
  | _ => false

/-- Says nothing of gates, and of what they are asked for. -/
def isAloof : Event → Bool
  | gateStarted .. | gateFinished .. | advised _ .released .. | locked _ | called .. => false
  | _ => true

theorem other_of_aloof {e : Event} (h : e.isAloof = true) : e.isGate = false := by
  cases e with
  | advised _ hook => cases hook <;> simp_all [isAloof, isGate]
  | _ => simp_all [isAloof, isGate]

theorem gate_other {e : Event} (other : e.isGate = false) (k : GateKey)
    (st : Option GateState) : e.gate k st = st := by
  cases e with
  | advised _ hook => cases hook <;> simp_all [isGate, gate]
  | _ => simp_all [isGate, gate]

theorem task_of_other {e : Event} (other : e.isGate = false) : e.isTask = false := by
  cases e <;> simp_all [isGate, isTask]

theorem aloof_of_entered {e : Event} (h : ∃ q, e = .entered q) : e.isAloof = true := by
  obtain ⟨q, rfl⟩ := h
  rfl

theorem gate_ne_none {e : Event} {st : Option GateState} (kept : e.forgets k = false)
    (known : st ≠ none) : e.gate k st ≠ none := by
  cases e with
  | gateStarted n i l =>
    dsimp only [gate]
    split <;> simp [known]
  | gateFinished n i l o =>
    dsimp only [gate]
    split <;> simp [known]
  | advised tag hook c rs answer =>
    cases hook with
    | released => simpa [gate, show (Gates.Act.release c rs).releases k = false from kept]
    | _ => exact known
  | _ => exact known

/-- Only a task that finds its gate open makes a preparation complete. -/
theorem opened_of_gate {e : Event} {st : Option GateState} (h : e.gate k st = some .opened) :
    st = some .opened ∨ ∃ n task, e = .gateFinished n task k .opens := by
  cases e with
  | gateStarted n i l =>
    dsimp only [gate] at h
    split at h
    · cases h
    · exact .inl h
  | gateFinished n i l o =>
    dsimp only [gate] at h
    split at h
    · rename_i own
      obtain ⟨_, -, state⟩ := Option.map_eq_some_iff.mp h
      cases o with
      | opens => exact .inr ⟨n, i, by rw [own]⟩
      | refuses e => cases state
    · exact .inl h
  | advised tag hook c rs answer =>
    cases hook with
    | released =>
      dsimp only [gate] at h
      split at h
      · cases h
      · exact .inl h
    | _ => exact .inl h
  | _ => exact .inl h

end Event

namespace Journal

/-! ### What the journal says of gates -/

variable {j : Journal}

def gate? (j : Journal) (k : GateKey) : Option GateState := j.foldr (Event.gate k) none

/-- A task for a preparation has been started and has not finished. -/
structure Opening (j : Journal) (number task : Nat) (k : GateKey) : Prop where
  started : .gateStarted number task k ∈ j
  unfinished : ∀ o, .gateFinished number task k o ∉ j

/-- A preparation has been begun, and the gates have not heard since of its release. -/
def Remembers (j : Journal) (k : GateKey) : Prop :=
  ∃ since number task before, j = since ++ .gateStarted number task k :: before ∧
    ∀ e ∈ since, e.forgets k = false

theorem gate?_ne_none_iff : j.gate? k ≠ none ↔ j.Remembers k := by
  induction j with
  | nil =>
    refine ⟨fun known => absurd rfl known, ?_⟩
    rintro ⟨since, n, i, before, split, -⟩
    cases since <;> cases split
  | cons e j ih =>
    show e.gate k (gate? j k) ≠ none ↔ _
    constructor
    · intro known
      have further (kept : e.forgets k = false) (before : gate? j k ≠ none) :
          Remembers (e :: j) k := by
        obtain ⟨since, n, i, start, rfl, unreleased⟩ := ih.mp before
        exact ⟨e :: since, n, i, start, rfl, List.forall_mem_cons.mpr ⟨kept, unreleased⟩⟩
      cases e with
      | gateStarted n i l =>
        by_cases own : l = k
        · exact ⟨[], n, i, j, by rw [own]; rfl, by simp⟩
        · exact further rfl (by simpa [Event.gate, own] using known)
      | gateFinished n i l o =>
        refine further rfl fun none => ?_
        simp [Event.gate, none] at known
      | advised tag hook c rs answer =>
        cases hook with
        | released =>
          have kept : (Gates.Act.release c rs).releases k = false := by
            refine Bool.eq_false_iff.mpr fun released => ?_
            simp [Event.gate, released] at known
          exact further kept (by simpa [Event.gate, kept] using known)
        | _ => exact further rfl known
      | _ => exact further rfl known
    · rintro ⟨since, n, i, before, split, kept⟩
      cases since with
      | nil =>
        obtain ⟨rfl, rfl⟩ := List.cons.inj split
        simp [Event.gate]
      | cons x since =>
        obtain ⟨rfl, rfl⟩ := List.cons.inj split
        obtain ⟨first, rest⟩ := List.forall_mem_cons.mp kept
        exact Event.gate_ne_none first (ih.mpr ⟨since, n, i, before, rfl, rest⟩)

/-- What the preparation of `k` led to: a task, unless the gates knew of it already. -/
def Began (number : Nat) (k : GateKey) (asked prior : Journal) : Prop :=
  (prior.gate? k ≠ none ∧ ∀ n task l, .gateStarted n task l ∉ asked) ∨
  ∃ task since, asked = since ++ [.gateStarted number task k] ∧
    ∀ n task l, .gateStarted n task l ∉ since

/-- What `c` claims has been prepared last, leave for it having been given just before. -/
def JustPrepared (number : Nat) (c : ClientId) (claimed : ResourceSet) (j : Journal) : Prop :=
  ∃ asked prior : Journal, j = .consulted .prepare c claimed true :: (asked ++ prior) ∧
    prior.head? = some (.consulted .may c claimed true) ∧
    (∀ e ∈ asked, e.Poses .prepare c claimed) ∧ Began number ⟨c, claimed⟩ asked prior

/-- What the entries before one show, where the gates of a number are the only advisor. -/
def Gated (number : Nat) : Event → Journal → Prop
  | .gateStarted n _ k, j => n = number ∧ j.gate? k = none ∧ ∀ r ∈ k.resources, j.holder r = none
  | .gateFinished n task k _, j => n = number ∧ j.Opening number task k
  | .locked g, j => g.claimed ≠ ∅ → j.JustPrepared number g.client g.claimed
  | .called g _, j => g.claimed ≠ ∅ → ∃ asked prior : Journal,
      j = .consulted .complete g.client g.claimed true :: (asked ++ prior) ∧
      (∀ e ∈ asked, e.isBackground = true) ∧ prior.gate? ⟨g.client, g.claimed⟩ = some .opened ∧
      ∀ r ∈ g.claimed, prior.locker r = some g ∧ prior.holder r = some g.client
  | _, _ => True

theorem gated_of_aloof {e : Event} (h : e.isAloof = true) (j : Journal) : Gated number e j := by
  cases e <;> simp_all [Event.isAloof, Gated]

end Journal

open Journal

/-- A poll starts no task. -/
theorem Setting.idle_poll (number : Nat) (g : Gates) (i : Nat) (o : Option GateOutcome)
    (x : Setting σ) : x.Grows (fun e => e.isStart = false) (Advisor.poll number g i o x).2.2 := by
  obtain ⟨y, -, -, polled, same⟩ := poll_cases number g i o x
  rw [same]
  refine (polled.mono fun e poll => ?_).trans ((grows_submitAll y _).mono fun e entered => ?_)
  · cases e <;> first | rfl | cases poll
  · obtain ⟨q, rfl⟩ := entered
    rfl

theorem Setting.idle_pollAll (number : Nat) (polls : List (Nat × Option GateOutcome)) (g : Gates)
    (x : Setting σ) :
    x.Grows (fun e => e.isStart = false) (Advisor.pollAll number polls g x).2 := by
  unfold Advisor.pollAll
  induction polls generalizing g x with
  | nil => exact grows_refl x
  | cons p polls ih => exact (idle_poll number g p.1 p.2 x).trans (ih _ _)

/-- Gates that are asked start a task, if they start one, and then tasks are polled. -/
theorem Advisor.askGates_cases (W : World σ) (number : Nat) (g : Gates) (h : Hook) (c : ClientId)
    (rs : ResourceSet) (x : Setting σ) :
    ∃ (y : Setting σ) (polls : List (Nat × Option GateOutcome)),
      y.journal = (if (g.ask h c rs).2.1 then
        [.gateStarted number ((g.ask h c rs).2.2.tasks.length - 1) ⟨c, rs⟩] else []) ++ x.journal ∧
      let polled := pollAll number polls (g.ask h c rs).2.2 y
      askGates W number g h c rs x = ((g.ask h c rs).1, polled.1,
        polled.2.note (.advised (.gates polled.1.name) h c rs (g.ask h c rs).1)) := by
  unfold askGates
  rcases g.ask h c rs with ⟨answer, started, g'⟩
  cases started with
  | false => exact ⟨{ x with world := _ }, _, rfl, rfl⟩
  | true => exact ⟨{ x.note _ with world := _ }, _, rfl, rfl⟩

namespace Gates

variable {g : Gates} {j : Journal} {gone : GateKey → Bool}

/-- The journal shows what the gates know, but for preparations that are gone without an entry so
far, and which of their tasks have not finished. -/
structure Mirrors (g : Gates) (number : Nat) (gone : GateKey → Bool) (j : Journal) : Prop where
  state : ∀ k, g.state? k = if gone k then none else j.gate? k
  known : ∀ i k, .gateStarted number i k ∈ j → i < g.tasks.length
  awaits : ∀ i k, g.awaits k i = true ↔ j.Opening number i k
  gated : Always (Gated number) j

theorem initial_mirrors (name : String) (number : Nat) :
    Mirrors { name := name } number (fun _ => false) [] where
  state _ := rfl
  known _ _ h := by cases h
  awaits i k := by
    refine ⟨fun h => ?_, fun h => by cases h.started⟩
    simp [Gates.awaits, waiting?] at h
  gated := trivial

theorem Mirrors.entry {e : Event} {gone' : GateKey → Bool} (m : g.Mirrors number gone j)
    (state : ∀ k, (if gone k then none else j.gate? k) =
      if gone' k then none else e.gate k (j.gate? k))
    (silent : e.isTask = false) (gated : Gated number e j) :
    g.Mirrors number gone' (e :: j) where
  state k := (m.state k).trans (state k)
  known i k h := by
    rcases List.mem_cons.mp h with rfl | h
    · cases silent
    · exact m.known i k h
  awaits i k := by
    refine (m.awaits i k).trans ⟨fun h => ⟨List.mem_cons_of_mem _ h.started, fun o ho => ?_⟩,
      fun h => ⟨?_, fun o ho => h.unfinished o (List.mem_cons_of_mem _ ho)⟩⟩
    · rcases List.mem_cons.mp ho with rfl | ho
      · cases silent
      · exact h.unfinished o ho
    · rcases List.mem_cons.mp h.started with rfl | h
      · cases silent
      · exact h
  gated := ⟨gated, m.gated⟩

theorem Mirrors.note {e : Event} (m : g.Mirrors number gone j) (other : e.isGate = false)
    (gated : Gated number e j) : g.Mirrors number gone (e :: j) :=
  m.entry (fun k => by rw [Event.gate_other other]) (Event.task_of_other other) gated

theorem Mirrors.grow {es : List Event} (m : g.Mirrors number gone j)
    (aloof : ∀ e ∈ es, e.isAloof = true) : g.Mirrors number gone (es ++ j) := by
  induction es with
  | nil => exact m
  | cons e es ih =>
    obtain ⟨first, rest⟩ := List.forall_mem_cons.mp aloof
    exact (ih rest).note (Event.other_of_aloof first) (gated_of_aloof first _)

theorem Mirrors.grows {x y : Setting σ} (m : g.Mirrors number gone x.journal)
    (h : x.Grows (fun e => e.isAloof = true) y) : g.Mirrors number gone y.journal := by
  obtain ⟨es, aloof, journal⟩ := h
  exact journal ▸ m.grow aloof

/-! ### Tasks -/

theorem awaits_setTask {i : Nat} {t u : GateTask} (waits : g.waiting? i = some t)
    (l : GateKey) (n : Nat) :
    (g.setTask i u).awaits l n = if n = i then !u.finished && u.key == l else g.awaits l n := by
  obtain ⟨found, -⟩ := Option.filter_eq_some_iff.mp waits
  have inside : i < g.tasks.length := (List.getElem?_eq_some_iff.mp found).1
  unfold Gates.awaits waiting? setTask
  dsimp only
  by_cases here : n = i
  · subst here
    rw [List.getElem?_set_self inside, if_pos rfl]
    cases finished : u.finished <;> simp [finished]
  · rw [List.getElem?_set_ne (Ne.symm here), if_neg here]

theorem Mirrors.start {i : Nat} {t : GateTask} (m : g.Mirrors number gone j)
    (waits : g.waiting? i = some t) :
    (g.setTask i { t with started := true }).Mirrors number gone j where
  state := m.state
  known n l h := by simpa [setTask] using m.known n l h
  awaits n l := by
    rw [awaits_setTask waits, ← m.awaits]
    split
    · rename_i here
      have unfinished := (Option.filter_eq_some_iff.mp waits).2
      rw [here, Gates.awaits, waits]
      simpa using fun _ => unfinished
    · rfl
  gated := m.gated

theorem Mirrors.finish {i : Nat} {t : GateTask} (m : g.Mirrors number gone j)
    (waits : g.waiting? i = some t) (o : GateOutcome) :
    ((g.settle t.key o).setTask i { t with started := true, finished := true }).Mirrors number gone
      (.gateFinished number i t.key o :: j) where
  state l := by
    show (g.settle t.key o).state? l =
      if gone l then none else Event.gate l (.gateFinished number i t.key o) (j.gate? l)
    rw [state?_settle, m.state]
    dsimp only [Event.gate]
    split <;> split <;> rfl
  known n l h := by
    have before : .gateStarted number n l ∈ j := by simpa using h
    simpa [setTask, settle] using m.known n l before
  awaits n l := by
    have own : j.Opening number i t.key := (m.awaits i t.key).mp (awaits_iff.mpr ⟨t, waits, rfl⟩)
    rw [awaits_setTask (g := g.settle t.key o) waits]
    by_cases here : n = i
    · subst here
      refine iff_of_false (by simp) fun h => ?_
      by_cases same : l = t.key
      · exact h.unfinished o (same ▸ List.mem_cons_self)
      · -- A task is for one preparation only.
        have started : .gateStarted number n l ∈ j := by simpa using h.started
        have other : j.Opening number n l :=
          ⟨started, fun o ho => h.unfinished o (List.mem_cons_of_mem _ ho)⟩
        obtain ⟨u, found, key⟩ := awaits_iff.mp ((m.awaits n l).mpr other)
        obtain rfl : t = u := Option.some.inj (waits.symm.trans found)
        exact same key.symm
    · rw [if_neg here]
      refine (m.awaits n l).trans ⟨fun h => ⟨List.mem_cons_of_mem _ h.started, fun r hr => ?_⟩,
        fun h => ⟨by simpa using h.started, fun r hr => h.unfinished r (List.mem_cons_of_mem _ hr)⟩⟩
      rcases List.mem_cons.mp hr with same | hr
      · cases same
        exact here rfl
      · exact h.unfinished r hr
  gated := ⟨⟨rfl, (m.awaits i t.key).mp (awaits_iff.mpr ⟨t, waits, rfl⟩)⟩, m.gated⟩

theorem Mirrors.poll {x : Setting σ} (m : g.Mirrors number gone x.journal) (i : Nat)
    (o : Option GateOutcome) : (Advisor.poll number g i o x).2.1.Mirrors number gone
      (Advisor.poll number g i o x).2.2.journal := by
  have reported {g' : Gates} {y : Setting σ} (m : g'.Mirrors number gone y.journal)
      (ss : List Submission) : g'.Mirrors number gone (y.submitAll ss).journal :=
    m.grows ((Setting.grows_submitAll y ss).mono fun _ => Event.aloof_of_entered)
  unfold Advisor.poll Gates.poll
  cases waits : g.waiting? i with
  | none => exact reported m _
  | some t =>
    have asked {g' : Gates} (m : g'.Mirrors number gone x.journal) : g'.Mirrors number gone
        (if t.started then x else x.note (.gateAsked t.key)).journal := by
      split
      · exact m
      · exact m.note rfl trivial
    cases o with
    | none => exact reported (asked (m.start waits)) _
    | some o =>
      refine reported ?_ _
      have before := asked m
      exact before.finish waits o

theorem Mirrors.pollAll {x : Setting σ} (m : g.Mirrors number gone x.journal)
    (polls : List (Nat × Option GateOutcome)) :
    (Advisor.pollAll number polls g x).1.Mirrors number gone
      (Advisor.pollAll number polls g x).2.journal := by
  unfold Advisor.pollAll
  induction polls generalizing g x with
  | nil => exact m
  | cons p polls ih => exact ih (m.poll p.1 p.2)

/-! ### Questions -/

theorem Mirrors.prepared (m : g.Mirrors number (fun _ => false) j) (absent : g.state? k = none)
    (free : ∀ r ∈ k.resources, j.holder r = none) :
    (g.prepare k).2.Mirrors number (fun _ => false)
      (.gateStarted number g.tasks.length k :: j) where
  state l := by
    rw [state?_prepare, m.state l]
    show _ = Event.gate l (.gateStarted number g.tasks.length k) (j.gate? l)
    dsimp only [Event.gate]
    split
    · rename_i same
      subst same
      have none : j.gate? k = none := (m.state k).symm.trans absent
      simp [none]
    · rfl
  known i l h := by
    have grown : (g.prepare k).2.tasks.length = g.tasks.length + 1 := by
      simp [prepare_anew absent]
    rcases List.mem_cons.mp h with same | h
    · cases same
      omega
    · have := m.known i l h
      omega
  awaits i l := by
    -- The number of the new task has not been used before.
    have fresh (l : GateKey) : .gateStarted number g.tasks.length l ∉ j :=
      fun h => absurd (m.known _ l h) (Nat.lt_irrefl _)
    have tasks : (g.prepare k).2.tasks = g.tasks ++ [{ key := k }] := tasks_anew absent
    unfold Gates.awaits waiting?
    rw [tasks]
    by_cases new : i = g.tasks.length
    · subst new
      rw [List.getElem?_concat_length]
      refine ⟨fun h => ?_, fun h => ?_⟩
      · obtain rfl : k = l := by simpa using h
        refine ⟨List.mem_cons_self, fun o ho => ?_⟩
        have finished : .gateFinished number g.tasks.length k o ∈ j := by simpa using ho
        exact fresh k (mem_of_always m.gated finished fun _ law => law.2.started)
      · rcases List.mem_cons.mp h.started with same | h
        · cases same
          simp
        · exact absurd h (fresh l)
    · have old : (g.tasks ++ [{ key := k }])[i]? = g.tasks[i]? := by
        rcases Nat.lt_or_gt_of_ne new with inside | outside
        · exact List.getElem?_append_left inside
        · rw [List.getElem?_eq_none (by simp; omega), List.getElem?_eq_none (by omega)]
      rw [old]
      refine (m.awaits i l).trans ⟨fun h => ⟨List.mem_cons_of_mem _ h.started, fun o ho =>
        h.unfinished o (by simpa using ho)⟩, fun h => ⟨?_, fun o ho =>
        h.unfinished o (List.mem_cons_of_mem _ ho)⟩⟩
      rcases List.mem_cons.mp h.started with same | h
      · cases same
        exact absurd rfl new
      · exact h
  gated := ⟨⟨rfl, (m.state k).symm.trans absent, free⟩, m.gated⟩

/-- What gates forget over a question, before the entry for it is made. -/
def lost (h : Hook) (c : ClientId) (rs : ResourceSet) (k : GateKey) : Bool :=
  h == .released && (Act.release c rs).releases k

theorem Mirrors.advised {h : Hook} {c : ClientId} {rs : ResourceSet}
    (m : g.Mirrors number (lost h c rs) j) (tag : AdvisorTag) (answer : Answer) :
    g.Mirrors number (fun _ => false) (.advised tag h c rs answer :: j) := by
  refine m.entry (fun k => ?_) rfl trivial
  cases h <;> rfl

theorem Mirrors.asked {x : Setting σ} (m : g.Mirrors number (fun _ => false) x.journal) (h : Hook)
    (c : ClientId) (rs : ResourceSet) (free : h = .prepare → ∀ r ∈ rs, x.journal.holder r = none) :
    (Advisor.askGates W number g h c rs x).2.1.Mirrors number (fun _ => false)
      (Advisor.askGates W number g h c rs x).2.2.journal := by
  obtain ⟨y, polls, start, asked⟩ := Advisor.askGates_cases W number g h c rs x
  rw [asked]
  refine Mirrors.advised (Mirrors.pollAll ?_ polls) _ _
  rw [start]
  cases h with
  | may => exact m
  | complete => exact m
  | released =>
    exact ⟨fun k => (state?_released g k c rs).trans (by rw [m.state]; rfl), m.known, m.awaits,
      m.gated⟩
  | prepare =>
    cases found : g.state? ⟨c, rs⟩ with
    | some st =>
      have again : g.ask .prepare c rs = (.done, false, g) := by rw [ask, prepare, found]
      rw [again]
      exact m
    | none =>
      have anew : g.ask .prepare c rs = (.done, true, (g.prepare ⟨c, rs⟩).2) := by
        rw [ask, prepare, found]
      have last : (g.prepare ⟨c, rs⟩).2.tasks.length - 1 = g.tasks.length := by
        simp [prepare_anew found]
      rw [anew]
      dsimp only
      rw [last]
      exact m.prepared found (free rfl)

end Gates

/-! ### Asking gates alone -/

/-- Gates that are asked to prepare start a task first, if they start one. -/
theorem Advisor.began_askGates {g : Gates} {x : Setting σ} {c : ClientId} {rs : ResourceSet}
    (m : g.Mirrors number (fun _ => false) x.journal) {asked : Journal}
    (journal : (askGates W number g .prepare c rs x).2.2.journal = asked ++ x.journal) :
    Began number ⟨c, rs⟩ asked x.journal := by
  obtain ⟨y, polls, start, same⟩ := askGates_cases W number g .prepare c rs x
  obtain ⟨since, idle, grown⟩ :=
    (Setting.idle_pollAll number polls (g.ask .prepare c rs).2.2 y).trans
      (Setting.grows_note (P := fun e => e.isStart = false)
        (e := .advised (.gates _) .prepare c rs _) rfl _)
  rw [same, grown, start, ← List.append_assoc] at journal
  obtain rfl := List.append_cancel_right journal
  have none_started (n task : Nat) (l : GateKey) : .gateStarted n task l ∉ since :=
    fun started => by cases idle _ started
  cases found : g.state? ⟨c, rs⟩ with
  | some st =>
    have again : g.ask .prepare c rs = (.done, false, g) := by rw [Gates.ask, Gates.prepare, found]
    rw [again]
    refine .inl ⟨fun none => ?_, by simpa using none_started⟩
    cases found.symm.trans ((m.state _).trans none)
  | none =>
    have anew : g.ask .prepare c rs = (.done, true, (g.prepare ⟨c, rs⟩).2) := by
      rw [Gates.ask, Gates.prepare, found]
    rw [anew]
    exact .inr ⟨_, since, rfl, none_started⟩

end Allotment
