import Mathlib.Logic.Relation
import Allotment.Allocator.Step
import Allotment.Proofs.Journal

/-!
# What the outside can do

Whoever is asked while the allocator works, be it an advisor, a gate or a client, submits commands
and adds background entries to the journal, and nothing else (`stirs_consult`, `stirs_notify`,
`stirs_submitAll`). A predicate on submissions is carried along for those who keep to it
(`World.Submits`).
-/

namespace Allotment

variable {σ : Type}

/-- Gates report what is prepared; all else that advisors and clients submit while they are being
asked satisfies `A` too. -/
structure World.Submits (W : World σ) (A : Submission → Prop) : Prop where
  checks : ∀ c rs, A ⟨.checkPrepared c rs, .normal⟩
  advise : ∀ number h c rs w, ∀ s ∈ (W.advise number h c rs w).2.1, A s
  call : ∀ d rs w, ∀ s ∈ (W.call d rs w).2.1, A s

theorem World.submits_any (W : World σ) : W.Submits fun _ => True :=
  ⟨fun _ _ => trivial, fun _ _ _ _ _ _ _ => trivial, fun _ _ _ _ _ => trivial⟩

theorem Gates.name_ask (g : Gates) (h : Hook) (c : ClientId) (rs : ResourceSet) :
    (g.ask h c rs).2.2.name = g.name := by
  cases h with
  | prepare =>
    simp only [ask, prepare]
    split <;> rfl
  | _ => rfl

theorem Gates.name_poll (g : Gates) (i : Nat) (o : Option GateOutcome) :
    (g.poll i o).2.2.2.name = g.name := by
  unfold poll
  split
  · rfl
  · cases o <;> rfl

/-- What a gate reports is a check. -/
theorem Gates.check_of_poll (g : Gates) (i : Nat) (o : Option GateOutcome) :
    ∀ c ∈ (g.poll i o).2.2.1, ∃ d rs, c = .checkPrepared d rs := by
  intro c hc
  unfold poll report at hc
  split at hc
  · cases hc
  · split at hc
    · cases hc
    · dsimp only at hc
      split at hc
      · cases hc
        exact ⟨_, _, rfl⟩
      · cases hc

namespace Setting

/-- `y` comes after `x`, and only entries of a kind were made in between. -/
def Grows (P : Event → Prop) (x y : Setting σ) : Prop :=
  ∃ es : List Event, (∀ e ∈ es, P e) ∧ y.journal = es ++ x.journal

variable {P Q : Event → Prop} {x y z : Setting σ}

theorem grows_refl (x : Setting σ) : Grows P x x := ⟨[], by simp, rfl⟩

theorem grows_of_journal (h : y.journal = x.journal) : Grows P x y := ⟨[], by simp, h⟩

theorem Grows.trans (h : Grows P x y) (k : Grows P y z) : Grows P x z := by
  obtain ⟨es, he, hy⟩ := h
  obtain ⟨fs, hf, hz⟩ := k
  refine ⟨fs ++ es, fun e h => ?_, by rw [hz, hy, List.append_assoc]⟩
  rcases List.mem_append.mp h with h | h
  · exact hf e h
  · exact he e h

theorem Grows.mono (h : Grows P x y) (imp : ∀ e, P e → Q e) : Grows Q x y := by
  obtain ⟨es, he, hy⟩ := h
  exact ⟨es, fun e m => imp e (he e m), hy⟩

theorem grows_note {e : Event} (h : P e) (x : Setting σ) : Grows P x (x.note e) :=
  ⟨[e], by simpa using h, rfl⟩

/-! ### Submissions -/

theorem grows_submit (x : Setting σ) (s : Submission) :
    Grows (fun e => ∃ q, e = .entered q) x (x.submit s) := by
  unfold submit
  split
  · exact grows_refl x
  · exact grows_note ⟨_, rfl⟩ x

theorem grows_submitAll (x : Setting σ) (ss : List Submission) :
    Grows (fun e => ∃ q, e = .entered q) x (x.submitAll ss) := by
  induction ss generalizing x with
  | nil => exact grows_refl x
  | cons s ss ih => exact (grows_submit x s).trans (ih (x.submit s))

/-! ### Advisors -/

def Background (x y : Setting σ) : Prop := Grows (fun e => e.isBackground = true) x y

/-- What happens while somebody is being asked who submits only what satisfies `A`. -/
inductive Stir (A : Submission → Prop) (x : Setting σ) : Setting σ → Prop
  | turn (w : σ) : Stir A x { x with world := w }
  | note (e : Event) (background : e.isBackground = true) (remark : e.isRemark = true) :
      Stir A x (x.note e)
  | submit (s : Submission) (admitted : A s) : Stir A x (x.submit s)

abbrev Stirs (A : Submission → Prop) : Setting σ → Setting σ → Prop :=
  Relation.ReflTransGen (Stir A)

variable {A : Submission → Prop} {W : World σ}

theorem Stirs.background (h : Stirs A x y) : Background x y := by
  induction h with
  | refl => exact grows_refl x
  | tail _ stir ih =>
    cases stir with
    | turn w => exact ih.trans (grows_of_journal rfl)
    | note e background => exact ih.trans (grows_note background _)
    | submit s => exact ih.trans ((grows_submit _ s).mono fun _ => Event.background_of_entered)

theorem stirs_submitAll {ss : List Submission} (admitted : ∀ s ∈ ss, A s) (x : Setting σ) :
    Stirs A x (x.submitAll ss) := by
  induction ss generalizing x with
  | nil => exact .refl
  | cons s ss ih =>
    obtain ⟨first, rest⟩ := List.forall_mem_cons.mp admitted
    exact .head (.submit s first) (ih rest (x.submit s))

/-- A poll makes its entries, and then its report comes in. -/
theorem poll_cases (number : Nat) (g : Gates) (i : Nat) (o : Option GateOutcome) (x : Setting σ) :
    ∃ y : Setting σ, y.queue = x.queue ∧ y.world = x.world ∧ Grows (fun e => e.isPoll = true) x y ∧
      (Advisor.poll number g i o x).2 =
        ((g.poll i o).2.2.2,
          y.submitAll ((g.poll i o).2.2.1.toList.map fun c => ⟨c, .normal⟩)) := by
  have noted {e : Event} (poll : e.isPoll = true) (z : Setting σ) :
      Grows (fun e => e.isPoll = true) z (z.note e) := grows_note (P := (·.isPoll = true)) poll z
  unfold Advisor.poll
  rcases g.poll i o with ⟨result, task, report, g'⟩
  cases task with
  | none => exact ⟨x, rfl, rfl, grows_refl x, rfl⟩
  | some t =>
    have asked : ∃ y : Setting σ, y.queue = x.queue ∧ y.world = x.world ∧
        Grows (fun e => e.isPoll = true) x y ∧
        (if t.started then x else x.note (.gateAsked t.key)) = y := by
      split
      · exact ⟨x, rfl, rfl, grows_refl x, rfl⟩
      · exact ⟨x.note (.gateAsked t.key), rfl, rfl, noted rfl x, rfl⟩
    obtain ⟨y, queue, world, grows, same⟩ := asked
    dsimp only
    rw [same]
    cases o with
    | none => exact ⟨y, queue, world, grows, rfl⟩
    | some o =>
      exact ⟨y.note (.gateFinished number i t.key o), queue, world, grows.trans (noted rfl y),
        rfl⟩

theorem stirs_poll (checks : ∀ c rs, A ⟨.checkPrepared c rs, .normal⟩) (number : Nat)
    (g : Gates) (i : Nat) (o : Option GateOutcome) (x : Setting σ) :
    Stirs A x (Advisor.poll number g i o x).2.2 := by
  have reports := g.check_of_poll i o
  unfold Advisor.poll
  rcases polled : g.poll i o with ⟨result, task, report, g'⟩
  rw [polled] at reports
  have admitted : ∀ s ∈ report.toList.map fun c => (⟨c, .normal⟩ : Submission), A s := by
    intro s hs
    obtain ⟨c, hc, rfl⟩ := List.mem_map.mp hs
    obtain ⟨d, rs, rfl⟩ := reports c (Option.mem_toList.mp hc)
    exact checks d rs
  dsimp only
  refine Relation.ReflTransGen.trans ?_ (stirs_submitAll admitted _)
  cases task with
  | none => exact .refl
  | some t =>
    dsimp only
    have asked : Stirs A x (if t.started then x else x.note (.gateAsked t.key)) := by
      split
      · exact .refl
      · exact .single (.note _ rfl rfl)
    cases o with
    | none => exact asked
    | some o => exact asked.tail (.note _ rfl rfl)

theorem stirs_pollAll (checks : ∀ c rs, A ⟨.checkPrepared c rs, .normal⟩) (number : Nat)
    (polls : List (Nat × Option GateOutcome)) (g : Gates) (x : Setting σ) :
    Stirs A x (Advisor.pollAll number polls g x).2 := by
  unfold Advisor.pollAll
  induction polls generalizing g x with
  | nil => exact .refl
  | cons p polls ih => exact (stirs_poll checks number g p.1 p.2 x).trans (ih _ _)

/-- The answer of an advisor is written down while it is being asked. -/
theorem stirs_advised (outside : W.Submits A) (h : Hook) (c : ClientId) (rs : ResourceSet)
    (a : Advisor) (x : Setting σ) :
    ∃ y tag, Stirs A x y ∧
      Stirs A (y.note (.advised tag h c rs (Advisor.ask W h c rs a x).1))
        (Advisor.ask W h c rs a x).2.2 := by
  cases a with
  | zones z => exact ⟨x, .zones, .refl, .refl⟩
  | gates number g =>
    dsimp only [Advisor.ask, Advisor.askGates]
    generalize g.ask h c rs = asked
    obtain ⟨answer, started, g'⟩ := asked
    refine ⟨_, _, ?_, .refl⟩
    refine Relation.ReflTransGen.trans ?_ (stirs_pollAll outside.checks _ _ _ _)
    refine Relation.ReflTransGen.tail ?_ (.turn _)
    cases started with
    | false => exact .refl
    | true => exact .single (.note _ rfl rfl)
  | outside number name =>
    exact ⟨_, _, .single (.turn _), stirs_submitAll (outside.advise number h c rs _) _⟩

theorem stirs_ask (outside : W.Submits A) (h : Hook) (c : ClientId) (rs : ResourceSet)
    (a : Advisor) (x : Setting σ) : Stirs A x (Advisor.ask W h c rs a x).2.2 := by
  obtain ⟨y, tag, before, after⟩ := stirs_advised outside h c rs a x
  exact (before.tail (.note _ rfl rfl)).trans after

theorem stirs_consult (outside : W.Submits A) (h : Hook) (c : ClientId) (rs : ResourceSet)
    (as : List Advisor) (x : Setting σ) :
    Stirs A x (Chain.consult (Advisor.ask W h c rs) as x).2.2 := by
  induction as generalizing x with
  | nil => exact .refl
  | cons a as ih =>
    unfold Chain.consult
    dsimp only
    split
    · exact (stirs_ask outside h c rs a x).trans (ih _)
    · exact stirs_ask outside h c rs a x

theorem stirs_notify (outside : W.Submits A) (h : Hook) (c : ClientId) (rs : ResourceSet)
    (as : List Advisor) (x : Setting σ) :
    Stirs A x (Chain.notify (Advisor.ask W h c rs) as x).2 := by
  induction as generalizing x with
  | nil => exact .refl
  | cons a as ih => exact (stirs_ask outside h c rs a x).trans (ih _)

/-- A question that is not approved was not approved by one of the advisors. -/
theorem advised_of_refused {h : Hook} {c : ClientId} {rs : ResourceSet} {as : List Advisor}
    {x : Setting σ} (refused : (Chain.consult (Advisor.ask W h c rs) as x).1 = false) :
    ∃ y tag answer, answer.approves = false ∧ Background x y ∧
      Background (y.note (.advised tag h c rs answer))
        (Chain.consult (Advisor.ask W h c rs) as x).2.2 := by
  induction as generalizing x with
  | nil => cases refused
  | cons a as ih =>
    unfold Chain.consult at refused ⊢
    dsimp only at refused ⊢
    split at refused
    · rename_i approved
      obtain ⟨y, tag, answer, no, before, after⟩ := ih refused
      rw [if_pos approved]
      have first := (stirs_ask W.submits_any h c rs a x).background
      exact ⟨y, tag, answer, no, first.trans before, after⟩
    · rename_i other
      obtain ⟨y, tag, before, after⟩ := stirs_advised W.submits_any h c rs a x
      rw [if_neg other]
      exact ⟨y, tag, _, by simpa using other, before.background, after.background⟩

/-- A task of one of the gates is polled, or none. -/
theorem pollGates_cases (number i : Nat) (o : Option GateOutcome) (as : List Advisor)
    (x : Setting σ) :
    (Allocator.pollGates number i o as x).2.2 = x ∨
      ∃ n g, (Allocator.pollGates number i o as x).2.2 = (Advisor.poll n g i o x).2.2 := by
  induction as with
  | nil => exact .inl rfl
  | cons a as ih =>
    cases a with
    | zones z => exact ih
    | outside n name => exact ih
    | gates n g =>
      unfold Allocator.pollGates
      split
      · exact .inr ⟨n, g, rfl⟩
      · exact ih

theorem stirs_pollGates (checks : ∀ c rs, A ⟨.checkPrepared c rs, .normal⟩) (number i : Nat)
    (o : Option GateOutcome) (as : List Advisor) (x : Setting σ) :
    Stirs A x (Allocator.pollGates number i o as x).2.2 := by
  obtain same | ⟨n, g, same⟩ := pollGates_cases number i o as x
  · rw [same]
  · rw [same]
    exact stirs_poll checks n g i o x

end Setting

/-- Nothing is expanded, everything is let through and every grant accepted; `complete` is what
outside advisors say of a preparation. -/
def World.steady (complete : Answer) : World Nat where
  expand rs n := (some rs, n)
  advise _ h _ _ n := (if h = .complete then complete else .yes, [], n)
  tasks _ _ n := ([], n)
  call _ _ n := (.accept, [], n)
  audit _ n := (true, n)
  stamp n := (.numbered n 0, n + 1)

namespace Allocator

/-- The client of a name asks for the resources of some names. -/
def asking (name : String) (resources : List String) : Happening σ :=
  .submit ⟨.allocate ⟨⟨name⟩, name⟩ (.ofList (resources.map .mk)), .normal⟩

/-- It gives them up. -/
def freeing (name : String) (resources : List String) : Happening σ :=
  .submit ⟨.free ⟨name⟩ (.ofList (resources.map .mk)), .normal⟩

end Allocator

end Allotment
