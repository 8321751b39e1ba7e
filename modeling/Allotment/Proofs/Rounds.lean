import Allotment.Proofs.Responses

/-!
# How far a question gets

Advisors that are asked in turn are `Asked`. A question gets as far as the first that does not
approve, a release gets to all of them, and the journal shows who was asked. A longer chain does
what its two parts do one after the other (`asked_in_turn`).
-/

namespace Allotment.Chain

section

variable {α τ : Type} (ask : α → τ → Answer × α × τ)

/-- The advisors are asked in turn, each once. They answer this, and this is how they and what is
around them are afterwards. -/
inductive Asked : List α → τ → List Answer → List α → τ → Prop
  | nil (x : τ) : Asked [] x [] [] x
  | cons {as after : List α} {answers : List Answer} {x y : τ} (a : α)
      (further : Asked as (ask a x).2.2 answers after y) :
      Asked (a :: as) x ((ask a x).1 :: answers) ((ask a x).2.1 :: after) y

theorem consult_asked (as : List α) (x : τ) :
    ∃ asked rest answers after y, as = asked ++ rest ∧ Asked ask asked x answers after y ∧
      consult ask as x = (answers.all Answer.approves, after ++ rest, y) ∧
      answers.dropLast.all Answer.approves = true ∧
      (rest = [] ∨ answers.all Answer.approves = false) := by
  induction as generalizing x with
  | nil => exact ⟨[], [], [], [], x, rfl, .nil x, rfl, rfl, .inl rfl⟩
  | cons a as ih =>
    cases answered : (ask a x).1.approves with
    | false =>
      refine ⟨[a], as, _, _, _, rfl, .cons a (.nil _), ?_, rfl, .inr ?_⟩
      · simp [consult, answered]
      · simp [answered]
    | true =>
      obtain ⟨asked, rest, answers, after, y, split, further, consulted, earlier, stop⟩ :=
        ih (ask a x).2.2
      refine ⟨a :: asked, rest, _, _, y, congrArg (a :: ·) split, .cons a further, ?_, ?_, ?_⟩
      · simp [consult, answered, consulted]
      · cases answers with
        | nil => rfl
        | cons b answers => simpa [answered] using earlier
      · simpa [answered] using stop

theorem notify_asked (as : List α) (x : τ) :
    ∃ answers after y, Asked ask as x answers after y ∧ notify ask as x = (after, y) := by
  induction as generalizing x with
  | nil => exact ⟨[], [], x, .nil x, rfl⟩
  | cons a as ih =>
    obtain ⟨answers, after, y, further, notified⟩ := ih (ask a x).2.2
    refine ⟨_, _, y, .cons a further, ?_⟩
    simp [notify, notified]

end

variable {σ : Type} {W : World σ} {h : Hook} {c : ClientId} {rs : ResourceSet}
  {as after : List Advisor} {answers : List Answer} {x y : Setting σ}

/-! ### What the journal shows of it -/

/-- What the journal shows of advisors that have answered, the latest first. -/
def advice (h : Hook) (c : ClientId) (rs : ResourceSet) (as : List Advisor)
    (answers : List Answer) : Journal :=
  (as.zipWith (fun a answer => .advised (.outside a.name) h c rs answer) answers).reverse

theorem Asked.leads (asked : Asked (Advisor.ask W h c rs) as x answers after y) :
    ∃ ss, x.Leads y ss (advice h c rs as answers) := by
  induction asked with
  | nil x => exact ⟨[], rfl, rfl, rfl⟩
  | @cons as after answers x y a further ih =>
    obtain ⟨ss, leads⟩ := ih
    obtain ⟨answer, -, -, -, first⟩ := Setting.ask_responds W h c rs a x
    rw [← answer] at first
    exists (a.respond W h c rs x.world).2.1 ++ ss
    simpa [advice] using first.trans leads

/-! ### Longer chains -/

theorem question_append (W : World σ) (h : Hook) (c : ClientId) (rs : ResourceSet)
    (as bs : List Advisor) (x : Setting σ) :
    question W h c rs (as ++ bs) x =
      let (approved, cs, y) := consult (Advisor.ask W h c rs) as x
      if approved then
        let (also, ds, z) := question W h c rs bs y
        (also, cs ++ ds, z)
      else
        let (_, cs, y) := question W h c rs as x
        (false, cs ++ bs, y) := by
  unfold question
  rw [consult_append]
  rcases consulted : consult (Advisor.ask W h c rs) as x with ⟨approved, cs, y⟩
  cases approved with
  | true => rfl
  | false => rfl

theorem announce_append (W : World σ) (c : ClientId) (rs : ResourceSet) (as bs : List Advisor)
    (x : Setting σ) :
    announce W c rs (as ++ bs) x =
      let (cs, y) := notify (Advisor.ask W .released c rs) as x
      let (ds, z) := announce W c rs bs y
      (cs ++ ds, z) := by
  unfold announce
  rw [notify_append]

/-- The advisors `asked` are asked in turn, each once, and the others are left as they are. All
approve but possibly the last, and nobody is left out unless the last does not. The chain approves
if and only if all do. A release is told to every advisor in turn, once, whatever they answer. A
chain put together of two asks the second part after the first if that approves, and tells it of a
release in any case. -/
theorem asked_in_turn (W : World σ) (c : ClientId) (rs : ResourceSet) (as bs : List Advisor)
    (x : Setting σ) :
    (∀ h, (∃ asked rest answers after y, as = asked ++ rest ∧
        Asked (Advisor.ask W h c rs) asked x answers after y ∧
        answers.dropLast.all Answer.approves = true ∧
        (rest = [] ∨ answers.all Answer.approves = false) ∧
        question W h c rs as x = (answers.all Answer.approves, after ++ rest,
          y.note (.consulted h c rs (answers.all Answer.approves))) ∧
        y.journal.outline = advice h c rs asked answers ++ x.journal.outline) ∧
      question W h c rs (as ++ bs) x =
        let (approved, cs, y) := consult (Advisor.ask W h c rs) as x
        if approved then
          let (also, ds, z) := question W h c rs bs y
          (also, cs ++ ds, z)
        else
          let (_, cs, y) := question W h c rs as x
          (false, cs ++ bs, y)) ∧
    (∃ answers after y, Asked (Advisor.ask W .released c rs) as x answers after y ∧
      announce W c rs as x = (after, y.note (.consulted .released c rs true)) ∧
      y.journal.outline = advice .released c rs as answers ++ x.journal.outline) ∧
    announce W c rs (as ++ bs) x =
      let (cs, y) := notify (Advisor.ask W .released c rs) as x
      let (ds, z) := announce W c rs bs y
      (cs ++ ds, z) := by
  refine ⟨fun h => ⟨?_, question_append W h c rs as bs x⟩, ?_, announce_append W c rs as bs x⟩
  · obtain ⟨asked, rest, answers, after, y, split, inTurn, consulted, earlier, stop⟩ :=
      consult_asked (Advisor.ask W h c rs) as x
    obtain ⟨ss, leads⟩ := inTurn.leads
    refine ⟨asked, rest, answers, after, y, split, inTurn, earlier, stop, ?_, leads.outline⟩
    rw [question, consulted]
  · obtain ⟨answers, after, y, inTurn, notified⟩ :=
      notify_asked (Advisor.ask W .released c rs) as x
    obtain ⟨ss, leads⟩ := inTurn.leads
    refine ⟨answers, after, y, inTurn, ?_, leads.outline⟩
    rw [announce, notified]

end Allotment.Chain
