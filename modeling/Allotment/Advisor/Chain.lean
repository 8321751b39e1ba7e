import Allotment.Advisor.Basic

/-!
# Chains of advisors

Advisors are asked in order. A question stops at the first that does not approve; a release reaches
all of them, whatever they answer.
-/

namespace Allotment.Chain

section

variable {α τ : Type} (ask : α → τ → Answer × α × τ)

/-- Asks up to the first that does not approve; `true` if there is none such. -/
def consult : List α → τ → Bool × List α × τ
  | [], x => (true, [], x)
  | a :: as, x =>
    let (answer, a, x) := ask a x
    if answer.approves then
      let (approved, as, x) := consult as x
      (approved, a :: as, x)
    else (false, a :: as, x)

def notify : List α → τ → List α × τ
  | [], x => ([], x)
  | a :: as, x =>
    let (_, a, x) := ask a x
    let (as, x) := notify as x
    (a :: as, x)

theorem consult_append (as bs : List α) (x : τ) :
    consult ask (as ++ bs) x =
      if (consult ask as x).1 then
        ((consult ask bs (consult ask as x).2.2).1,
          (consult ask as x).2.1 ++ (consult ask bs (consult ask as x).2.2).2.1,
          (consult ask bs (consult ask as x).2.2).2.2)
      else (false, (consult ask as x).2.1 ++ bs, (consult ask as x).2.2) := by
  induction as generalizing x with
  | nil => rfl
  | cons a as ih =>
    simp only [List.cons_append, consult]
    split
    · rw [ih]
      split <;> rfl
    · rfl

theorem notify_append (as bs : List α) (x : τ) :
    notify ask (as ++ bs) x =
      ((notify ask as x).1 ++ (notify ask bs (notify ask as x).2).1,
        (notify ask bs (notify ask as x).2).2) := by
  induction as generalizing x with
  | nil => rfl
  | cons a as ih =>
    simp only [List.cons_append, notify]
    rw [ih]

end

variable {σ : Type}

def names (as : List Advisor) : List String := as.map Advisor.name

def question (W : World σ) (h : Hook) (c : ClientId) (rs : ResourceSet) (as : List Advisor)
    (x : Setting σ) : Bool × List Advisor × Setting σ :=
  let (approved, as, x) := consult (Advisor.ask W h c rs) as x
  (approved, as, x.note (.consulted h c rs approved))

def announce (W : World σ) (c : ClientId) (rs : ResourceSet) (as : List Advisor)
    (x : Setting σ) : List Advisor × Setting σ :=
  let (as, x) := notify (Advisor.ask W .released c rs) as x
  (as, x.note (.consulted .released c rs true))

end Allotment.Chain
