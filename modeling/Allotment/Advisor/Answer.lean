import Allotment.Error

/-!
# What advisors are asked, and what they answer
-/

namespace Allotment

inductive Hook
  | may
  | prepare
  | complete
  | released
deriving DecidableEq

def Hook.name : Hook → String
  | may => "may"
  | prepare => "prepare"
  | complete => "complete"
  | released => "released"

inductive Answer
  /-- Agreement, where the question has a yes and a no. -/
  | yes
  | no
  /-- What was asked for is done. -/
  | done
  | error (e : AdvisorError)
  | brokeOff
deriving DecidableEq

namespace Answer

def approves : Answer → Bool
  | yes | done => true
  | no | error _ | brokeOff => false

def ofBool : Bool → Answer
  | true => yes
  | false => no

@[simp] theorem approves_ofBool (b : Bool) : (ofBool b).approves = b := by cases b <;> rfl

end Answer

end Allotment
