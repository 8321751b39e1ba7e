import Allotment.Ident

/-!
# What can go wrong

Errors are causes; each has one text.
-/

namespace Allotment

inductive SchedulerError
  | alreadyHeld (resource : ResourceId) (holder : ClientId)
  /-- The scheduler has shut down and takes no more commands. -/
  | terminated
  | timeout
  | invalidConfig (reason : String)
  | cannotStart (reason : String)
deriving DecidableEq

inductive AdvisorError
  | rejected (reason : String)
  | failed (reason : String)
deriving DecidableEq

def SchedulerError.message : SchedulerError → String
  | alreadyHeld r c => "resource " ++ r.name ++ " already held by " ++ c.name
  | terminated => "scheduler terminated"
  | timeout => "operation timed out"
  | invalidConfig reason => "invalid configuration: " ++ reason
  | cannotStart reason => "failed to spawn allocator thread: " ++ reason

def AdvisorError.message : AdvisorError → String
  | rejected reason => "rejected: " ++ reason
  | failed reason => "advisor failure: " ++ reason

end Allotment
