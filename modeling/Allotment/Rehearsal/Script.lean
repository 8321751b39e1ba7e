import Allotment.Advisor.Answer
import Allotment.Block
import Allotment.Channel
import Allotment.Command
import Allotment.Journal

/-!
# Scripts

What expanders, advisors and clients do can be written down beforehand: answers that are given one
after the other, and commands that are submitted on the way.
-/

namespace Allotment.Rehearsal

/-- Takes the next element; the last one stays and is taken again and again. -/
def next {α : Type} (fallback : α) : List α → α × List α
  | [] => (fallback, [])
  | [a] => (a, [a])
  | a :: b :: as => (a, b :: as)

def nextBatch : List (List Submission) → List Submission × List (List Submission)
  | [] => ([], [])
  | b :: bs => (b, bs)

/-! ### Expanders -/

inductive Expander
  | identity
  | blocks (bs : List Block)
  /-- Each resource is replaced by others, if it is in the list; one of them breaks it. -/
  | replace (parts : List (ResourceId × ResourceSet)) (breaking : Option ResourceId)

namespace Expander

def replaced (parts : List (ResourceId × ResourceSet)) (r : ResourceId) : ResourceSet :=
  ((parts.find? (·.1 == r)).map (·.2)).getD (.ofList [r])

def expand : Expander → ResourceSet → Option ResourceSet
  | identity, rs => some rs
  | blocks bs, rs => some (Block.expand bs rs)
  | replace parts breaking, rs =>
    if breaking.any fun r => decide (r ∈ rs) then none
    else some (rs.toList.foldl (fun e r => e ∪ replaced parts r) ∅)

end Expander

/-! ### Advisors -/

structure PerHook (α : Type) where
  may : α
  prepare : α
  complete : α
  released : α

namespace PerHook

variable {α : Type}

def const (a : α) : PerHook α := ⟨a, a, a, a⟩

def get (p : PerHook α) : Hook → α
  | .may => p.may
  | .prepare => p.prepare
  | .complete => p.complete
  | .released => p.released

def set (p : PerHook α) (h : Hook) (a : α) : PerHook α :=
  match h with
  | .may => { p with may := a }
  | .prepare => { p with prepare := a }
  | .complete => { p with complete := a }
  | .released => { p with released := a }

end PerHook

structure Script where
  name : String
  answers : PerHook (List Answer) := .const []
  /-- Answers that certain resources call for. -/
  rules : PerHook (List (ResourceId × Answer)) := .const []
  /-- What is submitted in turn. -/
  batches : PerHook (List (List Submission)) := .const []

namespace Script

def fallback : Hook → Answer
  | .may | .complete => .yes
  | .prepare | .released => .done

def rule? (s : Script) (h : Hook) (rs : ResourceSet) : Option Answer :=
  rs.toList.findSome? fun r => ((s.rules.get h).find? (·.1 == r)).map (·.2)

def answer (s : Script) (h : Hook) (rs : ResourceSet) : Answer × Script :=
  match s.rule? h rs with
  | some a => (a, s)
  | none =>
    let (a, left) := next (fallback h) (s.answers.get h)
    (a, { s with answers := s.answers.set h left })

def submissions (s : Script) (h : Hook) : List Submission × Script :=
  let (b, left) := nextBatch (s.batches.get h)
  (b, { s with batches := s.batches.set h left })

def remaining (s : Script) : Nat :=
  ([Hook.may, .prepare, .complete, .released].flatMap fun h => (s.batches.get h).flatten).length

/-- Parts of a script that take the place of what was there. -/
structure Revision where
  answers : PerHook (Option (List Answer)) := .const none
  rules : Option (PerHook (List (ResourceId × Answer))) := none
  batches : Option (PerHook (List (List Submission))) := none

def revise (s : Script) (r : Revision) : Script where
  name := s.name
  answers :=
    { may := r.answers.may.getD s.answers.may
      prepare := r.answers.prepare.getD s.answers.prepare
      complete := r.answers.complete.getD s.answers.complete
      released := r.answers.released.getD s.answers.released }
  rules := r.rules.getD s.rules
  batches := r.batches.getD s.batches

def reviseLast (name : String) (r : Revision) : List Script → List Script
  | [] => []
  | s :: ss =>
    if s.name = name && !ss.any (·.name = name) then s.revise r :: ss
    else s :: reviseLast name r ss

end Script

/-! ### Clients -/

structure Part where
  replies : List Reply := []
  /-- What is submitted when a grant comes, in turn. -/
  batches : List (List Submission) := []
  /-- Where grants go, for a client that is told through a channel. -/
  channel : Option Channel := none

namespace Part

def reply (p : Part) (rs : ResourceSet) : Reply × Part :=
  match p.channel with
  | some ch =>
    let (accepted, ch) := ch.grant rs
    (if accepted then .accept else .refuse, { p with channel := some ch })
  | none =>
    let (a, left) := next .accept p.replies
    (a, { p with replies := left })

def submissions (p : Part) : List Submission × Part :=
  let (b, left) := nextBatch p.batches
  (b, { p with batches := left })

end Part

end Allotment.Rehearsal
