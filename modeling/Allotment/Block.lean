import Allotment.ResourceSet

/-!
# Blocks

A block is locked as a unit: whoever asks for one member asks for all of them.
-/

namespace Allotment

/-- Resources that are only ever locked together. -/
structure Block where
  name : String
  members : ResourceSet
deriving DecidableEq

/-- The set together with every block of which it touches a member. A block that is touched only
through another block stays out. -/
def Block.expand (blocks : List Block) (rs : ResourceSet) : ResourceSet :=
  blocks.foldl (fun e b => if b.members.meets rs then e ∪ b.members else e) rs

theorem Block.mem_foldl_expand {blocks : List Block} {rs e : ResourceSet} {r : ResourceId} :
    r ∈ blocks.foldl (fun e b => if b.members.meets rs then e ∪ b.members else e) e ↔
      r ∈ e ∨ ∃ b ∈ blocks, b.members.meets rs = true ∧ r ∈ b.members := by
  induction blocks generalizing e with
  | nil => simp
  | cons b bs ih =>
    rw [List.foldl_cons, ih]
    by_cases h : b.members.meets rs = true
    · simp [h, or_assoc]
    · simp [h]

theorem Block.mem_expand {blocks : List Block} {rs : ResourceSet} {r : ResourceId} :
    r ∈ expand blocks rs ↔
      r ∈ rs ∨ ∃ b ∈ blocks, b.members.meets rs = true ∧ r ∈ b.members :=
  mem_foldl_expand

end Allotment
