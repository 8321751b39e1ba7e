/-!
# Priorities of commands

Higher priorities are served first; equal ones in the order of submission.
-/

namespace Allotment

inductive Priority
  | low
  /-- Everything the scheduler submits itself. -/
  | normal
  | high
  /-- Ahead of everything else. -/
  | critical
deriving DecidableEq

namespace Priority

def rank : Priority → Nat
  | low => 0
  | normal => 1
  | high => 2
  | critical => 3

theorem rank_inj {p q : Priority} : p.rank = q.rank ↔ p = q := by
  cases p <;> cases q <;> decide

instance : LT Priority := ⟨fun p q => p.rank < q.rank⟩
instance : LE Priority := ⟨fun p q => p.rank ≤ q.rank⟩

instance (p q : Priority) : Decidable (p < q) := inferInstanceAs (Decidable (p.rank < q.rank))
instance (p q : Priority) : Decidable (p ≤ q) := inferInstanceAs (Decidable (p.rank ≤ q.rank))

instance : Ord Priority := ⟨fun p q => compare p.rank q.rank⟩

/-- The priority of a command that does not say otherwise. -/
instance : Inhabited Priority := ⟨normal⟩

def name : Priority → String
  | low => "low"
  | normal => "normal"
  | high => "high"
  | critical => "critical"

def ofName? : String → Option Priority
  | "low" => some low
  | "normal" => some normal
  | "high" => some high
  | "critical" => some critical
  | _ => none

theorem ofName?_name (p : Priority) : ofName? p.name = some p := by cases p <;> rfl

def sort (ps : List Priority) : List Priority := ps.mergeSort fun p q => decide (p ≤ q)

/-- The greatest priority of a list, `normal` for none. -/
def greatest (ps : List Priority) : Priority := (sort ps).getLast?.getD default

end Priority

end Allotment
