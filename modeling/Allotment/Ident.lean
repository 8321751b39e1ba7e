/-!
# Names of resources and clients

A name is compared code point by code point and is never trimmed or normalised.
-/

namespace Allotment

/-- Names something that at most one client holds at a time. -/
structure ResourceId where
  name : String
deriving DecidableEq, Inhabited

/-- Names someone who asks for resources. -/
structure ClientId where
  name : String
deriving DecidableEq, Inhabited

namespace ResourceId

instance : LT ResourceId := ⟨fun a b => a.name < b.name⟩

instance (a b : ResourceId) : Decidable (a < b) :=
  inferInstanceAs (Decidable (a.name < b.name))

instance : Ord ResourceId := ⟨fun a b => compare a.name b.name⟩

theorem lt_irrefl (a : ResourceId) : ¬ a < a := String.lt_irrefl a.name

theorem lt_trans {a b c : ResourceId} (h : a < b) (k : b < c) : a < c :=
  String.lt_trans h k

theorem lt_asymm {a b : ResourceId} (h : a < b) : ¬ b < a := String.lt_asymm h

theorem eq_of_not_lt {a b : ResourceId} (h : ¬ a < b) (k : ¬ b < a) : a = b := by
  have : a.name = b.name := String.le_antisymm (String.not_lt.1 k) (String.not_lt.1 h)
  cases a; cases b; cases this; rfl

theorem ne_of_lt {a b : ResourceId} (h : a < b) : a ≠ b := fun e => lt_irrefl b (e ▸ h)

end ResourceId

instance : Ord ClientId := ⟨fun a b => compare a.name b.name⟩

end Allotment
