/-!
# ReviewRota.Caller

Who makes a request, and what that allows.
-/

namespace ReviewRota

/-- A caller whose identity is known. -/
structure Caller where
  id : String
  admin : Bool
  deriving DecidableEq, Repr, Inhabited

namespace Caller

/-- Administrators may see everything, others what is their own. -/
def maySee (c : Caller) (owner : String) : Bool := c.admin || c.id = owner

theorem maySee_iff {c : Caller} {owner : String} :
    c.maySee owner = true ↔ c.admin = true ∨ c.id = owner := by
  simp [maySee]

end Caller

end ReviewRota
