/-! The `DisplayArbiter`: which protocol owns the screen. -/

namespace Castr.Receiver

inductive Owner where
  | idle
  | castr
  | miracast
  deriving DecidableEq, Repr

namespace Owner

/-- Grants the display when it is free, or already held by `who`. -/
def tryAcquire (owner who : Owner) : Bool × Owner :=
  if owner = .idle ∨ owner = who then (true, who) else (false, owner)

def release (owner who : Owner) : Owner := if owner = who then .idle else owner

theorem acquire_refused (owner who : Owner) (busy : owner ≠ .idle) (other : owner ≠ who) :
    owner.tryAcquire who = (false, owner) := by
  simp [tryAcquire, busy, other]

end Owner

end Castr.Receiver
