import Mathlib.Algebra.Group.Nat.Defs
import Mathlib.Data.List.Basic

/-! What happens to the group and the screen when the peer goes away. -/

namespace Castr.Miracast

/-- Thirty seconds, in nanoseconds. -/
def holdTime : Nat := 30 * 10 ^ 9

inductive Phase where
  | advertising
  | streaming
  | holding
  deriving DecidableEq, Repr

inductive LifeEvent where
  | connected
  | ended
  | radioError
  deriving DecidableEq, Repr

inductive LifeAction where
  | acquireDisplay
  | releaseDisplay
  | showReconnecting
  | clearOverlay
  | rebuildGroup
  deriving DecidableEq, Repr

structure Lifecycle where
  phase : Phase
  holdingSince : Option Nat
  deriving DecidableEq, Repr

namespace Lifecycle

def new : Lifecycle := ⟨.advertising, none⟩

def holdsDisplay (life : Lifecycle) : Bool := life.phase = .streaming || life.phase = .holding

def on (life : Lifecycle) (event : LifeEvent) (now : Nat) : Lifecycle × List LifeAction :=
  match life.phase, event with
  | .advertising, .connected =>
      ({ life with phase := .streaming }, [.acquireDisplay, .clearOverlay])
  | .holding, .connected => (⟨.streaming, none⟩, [.clearOverlay])
  | .streaming, .ended => (⟨.holding, some now⟩, [.showReconnecting])
  | _, .radioError =>
      (new, if life.holdsDisplay then [.releaseDisplay, .rebuildGroup, .clearOverlay]
        else [.rebuildGroup])
  | _, _ => (life, [])

/-- The hold is for the peer that was casting, not the first to arrive back. -/
def abandonHold (life : Lifecycle) : Lifecycle × List LifeAction :=
  if life.phase ≠ .holding then (life, []) else (new, [.releaseDisplay])

def tick (life : Lifecycle) (now : Nat) : Lifecycle × List LifeAction :=
  match life.holdingSince with
  | none => (life, [])
  | some since => if now - since < holdTime then (life, []) else (new, [.releaseDisplay])

end Lifecycle

end Castr.Miracast
