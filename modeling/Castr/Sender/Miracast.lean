import Castr.Lib.Halting
import Castr.Miracast.Source.Budget

/-! The video thread of a cast to a Miracast display, and the bitrates that the display asks it
for. A step is `none` where the thread panics. -/

namespace Castr.Sender.Miracast

open Castr.Lib
open Castr.Miracast
open Castr.Miracast.SourceSession (thousandfold started)

def minKbps : Nat := 1000

structure VideoThread where
  bitrateBps : Nat
  /-- What the encoder was told last. -/
  encodingBps : Nat
  deriving DecidableEq, Repr

/-- What was last asked for when a frame is due, 0 where nothing was, and whether the encoder takes
what it is told. -/
structure Request where
  asked : UInt32
  taken : Bool
  deriving DecidableEq, Repr

/-- A clamp panics where its bounds are the wrong way round. -/
def clamp (value low high : Nat) : Option Nat :=
  if low ≤ high then some (if value < low then low else if high < value then high else value)
  else none

/-- The rate that is applied is the step's answer, if there is one. -/
def VideoThread.serve (thread : VideoThread) (request : Request) :
    Option (VideoThread × Option Nat) :=
  if request.asked = 0 then some (thread, none)
  else do
    let applied ← clamp request.asked.toNat minKbps (thread.bitrateBps / 1000)
    let bps ← thousandfold applied
    some (if request.taken then { thread with encodingBps := bps } else thread, some applied)

theorem clamp_inside {low high : Nat} (value : Nat) (order : low ≤ high) :
    ∃ inside, clamp value low high = some inside ∧ low ≤ inside ∧ inside ≤ high := by
  refine ⟨_, if_pos order, ?_⟩
  split
  · exact ⟨Nat.le_refl _, order⟩
  · split <;> omega

/-- The thread started with that rate, and encodes at one that may be applied. -/
structure VideoThread.Bounded (thread : VideoThread) (kbps : Nat) : Prop where
  start : thread.bitrateBps = kbps * 1000
  low : minKbps * 1000 ≤ thread.encodingBps
  high : thread.encodingBps ≤ kbps * 1000

variable {thread : VideoThread} {kbps : Nat}

theorem serve_bounded (request : Request) (bounded : thread.Bounded kbps) (floor : minKbps ≤ kbps)
    (small : kbps ≤ 20000) :
    ∃ next applied, thread.serve request = some (next, applied) ∧ next.Bounded kbps ∧
      (applied = none ↔ request.asked = 0) ∧ ∀ rate ∈ applied, minKbps ≤ rate ∧ rate ≤ kbps := by
  unfold VideoThread.serve
  split
  · rename_i silent
    exact ⟨thread, none, rfl, bounded, by simp [silent], by simp⟩
  · rename_i asks
    have negotiated : thread.bitrateBps / 1000 = kbps := by
      rw [bounded.start]
      omega
    rw [negotiated]
    obtain ⟨applied, clamped, low, high⟩ := clamp_inside request.asked.toNat floor
    have fits : thousandfold applied = some (applied * 1000) := if_pos (by omega)
    rw [clamped]
    dsimp only [Option.bind_eq_bind, Option.bind_some]
    rw [fits]
    refine ⟨_, some applied, rfl, ?_, by simp [asks], ?_⟩
    · split
      · exact ⟨bounded.start, Nat.mul_le_mul_right _ low, Nat.mul_le_mul_right _ high⟩
      · exact bounded
    · rintro rate ⟨⟩
      exact ⟨low, high⟩

theorem run_bounded (requests : List Request) (bounded : thread.Bounded kbps)
    (floor : minKbps ≤ kbps) (small : kbps ≤ 20000) :
    ∃ last, Halting.final VideoThread.serve thread requests = some last ∧ last.Bounded kbps := by
  induction requests generalizing thread with
  | nil => exact ⟨thread, rfl, bounded⟩
  | cons request requests ih =>
      obtain ⟨next, applied, served, kept, _⟩ := serve_bounded request bounded floor small
      rw [Halting.final_cons, served]
      exact ih kept

end Castr.Sender.Miracast
