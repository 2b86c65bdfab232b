import Mathlib.Data.List.Basic
import Mathlib.Tactic.Linarith
import Mathlib.Tactic.Ring

/-! A schedule of slots one interval apart, of which none is taken before it is due. After a slot
that is taken late the next ones are due by the schedule still, unless they lie more than an
interval back: then they start again from there. -/

namespace Castr.Lib.Paced

/-- When the next slot is due, this one being taken now. -/
def advance (interval due now : Int) : Int := max (due + interval) (now - interval)

/-- The times of the slots taken, and when the next one is due. -/
structure Slots (interval : Int) (taken : List Int) (due : Int) : Prop where
  apart : ∀ (i j : Nat) (s t : Int), i < j → taken[i]? = some s → taken[j]? = some t →
    s + ((j : Int) - i - 2) * interval ≤ t
  ahead : ∀ (i : Nat) (s : Int), taken[i]? = some s → s + ((taken.length : Int) - i - 2) *
    interval ≤ due

variable {interval due now : Int} {taken : List Int}

theorem slots_nil : Slots interval [] due := by
  constructor <;> simp

theorem advance_later (interval due now : Int) : due + interval ≤ advance interval due now :=
  le_max_left _ _

theorem advance_resumed (interval due now : Int) : now - interval ≤ advance interval due now :=
  le_max_right _ _

theorem Slots.take (slots : Slots interval taken due) (ripe : due ≤ now) :
    Slots interval (taken ++ [now]) (advance interval due now) := by
  refine ⟨fun i j s t before first second => ?_, fun i s here => ?_⟩
  · rcases Nat.lt_trichotomy j taken.length with inside | last | beyond
    · rw [List.getElem?_append_left inside] at second
      rw [List.getElem?_append_left (by omega)] at first
      exact slots.apart i j s t before first second
    · subst last
      rw [List.getElem?_append_left before] at first
      have due_ := slots.ahead i s first
      obtain rfl : now = t := by simpa using second
      exact due_.trans ripe
    · rw [List.getElem?_eq_none (by simp; omega)] at second
      cases second
  · have length : ((taken ++ [now]).length : Int) = taken.length + 1 := by simp
    rw [length]
    rcases Nat.lt_trichotomy i taken.length with inside | last | beyond
    · rw [List.getElem?_append_left inside] at here
      calc s + ((taken.length : Int) + 1 - i - 2) * interval
          = s + ((taken.length : Int) - i - 2) * interval + interval := by ring
        _ ≤ due + interval := by linarith [slots.ahead i s here]
        _ ≤ advance interval due now := advance_later interval due now
    · subst last
      obtain rfl : now = s := by simpa using here
      calc now + ((taken.length : Int) + 1 - taken.length - 2) * interval
          = now - interval := by ring
        _ ≤ advance interval due now := advance_resumed interval due now
    · rw [List.getElem?_eq_none (by simp; omega)] at here
      cases here

theorem advance_near (positive : 0 ≤ interval) (ripe : due ≤ now) :
    advance interval due now ≤ now + interval := by
  refine max_le ?_ ?_ <;> omega

end Castr.Lib.Paced
