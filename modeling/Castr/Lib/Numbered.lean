import Mathlib.Algebra.Group.Nat.Defs
import Mathlib.Data.List.Nodup
import Castr.Lib.Run

/-! Machines that number what they send, one number after another on a 32-bit counter. -/

namespace Castr.Lib.Numbered

open Castr.Lib.Run

/-- The numbers given out one after another from a first. -/
def counted (first : UInt32) (count : Nat) : List UInt32 :=
  (List.range count).map (fun k => first + UInt32.ofNat k)

theorem counted_succ (first : UInt32) (count : Nat) :
    counted first (count + 1) = first :: counted (first + 1) count := by
  have shifted (k : Nat) : first + UInt32.ofNat (k + 1) = first + 1 + UInt32.ofNat k := by
    rw [UInt32.ofNat_add, UInt32.add_comm (UInt32.ofNat k), ← UInt32.add_assoc]
    rfl
  have first_first : first + UInt32.ofNat 0 = first := UInt32.add_zero first
  rw [counted, List.range_succ_eq_map, List.map_cons, List.map_map, first_first]
  exact congrArg (first :: ·) (List.map_congr_left (fun k _ => shifted k))

theorem counted_nodup (first : UInt32) (count : Nat) (few : count ≤ 2 ^ 32) :
    (counted first count).Nodup := by
  apply List.Nodup.map_on _ List.nodup_range
  intro i left j right same
  have equal := (UInt32.add_right_inj first).mp same
  have values := congrArg UInt32.toNat equal
  rw [List.mem_range] at left right
  rwa [UInt32.toNat_ofNat_of_lt' (by show i < 2 ^ 32; omega),
    UInt32.toNat_ofNat_of_lt' (by show j < 2 ^ 32; omega)] at values

variable {State Event Out : Type*}
variable (step : State → Event → State × Out) (next : State → UInt32) (numbers : Out → List UInt32)

/-- A step numbers at most one thing, with the counter's value, and moves the counter past it. -/
def Numbering : Prop := ∀ state event,
  (numbers (step state event).2 = [] ∧ next (step state event).1 = next state) ∨
    (numbers (step state event).2 = [next state] ∧ next (step state event).1 = next state + 1)

theorem numbered_run (numbering : Numbering step next numbers) (start : State)
    (events : List Event) : ∃ count,
      (outputs step start events).flatMap numbers = counted (next start) count := by
  induction events generalizing start with
  | nil => exact ⟨0, rfl⟩
  | cons event events ih =>
      obtain ⟨count, later⟩ := ih (step start event).1
      rw [outputs_cons, List.flatMap_cons, later]
      rcases numbering start event with ⟨none, same⟩ | ⟨one, moved⟩
      · exact ⟨count, by rw [none, same, List.nil_append]⟩
      · exact ⟨count + 1, by rw [one, moved, counted_succ, List.singleton_append]⟩

theorem numbered_nodup (numbering : Numbering step next numbers) (start : State)
    (events : List Event)
    (few : ((outputs step start events).flatMap numbers).length ≤ 2 ^ 32) :
    ((outputs step start events).flatMap numbers).Nodup := by
  obtain ⟨count, given⟩ := numbered_run step next numbers numbering start events
  rw [given] at few ⊢
  exact counted_nodup _ _ (by simpa [counted] using few)

end Castr.Lib.Numbered
