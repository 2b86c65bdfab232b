import Mathlib.Data.BitVec

/-! Serial numbers: counters of a fixed width that wrap.

Two numbers are compared by the distance one has to walk forward from the other.
That comparison is no order on all numbers, but it is one on the numbers within
half the circle of a common base, where it agrees with the distance from the base. -/

namespace Castr.Lib.Serial

variable {width : Nat}

def ahead (base number : BitVec width) : Nat := (number - base).toNat

def nth (base : BitVec width) (index : Nat) : BitVec width := base + BitVec.ofNat width index

theorem ahead_lt (base number : BitVec width) : ahead base number < 2 ^ width :=
  (number - base).isLt

theorem ahead_nth (base : BitVec width) (index : Nat) (bound : index < 2 ^ width) :
    ahead base (nth base index) = index := by
  have distance : nth base index - base = BitVec.ofNat width index := by
    rw [nth, BitVec.add_comm, BitVec.add_sub_cancel]
  rw [ahead, distance, BitVec.toNat_ofNat, Nat.mod_eq_of_lt bound]

theorem nth_ahead (base number : BitVec width) : nth base (ahead base number) = number := by
  rw [nth, ahead, BitVec.ofNat_toNat, BitVec.setWidth_eq, BitVec.add_comm, BitVec.sub_add_cancel]

theorem ahead_injective (base first second : BitVec width)
    (same : ahead base first = ahead base second) : first = second := by
  rw [← nth_ahead base first, same, nth_ahead]

theorem ahead_from (base first second : BitVec width) :
    ahead first second =
      if ahead base first ≤ ahead base second then ahead base second - ahead base first
      else 2 ^ width - (ahead base first - ahead base second) := by
  have relative : second - first = (second - base) - (first - base) :=
    (sub_sub_sub_cancel_right second first base).symm
  have low := ahead_lt base first
  have high := ahead_lt base second
  unfold ahead at *
  rw [relative, BitVec.toNat_sub]
  split
  · rename_i order
    have total : 2 ^ width - (first - base).toNat + (second - base).toNat =
        (second - base).toNat - (first - base).toNat + 2 ^ width := by omega
    rw [total, Nat.add_mod_right, Nat.mod_eq_of_lt (by omega)]
  · rw [Nat.mod_eq_of_lt (by omega)]
    omega

theorem ahead_mod (first second third : BitVec width) :
    ahead first third = (ahead first second + ahead second third) % 2 ^ width := by
  have sum : third - first = (second - first) + (third - second) :=
    (sub_add_sub_cancel' second first third).symm
  rw [ahead, sum, BitVec.toNat_add]
  rfl

theorem ahead_lt_half_iff (base first second : BitVec width) (half : Nat)
    (circle : 2 * half ≤ 2 ^ width)
    (firstNear : ahead base first < half) (secondNear : ahead base second < half) :
    ahead first second < half ↔ ahead base first ≤ ahead base second := by
  rw [ahead_from base]
  split
  · rename_i order
    exact ⟨fun _ => order, fun _ => by omega⟩
  · rename_i order
    exact ⟨fun close => by omega, fun behind => absurd behind order⟩

theorem ahead_succ (base number : BitVec width) (room : ahead base number + 1 < 2 ^ width) :
    ahead base (number + 1) = ahead base number + 1 := by
  have number_eq := nth_ahead base number
  have next : number + 1 = nth base (ahead base number + 1) := by
    conv_lhs => rw [← number_eq]
    rw [nth, nth, BitVec.add_assoc, BitVec.ofNat_add]
    rfl
  rw [next, ahead_nth base _ room]

end Castr.Lib.Serial
