import Mathlib.Algebra.Group.Nat.Defs
import Mathlib.Data.Nat.Basic
import Mathlib.Data.List.Basic

/-! Saturating arithmetic on 64-bit words, and the bits of a word. -/

namespace Castr.Lib.Word

def saturatingSub (left right : UInt64) : UInt64 := if right ≤ left then left - right else 0

@[simp] theorem saturatingSub_toNat (left right : UInt64) :
    (saturatingSub left right).toNat = left.toNat - right.toNat := by
  unfold saturatingSub
  split
  · rename_i order
    exact UInt64.toNat_sub_of_le left right order
  · rename_i order
    have less : left.toNat < right.toNat := by
      rw [UInt64.le_iff_toNat_le] at order
      omega
    rw [UInt64.toNat_zero]
    omega

def countOnes (width value : Nat) : Nat := (List.range width).countP value.testBit

/-- The place of the lowest bit that is set, or the width where none is. -/
def trailingZeros (width value : Nat) : Nat := ((List.range width).find? value.testBit).getD width

end Castr.Lib.Word
