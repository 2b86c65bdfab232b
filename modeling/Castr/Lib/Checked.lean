import Mathlib.Algebra.Group.Int.Defs
import Mathlib.Algebra.Group.Nat.Defs
import Mathlib.Data.Option.Basic

/-! Arithmetic that stops where a sum does not fit its type, and bounds of words. -/

namespace Castr.Lib.Checked

def Fits (value : Int) : Prop := -2 ^ 63 ≤ value ∧ value < 2 ^ 63

instance (value : Int) : Decidable (Fits value) := inferInstanceAs (Decidable (_ ∧ _))

def add (a b : Int64) : Option Int64 := if Fits (a.toInt + b.toInt) then some (a + b) else none

def sub (a b : Int64) : Option Int64 := if Fits (a.toInt - b.toInt) then some (a - b) else none

def addWord (a b : UInt64) : Option UInt64 :=
  if a.toNat + b.toNat < 2 ^ 64 then some (a + b) else none

def mulWord (a b : UInt64) : Option UInt64 :=
  if a.toNat * b.toNat < 2 ^ 64 then some (a * b) else none

def add32 (a b : UInt32) : Option UInt32 :=
  if a.toNat + b.toNat < 2 ^ 32 then some (a + b) else none

def mul32 (a b : UInt32) : Option UInt32 :=
  if a.toNat * b.toNat < 2 ^ 32 then some (a * b) else none

variable {a b : Int64}

theorem add_eq (fits : Fits (a.toInt + b.toInt)) : add a b = some (a + b) := if_pos fits

theorem sub_eq (fits : Fits (a.toInt - b.toInt)) : sub a b = some (a - b) := if_pos fits

theorem addWord_eq {a b : UInt64} (fits : a.toNat + b.toNat < 2 ^ 64) :
    addWord a b = some (a + b) := if_pos fits

theorem mulWord_eq {a b : UInt64} (fits : a.toNat * b.toNat < 2 ^ 64) :
    mulWord a b = some (a * b) := if_pos fits

theorem add32_eq {a b : UInt32} (fits : a.toNat + b.toNat < 2 ^ 32) :
    add32 a b = some (a + b) := if_pos fits

theorem add32_none {a b : UInt32} (large : ¬ a.toNat + b.toNat < 2 ^ 32) : add32 a b = none :=
  if_neg large

theorem add32_isSome {a b : UInt32} : (add32 a b).isSome ↔ a.toNat + b.toNat < 2 ^ 32 := by
  simp [add32]

theorem mul32_isSome {a b : UInt32} : (mul32 a b).isSome ↔ a.toNat * b.toNat < 2 ^ 32 := by
  simp [mul32]

theorem max32_toNat (a b : UInt32) : (max a b).toNat = max a.toNat b.toNat := by
  change (if a ≤ b then b else a).toNat = _
  split
  · rename_i order
    exact (Nat.max_eq_right order).symm
  · rename_i order
    exact (Nat.max_eq_left (Nat.le_of_not_le order)).symm

theorem min32_toNat (a b : UInt32) : (min a b).toNat = min a.toNat b.toNat := by
  change (if a ≤ b then a else b).toNat = _
  split
  · rename_i order
    exact (Nat.min_eq_left order).symm
  · rename_i order
    exact (Nat.min_eq_right (Nat.le_of_not_le order)).symm

theorem bmod_fits {value : Int} (fits : Fits value) : value.bmod (2 ^ 64) = value := by
  obtain ⟨low, high⟩ := fits
  exact Int.bmod_eq_of_le (by omega) (by omega)

theorem toInt_add (fits : Fits (a.toInt + b.toInt)) : (a + b).toInt = a.toInt + b.toInt := by
  rw [Int64.toInt_add, bmod_fits fits]

theorem toInt_sub (fits : Fits (a.toInt - b.toInt)) : (a - b).toInt = a.toInt - b.toInt := by
  rw [Int64.toInt_sub, bmod_fits fits]

theorem toInt_toInt64 {word : UInt64} (small : word.toNat < 2 ^ 63) :
    word.toInt64.toInt = word.toNat := by
  calc
    word.toInt64.toInt = (UInt64.ofNat word.toNat).toInt64.toInt := by rw [UInt64.ofNat_toNat]
    _ = (Int64.ofNat word.toNat).toInt := by rw [UInt64.toInt64_ofNat']
    _ = word.toNat := Int64.toInt_ofNat_of_lt small

end Castr.Lib.Checked
