import Mathlib.Data.Nat.Digits.Defs
import Mathlib.Data.List.Basic
import Mathlib.Tactic.Ring

/-! Byte strings: fixed-width integers, and slices cut to a width. -/

namespace Castr.Lib.Bytes

def leBytes : Nat → Nat → List UInt8
  | 0, _ => []
  | width + 1, value => UInt8.ofNat (value % 256) :: leBytes width (value / 256)

def readLe (bytes : List UInt8) : Nat := Nat.ofDigits 256 (bytes.map UInt8.toNat)

def readBe (bytes : List UInt8) : Nat := readLe bytes.reverse

@[simp] theorem leBytes_length (width value : Nat) : (leBytes width value).length = width := by
  induction width generalizing value with
  | zero => rfl
  | succ width ih => simp [leBytes, ih]

theorem readLe_leBytes (width value : Nat) (fits : value < 256 ^ width) :
    readLe (leBytes width value) = value := by
  induction width generalizing value with
  | zero =>
      have zero : value = 0 := by simpa using fits
      simp [leBytes, readLe, zero]
  | succ width ih =>
      have rest : value / 256 < 256 ^ width := by
        rw [Nat.div_lt_iff_lt_mul (by decide)]
        simpa [Nat.pow_succ] using fits
      have low : (UInt8.ofNat (value % 256)).toNat = value % 256 := by
        rw [UInt8.toNat_ofNat']
        omega
      have tail := ih (value / 256) rest
      unfold readLe at tail ⊢
      rw [leBytes, List.map_cons, Nat.ofDigits_cons, tail, low]
      omega

@[simp] theorem readBe_reverse (bytes : List UInt8) : readBe bytes.reverse = readLe bytes := by
  rw [readBe, List.reverse_reverse]

section Chunks

variable {α : Type*}

/-- Consecutive slices of `width` elements, the last one with what is left. -/
def chunks (width : Nat) (items : List α) : List (List α) :=
  (List.range ((items.length + width - 1) / width)).map
    (fun index => (items.drop (index * width)).take width)

private theorem flatten_slices (width : Nat) (items : List α) (count : Nat) :
    ((List.range count).map (fun index => (items.drop (index * width)).take width)).flatten =
      items.take (count * width) := by
  induction count with
  | zero => simp
  | succ count ih =>
      rw [List.range_succ, List.map_append, List.flatten_append, ih, Nat.succ_mul, List.take_add]
      simp

theorem chunks_flatten (width : Nat) (items : List α) (positive : 0 < width) :
    (chunks width items).flatten = items := by
  rw [chunks, flatten_slices, List.take_of_length_le]
  have covered := Nat.lt_div_mul_add (a := items.length + width - 1) positive
  omega

theorem chunks_ne_nil (width : Nat) (items : List α) (positive : 0 < width) (some : items ≠ []) :
    chunks width items ≠ [] := by
  intro none
  have empty := chunks_flatten width items positive
  rw [none] at empty
  exact some empty.symm

theorem chunks_append (width : Nat) (slice rest : List α) (positive : 0 < width)
    (whole : slice.length = width) :
    chunks width (slice ++ rest) = slice :: chunks width rest := by
  have count : ((slice ++ rest).length + width - 1) / width =
      (rest.length + width - 1) / width + 1 := by
    rw [List.length_append, whole, Nat.add_comm width rest.length, Nat.add_right_comm,
      Nat.sub_add_comm (by omega), Nat.add_div_right _ positive]
  rw [chunks, count, List.range_succ_eq_map, List.map_cons, List.map_map, Nat.zero_mul,
    List.drop_zero, List.take_left' whole]
  congr 1
  apply List.map_congr_left
  intro index _
  have far : (index + 1) * width = slice.length + index * width := by
    rw [Nat.succ_mul, Nat.add_comm, whole]
  rw [Function.comp_apply, Nat.succ_eq_add_one, far, List.drop_length_add_append]

theorem chunks_of_slices (width : Nat) (slices : List (List α)) (positive : 0 < width)
    (whole : ∀ slice ∈ slices, slice.length = width) : chunks width slices.flatten = slices := by
  induction slices with
  | nil => simp [chunks, positive]
  | cons slice rest ih =>
      rw [List.flatten_cons, chunks_append width slice _ positive (whole slice List.mem_cons_self),
        ih (fun other member => whole other (List.mem_cons_of_mem slice member))]

theorem chunks_dvd (unit width : Nat) (items : List α) (units : unit ∣ width)
    (whole : unit ∣ items.length) : ∀ slice ∈ chunks width items, unit ∣ slice.length := by
  intro slice member
  obtain ⟨index, -, rfl⟩ := List.mem_map.mp member
  rw [List.length_take, List.length_drop]
  have left : unit ∣ items.length - index * width :=
    Nat.dvd_sub whole (Dvd.dvd.mul_left units index)
  rcases Nat.le_total width (items.length - index * width) with full | short
  · rwa [Nat.min_eq_left full]
  · rwa [Nat.min_eq_right short]

theorem chunks_full (width : Nat) (items : List α) (positive : 0 < width)
    (whole : width ∣ items.length) : ∀ slice ∈ chunks width items, slice.length = width := by
  intro slice member
  have units := chunks_dvd width width items (Nat.dvd_refl width) whole slice member
  obtain ⟨index, inside, rfl⟩ := List.mem_map.mp member
  have below : index * width < items.length := by
    have counted := List.mem_range.mp inside
    rw [Nat.lt_div_iff_mul_lt positive] at counted
    omega
  have some : 0 < ((items.drop (index * width)).take width).length := by
    rw [List.length_take, List.length_drop]
    omega
  exact Nat.le_antisymm (List.length_take_le _ _) (Nat.le_of_dvd some units)

end Chunks

end Castr.Lib.Bytes
