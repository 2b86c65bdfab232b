import Castr.Lib.Text

/-! Text in lower case, where only the letters of ASCII have one. -/

namespace Castr.Lib.Casing

open Castr.Lib.Text

def lower (text : List Char) : List Char := text.map Char.toLower

theorem toLower_code (c : Char) :
    (65 ≤ c.toNat ∧ c.toNat ≤ 90 ∧ c.toLower.toNat = c.toNat + 32) ∨
      (¬(65 ≤ c.toNat ∧ c.toNat ≤ 90) ∧ c.toLower = c) := by
  unfold Char.toLower
  split
  · rename_i upper
    have above := UInt32.le_iff_toNat_le.mp upper.1
    have below := UInt32.le_iff_toNat_le.mp upper.2
    left
    simp only [Char.toNat, UInt32.toNat_add]
    simp at above below ⊢
    omega
  · rename_i other
    refine .inr ⟨fun upper => other ⟨?_, ?_⟩, rfl⟩
    · exact UInt32.le_iff_toNat_le.mpr upper.1
    · exact UInt32.le_iff_toNat_le.mpr upper.2

theorem toLower_toLower (c : Char) : c.toLower.toLower = c.toLower := by
  rcases toLower_code c.toLower with ⟨low, high, _⟩ | ⟨_, same⟩
  · rcases toLower_code c with ⟨_, _, moved⟩ | ⟨other, same⟩
    · omega
    · rw [same] at low high
      exact absurd ⟨low, high⟩ other
  · exact same

theorem toLower_space (c : Char) : isSpace c.toLower = isSpace c := by
  rcases toLower_code c with ⟨low, high, moved⟩ | ⟨_, same⟩
  · rw [isSpace_visible c (by omega) (by omega),
      isSpace_visible c.toLower (by omega) (by omega)]
  · rw [same]

theorem lower_lower (text : List Char) : lower (lower text) = lower text := by
  rw [lower, lower, List.map_map]
  exact List.map_congr_left (fun c _ => toLower_toLower c)

theorem lower_solid {text : List Char} (solid : ∀ c ∈ text, isSpace c = false) :
    ∀ c ∈ lower text, isSpace c = false := by
  intro c member
  obtain ⟨origin, inside, rfl⟩ := List.mem_map.mp member
  rw [toLower_space, solid origin inside]

end Castr.Lib.Casing
