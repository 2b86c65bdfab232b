import Castr.Lib.Since
import Mathlib.Algebra.Ring.Nat
import Mathlib.Order.Bounds.Basic

/-! Bursts of items that are a gap apart: each burst names the time that is due to its first item,
and no item comes sooner than a gap after the one before it. -/

namespace Castr.Lib.Anchored

structure Burst where
  base : Nat
  size : Nat

def total (bursts : List Burst) : Nat := (bursts.map Burst.size).sum

/-- Where the bursts that had an item put the one that comes `ahead` after them all. -/
def lines (gap : Nat) (bursts : List Burst) (ahead : Nat) : Set Nat :=
  {t | ∃ earlier burst later, bursts = earlier ++ burst :: later ∧ 0 < burst.size ∧
    t = burst.base + gap * (total (burst :: later) + ahead)}

/-- The time of a burst's first item, after the item at `last`. -/
def opening (gap base : Nat) (last : Option Nat) : Nat := max base (last.elim 0 (· + gap))

def closing (gap : Nat) (last : Option Nat) (burst : Burst) : Option Nat :=
  if burst.size = 0 then last
  else some (opening gap burst.base last + gap * (burst.size - 1))

/-- The item a gap after the last one is where the bursts so far put it at the latest. -/
def Linked (gap : Nat) (bursts : List Burst) : Option Nat → Prop
  | none => ∀ ahead, lines gap bursts ahead = ∅
  | some last => ∀ ahead, IsGreatest (lines gap bursts ahead) (last + gap * (ahead + 1))

variable {gap : Nat} {bursts : List Burst} {last : Option Nat} (burst : Burst)

@[simp] theorem total_cons : total (burst :: bursts) = burst.size + total bursts := rfl

theorem total_snoc : total (bursts ++ [burst]) = total bursts + burst.size := by
  simp [total]

theorem linked_nil : Linked gap [] none := by
  intro ahead
  ext t
  simp [lines]

theorem mem_lines_snoc (ahead t : Nat) :
    t ∈ lines gap (bursts ++ [burst]) ahead ↔
      (0 < burst.size ∧ t = burst.base + gap * (burst.size + ahead)) ∨
        t ∈ lines gap bursts (burst.size + ahead) := by
  constructor
  · rintro ⟨earlier, found, later, split, some, rfl⟩
    rcases Since.split_snoc split with ⟨rfl, rfl, rfl⟩ | ⟨rest, rfl, rfl⟩
    · exact .inl ⟨some, rfl⟩
    · refine .inr ⟨earlier, found, rest, rfl, some, ?_⟩
      rw [← List.cons_append, total_snoc, Nat.add_assoc]
  · rintro (⟨some, rfl⟩ | ⟨earlier, found, later, rfl, some, rfl⟩)
    · exact ⟨bursts, burst, [], rfl, some, rfl⟩
    · refine ⟨earlier, found, later ++ [burst], by simp, some, ?_⟩
      rw [← List.cons_append, total_snoc, Nat.add_assoc]

theorem item_greatest (linked : Linked gap bursts last) (base place : Nat) :
    IsGreatest (insert (base + gap * place) (lines gap bursts place))
      (opening gap base last + gap * place) := by
  cases last with
  | none =>
      rw [linked place, opening, Option.elim_none, Nat.max_zero]
      simp
  | some last =>
      have greatest := (linked place).insert (base + gap * place)
      have shifted : max (base + gap * place) (last + gap * (place + 1)) =
          opening gap base (some last) + gap * place := by
        rw [opening, Option.elim_some, Nat.mul_add_one]
        omega
      rwa [shifted] at greatest

theorem linked_snoc (linked : Linked gap bursts last) :
    Linked gap (bursts ++ [burst]) (closing gap last burst) := by
  by_cases empty : burst.size = 0
  · have same : ∀ ahead, lines gap (bursts ++ [burst]) ahead = lines gap bursts ahead := by
      intro ahead
      ext t
      rw [mem_lines_snoc, empty]
      simp
    rw [closing, if_pos empty]
    cases last with
    | none => exact fun ahead => (same ahead).trans (linked ahead)
    | some last => exact fun ahead => (same ahead).symm ▸ linked ahead
  · rw [closing, if_neg empty]
    intro ahead
    have grown : lines gap (bursts ++ [burst]) ahead =
        insert (burst.base + gap * (burst.size + ahead))
          (lines gap bursts (burst.size + ahead)) := by
      ext t
      simp [mem_lines_snoc, Nat.pos_of_ne_zero empty]
    have place : gap * (burst.size + ahead) = gap * (burst.size - 1) + gap * (ahead + 1) := by
      rw [← Nat.mul_add]
      congr 1
      omega
    have greatest := item_greatest linked burst.base (burst.size + ahead)
    rw [place] at greatest
    rw [grown, place, Nat.add_assoc (opening gap burst.base last)]
    exact greatest

theorem opening_le (gap base : Nat) {time : Nat} (after : last = some time) :
    time + gap ≤ opening gap base last := by
  rw [after]
  exact Nat.le_max_right _ _

end Castr.Lib.Anchored
