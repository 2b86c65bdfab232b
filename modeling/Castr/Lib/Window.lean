import Mathlib.Data.List.Basic

/-! How many moments of a list fall into a window of a given width, wherever it starts. -/

namespace Castr.Lib.Window

/-- The moments of the half-open window of this width from `start` on. -/
def within (width start : Nat) (times : List Nat) : List Nat :=
  times.filter (fun time => start ≤ time ∧ time < start + width)

/-- The moments a window that ends at `now` may still hold. -/
def recent (width now : Nat) (times : List Nat) : List Nat :=
  times.filter (fun time => now < time + width)

def AtMost (count width : Nat) (times : List Nat) : Prop :=
  ∀ start, (within width start times).length ≤ count

theorem at_most_nil (count width : Nat) : AtMost count width [] := fun _ => Nat.zero_le count

theorem recent_append (width now : Nat) (front back : List Nat) :
    recent width now (front ++ back) = recent width now front ++ recent width now back :=
  List.filter_append front back

theorem recent_eq_nil (width now : Nat) (times : List Nat)
    (past : ∀ time ∈ times, time + width ≤ now) : recent width now times = [] := by
  apply List.filter_eq_nil_iff.mpr
  intro time member
  have old := past time member
  simp only [decide_eq_true_eq]
  omega

theorem within_recent (width start now : Nat) (times : List Nat) (ends : now < start + width) :
    (within width start times).length ≤ (recent width now times).length := by
  simp only [within, recent, ← List.countP_eq_length_filter]
  apply List.countP_mono_left
  intro time _ inside
  simp only [decide_eq_true_eq] at inside ⊢
  omega

theorem at_most_snoc (count width now : Nat) (times : List Nat) (before : AtMost count width times)
    (room : (recent width now times).length < count) : AtMost count width (times ++ [now]) := by
  intro start
  rw [within, List.filter_append, List.length_append]
  by_cases ends : now < start + width
  · have few := within_recent width start now times ends
    have one : ([now].filter (fun time => start ≤ time ∧ time < start + width)).length ≤ 1 :=
      List.length_filter_le _ [now]
    unfold within at few
    omega
  · have outside : [now].filter (fun time => start ≤ time ∧ time < start + width) = [] := by
      simp [ends]
    rw [outside]
    exact before start

end Castr.Lib.Window
