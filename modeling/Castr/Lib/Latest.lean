import Castr.Lib.Since
import Mathlib.Data.List.Induction

/-! The last place in a run at which something happened. What happens at a place may depend on all
that came before it. -/

namespace Castr.Lib

variable {Event : Type*} (happens : List Event → Event → Prop)

/-- It happened at `event`, after `front`, and not again in what followed. -/
structure LastAt (run front : List Event) (event : Event) (since : List Event) : Prop where
  split : run = front ++ event :: since
  here : happens front event
  never : ∀ before next after, since = before ++ next :: after →
    ¬ happens (front ++ event :: before) next

variable {happens} {run front since : List Event} {event : Event}

theorem lastAt_snoc (next : Event) :
    LastAt happens (run ++ [next]) front event since ↔
      (happens run next ∧ front = run ∧ event = next ∧ since = []) ∨
      (¬ happens run next ∧ ∃ earlier, since = earlier ++ [next] ∧
        LastAt happens run front event earlier) := by
  constructor
  · intro last
    rcases Since.split_snoc last.split with ⟨rfl, rfl, rfl⟩ | ⟨earlier, rfl, rfl⟩
    · exact Or.inl ⟨last.here, rfl, rfl, rfl⟩
    · refine Or.inr ⟨last.never earlier _ [] rfl, earlier, rfl, rfl, last.here, ?_⟩
      intro before other after inside
      exact last.never before other (after ++ [next]) (by simp [inside])
  · rintro (⟨here, rfl, rfl, rfl⟩ | ⟨not, earlier, rfl, last⟩)
    · exact ⟨rfl, here, by simp⟩
    · refine ⟨by simp [last.split], last.here, ?_⟩
      intro before other after inside
      rcases Since.split_snoc inside with ⟨rfl, rfl, rfl⟩ | ⟨rest, rfl, same⟩
      · rwa [← last.split]
      · exact last.never before other rest same

variable (happens) in
theorem lastAt_exists (later : List Event) (here : happens front event) :
    ∃ place final since, LastAt happens (front ++ event :: later) place final since ∧
      front ++ [event] <+: place ++ [final] := by
  induction later using List.reverseRecOn with
  | nil => exact ⟨front, event, [], ⟨rfl, here, by simp⟩, List.prefix_rfl⟩
  | append_singleton later next ih =>
      obtain ⟨place, final, since, last, behind⟩ := ih
      rw [← List.cons_append, ← List.append_assoc]
      by_cases again : happens (front ++ event :: later) next
      · refine ⟨_, next, [], (lastAt_snoc next).mpr (Or.inl ⟨again, rfl, rfl, rfl⟩), ?_⟩
        exact ⟨later ++ [next], by simp⟩
      · exact ⟨place, final, since ++ [next],
          (lastAt_snoc next).mpr (Or.inr ⟨again, since, rfl, last⟩), behind⟩

theorem LastAt.unique {place later : List Event} {final : Event}
    (first : LastAt happens run front event since) (second : LastAt happens run place final later) :
    front = place ∧ event = final ∧ since = later := by
  induction run using List.reverseRecOn generalizing since later with
  | nil => simpa using first.split
  | append_singleton run next ih =>
      rcases (lastAt_snoc _).mp first with ⟨here, rfl, rfl, rfl⟩ | ⟨not, earlier, rfl, last⟩ <;>
        rcases (lastAt_snoc _).mp second with ⟨there, rfl, rfl, rfl⟩ | ⟨none, before, rfl, other⟩
      · exact ⟨rfl, rfl, rfl⟩
      · exact absurd here none
      · exact absurd there not
      · obtain ⟨rfl, rfl, rfl⟩ := ih last other
        exact ⟨rfl, rfl, rfl⟩

end Castr.Lib
