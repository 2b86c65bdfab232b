import Mathlib.Data.List.Sort
import Mathlib.Data.List.Dedup

/-! Numbered items that arrive out of order, handed on in the order of their numbers.

What is held is sorted, and all that is below the next number has been handed on. -/

namespace Castr.Lib.Resequence

/-- What is next is handed on, and whatever follows it without a gap. -/
def handOn : Nat → List Nat → Nat × List Nat
  | next, [] => (next, [])
  | next, head :: rest => if head = next then handOn (next + 1) rest else (next, head :: rest)

def accept (state : Nat × List Nat) (number : Nat) : Nat × List Nat :=
  if number < state.1 ∨ number ∈ state.2 then state
  else handOn state.1 (state.2.orderedInsert (· ≤ ·) number)

theorem handOn_split (next : Nat) (held : List Nat) (sorted : held.Pairwise (· < ·))
    (above : ∀ number ∈ held, next ≤ number) :
    next ≤ (handOn next held).1 ∧
      held = List.range' next ((handOn next held).1 - next) ++ (handOn next held).2 ∧
      ∀ number ∈ (handOn next held).2, (handOn next held).1 < number := by
  induction held generalizing next with
  | nil => simp [handOn]
  | cons head rest ih =>
      have later := List.pairwise_cons.mp sorted
      rw [handOn]
      split
      · rename_i here
        subst here
        obtain ⟨far, split, beyond⟩ := ih (head + 1) later.2 (fun number member =>
          later.1 number member)
        refine ⟨by omega, ?_, beyond⟩
        have one : (handOn (head + 1) rest).1 - head =
            (handOn (head + 1) rest).1 - (head + 1) + 1 := by
          omega
        rw [one, List.range'_succ, List.cons_append, ← split]
      · rename_i gap
        have first := above head List.mem_cons_self
        refine ⟨le_rfl, by simp, ?_⟩
        intro number member
        rcases List.mem_cons.mp member with rfl | behind
        · dsimp only
          omega
        · have order := later.1 number behind
          dsimp only
          omega

/-- What has arrived is handed on up to the first gap, and held beyond it. -/
structure Holds (arrived : List Nat) (state : Nat × List Nat) : Prop where
  done : ∀ number < state.1, number ∈ arrived
  waits : state.1 ∉ arrived
  held : ∀ number, number ∈ state.2 ↔ number ∈ arrived ∧ state.1 < number
  sorted : state.2.Pairwise (· < ·)

theorem holds_nil : Holds [] (0, []) :=
  ⟨fun number below => absurd below (Nat.not_lt_zero number), by simp, by simp, .nil⟩

theorem insert_sorted (held : List Nat) (number : Nat) (sorted : held.Pairwise (· < ·))
    (fresh : number ∉ held) : (held.orderedInsert (· ≤ ·) number).Pairwise (· < ·) := by
  have weak : (held.orderedInsert (· ≤ ·) number).Pairwise (· ≤ ·) :=
    (sorted.imp (fun order => Nat.le_of_lt order)).orderedInsert number held
  have single : (held.orderedInsert (· ≤ ·) number).Nodup :=
    (List.perm_orderedInsert (· ≤ ·) number held).nodup_iff.mpr
      (List.nodup_cons.mpr ⟨fresh, sorted.imp (fun order => Nat.ne_of_lt order)⟩)
  exact (weak.and single).imp (fun both => Nat.lt_of_le_of_ne both.1 both.2)

theorem accept_holds (arrived : List Nat) (state : Nat × List Nat) (number : Nat)
    (holds : Holds arrived state) : Holds (arrived ++ [number]) (accept state number) := by
  obtain ⟨done, waits, held, sorted⟩ := holds
  unfold accept
  split
  · rename_i again
    have known : number ∈ arrived := by
      rcases again with below | inside
      · exact done number below
      · exact ((held number).mp inside).1
    have same (other : Nat) : other ∈ arrived ++ [number] ↔ other ∈ arrived := by
      simp only [List.mem_append, List.mem_singleton, or_iff_left_iff_imp]
      rintro rfl
      exact known
    exact ⟨fun other below => (same other).mpr (done other below), mt (same _).mp waits,
      fun other => (held other).trans (by rw [same]), sorted⟩
  · rename_i new
    simp only [not_or, Nat.not_lt] at new
    have ordered := insert_sorted state.2 number sorted new.2
    have inside (other : Nat) : other ∈ state.2.orderedInsert (· ≤ ·) number ↔
        other = number ∨ other ∈ arrived ∧ state.1 < other := by
      rw [List.mem_orderedInsert, held]
    have above : ∀ other ∈ state.2.orderedInsert (· ≤ ·) number, state.1 ≤ other := by
      intro other member
      rcases (inside other).mp member with rfl | later
      · exact new.1
      · exact later.2.le
    obtain ⟨far, split, beyond⟩ := handOn_split state.1 _ ordered above
    generalize handOn state.1 (state.2.orderedInsert (· ≤ ·) number) = result at far split beyond ⊢
    have parts (other : Nat) : other ∈ state.2.orderedInsert (· ≤ ·) number ↔
        (state.1 ≤ other ∧ other < result.1) ∨ other ∈ result.2 := by
      rw [split, List.mem_append, List.mem_range'_1]
      have sum : state.1 + (result.1 - state.1) = result.1 := by omega
      rw [sum]
    have arrives (other : Nat) : other ∈ arrived ++ [number] ↔ other ∈ arrived ∨ other =
        number := by
      simp
    constructor
    · intro other below
      rw [arrives]
      by_cases early : other < state.1
      · exact Or.inl (done other early)
      · rcases (inside other).mp ((parts other).mpr (Or.inl ⟨by omega, below⟩)) with same | later
        · exact Or.inr same
        · exact Or.inl later.1
    · rw [arrives]
      intro come
      have member : result.1 ∈ state.2.orderedInsert (· ≤ ·) number := by
        rw [inside]
        rcases come with before | same
        · by_cases next : result.1 = state.1
          · exact absurd (next ▸ before) waits
          · exact Or.inr ⟨before, by omega⟩
        · exact Or.inl same
      rcases (parts result.1).mp member with within | held
      · exact absurd within.2 (Nat.lt_irrefl _)
      · exact absurd (beyond _ held) (Nat.lt_irrefl _)
    · intro other
      rw [arrives]
      constructor
      · intro member
        have later := beyond other member
        rcases (inside other).mp ((parts other).mpr (Or.inr member)) with same | before
        · exact ⟨Or.inr same, later⟩
        · exact ⟨Or.inl before.1, later⟩
      · rintro ⟨come, later⟩
        have member : other ∈ state.2.orderedInsert (· ≤ ·) number := by
          rw [inside]
          rcases come with before | same
          · exact Or.inr ⟨before, by omega⟩
          · exact Or.inl same
        rcases (parts other).mp member with within | held
        · omega
        · exact held
    · rw [split] at ordered
      exact (List.pairwise_append.mp ordered).2.1

theorem accept_forward (arrived : List Nat) (state : Nat × List Nat) (number : Nat)
    (holds : Holds arrived state) : state.1 ≤ (accept state number).1 := by
  have later := accept_holds arrived state number holds
  by_contra back
  exact later.waits (List.mem_append_left _ (holds.done _ (Nat.lt_of_not_le back)))

theorem held_length (arrived more : List Nat) (state : Nat × List Nat)
    (holds : Holds arrived state) : state.2.length ≤
      ((arrived ++ more).dedup.filter (fun number => state.1 < number)).length := by
  have single : state.2.Nodup := holds.sorted.imp (fun order => Nat.ne_of_lt order)
  apply (List.subperm_of_subset single _).length_le
  intro number member
  have both := (holds.held number).mp member
  exact List.mem_filter.mpr
    ⟨List.mem_dedup.mpr (List.mem_append_left more both.1), by simpa using both.2⟩

theorem holds_all (arrived : List Nat) (state : Nat × List Nat) (bound : Nat)
    (holds : Holds arrived state) (all : ∀ number, number ∈ arrived ↔ number < bound) :
    state = (bound, []) := by
  have next : state.1 = bound := by
    have high : bound ≤ state.1 := by
      by_contra low
      exact holds.waits ((all _).mpr (by omega))
    by_contra apart
    have member := holds.done bound (by omega)
    exact absurd ((all bound).mp member) (Nat.lt_irrefl _)
  have none : state.2 = [] := by
    apply List.eq_nil_iff_forall_not_mem.mpr
    intro number member
    have both := (holds.held number).mp member
    have below := (all number).mp both.1
    omega
  exact Prod.ext next none

end Castr.Lib.Resequence
