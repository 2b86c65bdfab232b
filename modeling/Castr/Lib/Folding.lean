import Mathlib.Data.List.Basic

/-! Folds over a list of steps: steps that may fail, and steps that each change places of their
own. -/

namespace Castr.Lib.Folding

section Guarded

variable {State Item : Type*}

theorem foldlM_iff (turn : State → Item → Option State) (step : State → Item → State)
    (ok : Item → Prop) (Inv : State → Prop)
    (each : ∀ state, Inv state → ∀ item next,
      turn state item = some next ↔ ok item ∧ step state item = next)
    (kept : ∀ state item, Inv state → Inv (step state item)) (items : List Item) (state : State)
    (inv : Inv state) (result : State) :
    items.foldlM turn state = some result ↔
      (∀ item ∈ items, ok item) ∧ items.foldl step state = result := by
  induction items generalizing state with
  | nil => simp
  | cons item items ih =>
      rw [List.foldlM_cons, List.forall_mem_cons, List.foldl_cons, and_assoc]
      constructor
      · intro run
        obtain ⟨next, taken, rest⟩ := Option.bind_eq_some_iff.mp run
        obtain ⟨good, rfl⟩ := (each state inv item next).mp taken
        exact ⟨good, (ih _ (kept state item inv)).mp rest⟩
      · rintro ⟨good, rest⟩
        exact Option.bind_eq_some_iff.mpr ⟨step state item, (each state inv item _).mpr ⟨good, rfl⟩,
          (ih _ (kept state item inv)).mpr rest⟩

end Guarded

section Touching

variable {Item α : Type*}

/-- A step changes the places that its item touches, each by what was there, and no others. -/
structure Touching (step : List α → Item → List α) (touches : Item → Nat → Prop)
    (value : Item → Nat → α → α) (size : Nat) : Prop where
  length : ∀ cells item, cells.length = size → (step cells item).length = size
  touched : ∀ cells item k, cells.length = size → touches item k →
    (step cells item)[k]? = cells[k]?.map (value item k)
  apart : ∀ cells item k, cells.length = size → ¬touches item k →
    (step cells item)[k]? = cells[k]?

variable {step : List α → Item → List α} {touches : Item → Nat → Prop}
  {value : Item → Nat → α → α} {size : Nat}

theorem Touching.foldl_length (touching : Touching step touches value size) (items : List Item)
    (cells : List α) (sized : cells.length = size) : (items.foldl step cells).length = size := by
  induction items generalizing cells with
  | nil => exact sized
  | cons item items ih => exact ih _ (touching.length cells item sized)

theorem Touching.foldl_apart (touching : Touching step touches value size) (items : List Item)
    (cells : List α) (sized : cells.length = size) (k : Nat)
    (none : ∀ item ∈ items, ¬touches item k) : (items.foldl step cells)[k]? = cells[k]? := by
  induction items generalizing cells with
  | nil => rfl
  | cons item items ih =>
      rw [List.foldl_cons, ih _ (touching.length cells item sized)
        (fun other member => none other (List.mem_cons_of_mem item member)),
        touching.apart cells item k sized (none item List.mem_cons_self)]

theorem Touching.foldl_touched (touching : Touching step touches value size) (items : List Item)
    (nodup : items.Nodup) (cells : List α) (sized : cells.length = size) (k : Nat) {item : Item}
    (member : item ∈ items) (touch : touches item k)
    (only : ∀ other ∈ items, touches other k → other = item) :
    (items.foldl step cells)[k]? = cells[k]?.map (value item k) := by
  induction items generalizing cells with
  | nil => exact absurd member List.not_mem_nil
  | cons first items ih =>
      obtain ⟨fresh, nodup⟩ := List.nodup_cons.mp nodup
      have next := touching.length cells first sized
      rw [List.foldl_cons]
      by_cases same : first = item
      · subst same
        have none : ∀ other ∈ items, ¬touches other k := by
          intro other inside again
          exact fresh (only other (List.mem_cons_of_mem first inside) again ▸ inside)
        rw [touching.foldl_apart items _ next k none, touching.touched cells first k sized touch]
      · have apart : ¬touches first k := fun again => same (only first List.mem_cons_self again)
        have later := (List.mem_cons.mp member).resolve_left (Ne.symm same)
        rw [ih nodup _ next later
          (fun other inside => only other (List.mem_cons_of_mem first inside)),
          touching.apart cells first k sized apart]

end Touching

end Castr.Lib.Folding
