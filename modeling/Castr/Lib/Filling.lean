import Mathlib.Data.List.Basic
import Castr.Lib.Slices

/-! Loops that fill a list place after place, loops over rows and columns, and every second item of
a list. -/

namespace Castr.Lib.Filling

open Castr.Lib.Slices

section Nested

variable {State Row Column : Type*}

def eachCell (rows : List Row) (columns : List Column)
    (turn : State → Row → Column → Option State) (state : State) : Option State :=
  rows.foldlM (fun state row => columns.foldlM (fun state column => turn state row column) state)
    state

def grid (rows : List Row) (columns : List Column) : List (Row × Column) :=
  rows.flatMap (fun row => columns.map (fun column => (row, column)))

theorem eachCell_eq (rows : List Row) (columns : List Column)
    (turn : State → Row → Column → Option State) (state : State) :
    eachCell rows columns turn state =
      (grid rows columns).foldlM (fun state cell => turn state cell.1 cell.2) state := by
  induction rows generalizing state with
  | nil => rfl
  | cons row rows ih =>
      have first : (grid (row :: rows) columns) =
          columns.map (fun column => (row, column)) ++ grid rows columns := by
        rw [grid, List.flatMap_cons, grid]
      rw [first, List.foldlM_append, List.foldlM_map]
      exact Option.bind_congr (fun next _ => ih next)

theorem mem_grid {rows : List Row} {columns : List Column} {cell : Row × Column} :
    cell ∈ grid rows columns ↔ cell.1 ∈ rows ∧ cell.2 ∈ columns := by
  obtain ⟨row, column⟩ := cell
  rw [grid, List.mem_flatMap]
  constructor
  · rintro ⟨_, inside, member⟩
    obtain ⟨_, also, same⟩ := List.mem_map.mp member
    obtain ⟨rfl, rfl⟩ := Prod.mk.inj same
    exact ⟨inside, also⟩
  · rintro ⟨inside, also⟩
    exact ⟨row, inside, List.mem_map.mpr ⟨column, also, rfl⟩⟩

theorem range_rows (w n : Nat) : (List.range n).flatMap (fun r =>
    (List.range w).map (fun j => r * w + j)) = List.range (n * w) := by
  induction n with
  | zero => simp
  | succ n ih =>
      rw [List.range_succ, List.flatMap_append, ih, List.flatMap_singleton, Nat.succ_mul,
        List.range_add]

theorem grid_range (h w : Nat) :
    (grid (List.range h) (List.range w)).map (fun cell => cell.1 * w + cell.2) =
      List.range (h * w) := by
  rw [grid, List.map_flatMap, ← range_rows]
  simp only [List.map_map, Function.comp_def]

theorem grid_map {Row' Column' : Type*} (f : Row → Row') (g : Column → Column') (rows : List Row)
    (columns : List Column) :
    grid (rows.map f) (columns.map g) = (grid rows columns).map (Prod.map f g) := by
  rw [grid, grid, List.flatMap_map, List.map_flatMap]
  simp only [List.map_map, Function.comp_def, Prod.map_apply]

theorem grid_length (rows : List Row) (columns : List Column) :
    (grid rows columns).length = rows.length * columns.length := by
  simp [grid, List.length_flatMap]

theorem grid_getElem? {h w row column : Nat} (down : row < h) (across : column < w) :
    (grid (List.range h) (List.range w))[row * w + column]? = some (row, column) := by
  have bound : row * w + column < h * w := by
    have := Nat.mul_le_mul_right w (Nat.succ_le_of_lt down)
    rw [Nat.succ_mul] at this
    omega
  have inside : row * w + column < (grid (List.range h) (List.range w)).length := by
    rw [grid_length, List.length_range, List.length_range]
    exact bound
  rw [List.getElem?_eq_getElem inside]
  generalize found : (grid (List.range h) (List.range w))[row * w + column] = cell
  have member : cell ∈ grid (List.range h) (List.range w) := found ▸ List.getElem_mem inside
  have second := List.mem_range.mp (mem_grid.mp member).2
  have count : cell.1 * w + cell.2 = row * w + column := by
    have same := congrArg (fun cells => cells[row * w + column]?) (grid_range h w)
    simpa [List.getElem?_eq_getElem inside, found, bound] using same
  have fst : cell.1 = row := by
    have left := Nat.add_mul_div_right cell.2 cell.1 (Nat.zero_lt_of_lt second)
    have right := Nat.add_mul_div_right column row (Nat.zero_lt_of_lt second)
    rw [Nat.div_eq_of_lt second, Nat.add_comm, count] at left
    rw [Nat.div_eq_of_lt across, Nat.add_comm] at right
    omega
  have snd : cell.2 = column := by
    rw [fst] at count
    omega
  rw [← fst, ← snd]

end Nested

section Filled

universe u

variable {Item α : Type*} {State Other : Type u}

theorem foldlM_store (place : Item → Nat) (value : Item → α) (items : List Item) (start : Nat)
    (cells : List α) (consecutive : items.map place = List.range' start items.length)
    (fits : start + items.length ≤ cells.length) :
    items.foldlM (fun cells item => store cells (place item) (value item)) cells =
      some (cells.take start ++ items.map value ++ cells.drop (start + items.length)) := by
  induction items generalizing start cells with
  | nil => simp
  | cons item items ih =>
      rw [List.length_cons] at fits consecutive ⊢
      rw [List.map_cons, List.range'_succ] at consecutive
      obtain ⟨first, rest⟩ := List.cons.inj consecutive
      have inside : place item < cells.length := by omega
      rw [List.foldlM_cons, store, if_pos inside]
      refine (ih (start + 1) _ rest (by rw [List.length_set]; omega)).trans ?_
      rw [first, List.take_set, List.take_add_one, List.getElem?_eq_getElem (by omega),
        List.set_append_right _ _ (by rw [List.length_take]; omega), List.drop_set_of_lt (by omega)]
      have before : min start cells.length = start := by omega
      simp [before, Nat.add_comm, Nat.add_left_comm]

theorem filled (place : Item → Nat) (value : Item → α) (items : List Item) (cells : List α)
    (consecutive : items.map place = List.range cells.length) :
    items.foldlM (fun cells item => store cells (place item) (value item)) cells =
      some (items.map value) := by
  have sized : items.length = cells.length := by
    simpa using congrArg List.length consecutive
  refine (foldlM_store place value items 0 cells ?_ (by omega)).trans ?_
  · rw [consecutive, sized, List.range_eq_range']
  · simp [sized]

theorem foldlM_congr {step other : State → Item → Option State} (items : List Item)
    (same : ∀ item ∈ items, ∀ state, step state item = other state item) (state : State) :
    items.foldlM step state = items.foldlM other state := by
  induction items generalizing state with
  | nil => rfl
  | cons item items ih =>
      rw [List.foldlM_cons, List.foldlM_cons, same item List.mem_cons_self state]
      exact Option.bind_congr (fun next _ =>
        ih (fun later member => same later (List.mem_cons_of_mem item member)) next)

theorem foldlM_pair (step : State → Item → Option State) (also : Other → Item → Option Other)
    (items : List Item) {first last : State} {second final : Other}
    (left : items.foldlM step first = some last)
    (right : items.foldlM also second = some final) :
    items.foldlM (fun (state : State × Other) item => do
      let one ← step state.1 item
      let two ← also state.2 item
      pure (one, two)) (first, second) = some (last, final) := by
  induction items generalizing first second with
  | nil =>
      cases left
      cases right
      rfl
  | cons item items ih =>
      rw [List.foldlM_cons] at left right ⊢
      obtain ⟨one, stepped, left⟩ := Option.bind_eq_some_iff.mp left
      obtain ⟨two, taken, right⟩ := Option.bind_eq_some_iff.mp right
      rw [stepped, taken]
      exact ih left right

end Filled

section Alternating

variable {α : Type*}

def everySecond : List α → List α
  | [] => []
  | [item] => [item]
  | item :: _ :: rest => item :: everySecond rest

def interleave (first second : List α) : List α :=
  (first.zip second).flatMap (fun pair => [pair.1, pair.2])

theorem everySecond_range' (start n : Nat) :
    everySecond (List.range' start (2 * n)) =
      (List.range n).map (fun i => start + 2 * i) := by
  induction n generalizing start with
  | zero => rfl
  | succ n ih =>
      rw [Nat.mul_succ, List.range'_succ, List.range'_succ, everySecond, ih, List.range_succ_eq_map,
        List.map_cons, List.map_map]
      congr 1
      refine List.map_congr_left (fun i _ => ?_)
      simp only [Function.comp_apply]
      omega

theorem everySecond_range (n : Nat) :
    everySecond (List.range (2 * n)) = (List.range n).map (2 * ·) := by
  rw [List.range_eq_range', everySecond_range' 0 n]
  simp only [Nat.zero_add]

theorem interleave_length (first second : List α) (sized : first.length = second.length) :
    (interleave first second).length = first.length + second.length := by
  simp [interleave, List.length_flatMap, sized]
  omega

theorem everySecond_cons (item : α) (rest : List α) :
    everySecond (item :: rest) = item :: everySecond (rest.drop 1) := by
  cases rest with
  | nil => rfl
  | cons _ _ => rfl

theorem everySecond_interleave (first second : List α) (sized : first.length = second.length) :
    everySecond (interleave first second) = first ∧
      everySecond ((interleave first second).drop 1) = second := by
  induction first generalizing second with
  | nil =>
      cases second with
      | nil => exact ⟨rfl, rfl⟩
      | cons _ _ => simp at sized
  | cons one first ih =>
      cases second with
      | nil => simp at sized
      | cons two second =>
          obtain ⟨left, right⟩ := ih second (Nat.succ.inj sized)
          have pairs : interleave (one :: first) (two :: second) =
              one :: two :: interleave first second := rfl
          rw [pairs, everySecond, left, List.drop_one, List.tail_cons, everySecond_cons, right]
          exact ⟨rfl, rfl⟩

end Alternating

end Castr.Lib.Filling
