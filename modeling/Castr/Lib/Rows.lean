import Castr.Lib.Filling

/-! Pictures as bytes in rows: pieces of one width put behind each other, rows that are copied one
by one into a larger picture, and pieces that are copied each to a place of its own. -/

namespace Castr.Lib.Rows

open Castr.Lib.Filling Castr.Lib.Slices

universe u

variable {α : Type u} {Item : Type u}

/-- The piece at a place, all pieces being of one width. -/
def piece (bytes : List α) (width place : Nat) : List α := (bytes.drop (place * width)).take width

theorem piece_flatMap (f : Item → List α) (width : Nat) (items : List Item)
    (each : ∀ item ∈ items, (f item).length = width) (place : Nat) (item : Item)
    (here : items[place]? = some item) : piece (items.flatMap f) width place = f item := by
  induction items generalizing place with
  | nil => simp at here
  | cons first rest ih =>
      obtain ⟨sized, later⟩ := List.forall_mem_cons.mp each
      rw [piece, List.flatMap_cons]
      cases place with
      | zero =>
          obtain rfl := Option.some.inj here
          rw [Nat.zero_mul, List.drop_zero, List.take_append_of_le_length (by omega),
            List.take_of_length_le (by omega)]
      | succ place =>
          have skipped : (place + 1) * width = (f first).length + place * width := by
            rw [sized, Nat.succ_mul, Nat.add_comm]
          rw [skipped, ← List.drop_drop, List.drop_left]
          exact ih later place here

theorem flatMap_width (f : Item → List α) (width : Nat) (items : List Item)
    (each : ∀ item ∈ items, (f item).length = width) :
    (items.flatMap f).length = items.length * width := by
  induction items with
  | nil => simp
  | cons first rest ih =>
      obtain ⟨sized, later⟩ := List.forall_mem_cons.mp each
      rw [List.flatMap_cons, List.length_append, ih later, sized, List.length_cons, Nat.succ_mul,
        Nat.add_comm]

theorem foldlM_behind (turn : List α → Item → Option (List α)) (f : Item → List α)
    (items : List Item) (each : ∀ item ∈ items, ∀ out, turn out item = some (out ++ f item))
    (out : List α) : items.foldlM turn out = some (out ++ items.flatMap f) := by
  induction items generalizing out with
  | nil => simp
  | cons first rest ih =>
      obtain ⟨here, later⟩ := List.forall_mem_cons.mp each
      rw [List.foldlM_cons, here]
      refine (ih later _).trans ?_
      rw [List.flatMap_cons, List.append_assoc]

section Windows

structure Window where
  left : Nat
  top : Nat
  width : Nat
  height : Nat

def Window.Holds (view : Window) (row col : Nat) : Prop :=
  view.top ≤ row ∧ row < view.top + view.height ∧ view.left ≤ col ∧ col < view.left + view.width

instance (view : Window) (row col : Nat) : Decidable (view.Holds row col) :=
  inferInstanceAs (Decidable (_ ∧ _ ∧ _ ∧ _))

/-- The rows of a window copied one after another from a picture of its size. -/
def copyRows (unit across : Nat) (view : Window) (source out : List α) : Option (List α) :=
  (List.range view.height).foldlM (fun out row => do
    let begun := row * view.width * unit
    let start := ((view.top + row) * across + view.left) * unit
    let part ← between source begun (begun + view.width * unit)
    copyInto out start (start + view.width * unit) part) out

/-- The window shows the source, and the rest of the picture is what it was. -/
structure Shows (unit across : Nat) (view : Window) (source before out : List α) : Prop where
  length : out.length = before.length
  inside : ∀ row col, view.Holds row col → piece out unit (row * across + col) =
    piece source unit ((row - view.top) * view.width + (col - view.left))
  outside : ∀ row col, col < across → ¬ view.Holds row col →
    piece out unit (row * across + col) = piece before unit (row * across + col)

theorem piece_part (bytes : List α) (unit start count place : Nat) (inside : place < count) :
    (((bytes.drop (start * unit)).take (count * unit)).drop (place * unit)).take unit =
      piece bytes unit (start + place) := by
  have room : unit ≤ count * unit - place * unit := by
    rw [← Nat.sub_mul]
    exact Nat.le_mul_of_pos_left unit (by omega)
  rw [piece, List.drop_take, List.take_take, Nat.min_eq_left room, List.drop_drop, ← Nat.add_mul]

variable {unit across : Nat} {view : Window} {source before out : List α}

theorem shows_row (shows : Shows unit across view source before out)
    (fits : view.left + view.width ≤ across) (result : List α)
    (patched : Patched out result (((view.top + view.height) * across + view.left) * unit)
      (((view.top + view.height) * across + view.left) * unit + view.width * unit)
      ((source.drop (view.height * view.width * unit)).take (view.width * unit))) :
    Shows unit across { view with height := view.height + 1 } source before result := by
  have apart (row col : Nat) (within : col < across)
      (other : row ≠ view.top + view.height ∨ col < view.left ∨ view.left + view.width ≤ col) :
      piece result unit (row * across + col) = piece out unit (row * across + col) := by
    refine patched.outside _ unit ?_
    rw [← Nat.add_mul, ← Nat.succ_mul]
    rcases Nat.lt_trichotomy row (view.top + view.height) with early | same | late
    · have rows := Nat.mul_le_mul_right across early
      rw [Nat.succ_mul] at rows
      exact .inl (Nat.mul_le_mul_right unit (by omega))
    · subst same
      rcases other.resolve_left (not_not.mpr rfl) with before | behind
      · exact .inl (Nat.mul_le_mul_right unit (by omega))
      · exact .inr (Nat.mul_le_mul_right unit (by omega))
    · have rows := Nat.mul_le_mul_right across late
      rw [Nat.succ_mul] at rows
      exact .inr (Nat.mul_le_mul_right unit (by omega))
  refine ⟨patched.length.trans shows.length, ?_, ?_⟩
  · rintro row col ⟨above, below, left, right⟩
    dsimp only at above below left right
    by_cases last : row = view.top + view.height
    · subst last
      obtain ⟨place, rfl⟩ := Nat.exists_eq_add_of_le left
      have here := patched.inside
      rw [Nat.add_sub_cancel_left] at here
      have inside : place < view.width := by omega
      rw [Nat.add_sub_cancel_left, Nat.add_sub_cancel_left, ← Nat.add_assoc,
        ← piece_part result unit _ view.width place inside, here,
        piece_part source unit _ view.width place inside]
    · rw [apart row col (by omega) (.inl last)]
      exact shows.inside row col ⟨above, by omega, left, right⟩
  · intro row col within out_
    rw [apart row col within (by simp [Window.Holds] at out_; omega)]
    refine shows.outside row col within ?_
    rintro ⟨above, below, left, right⟩
    exact out_ ⟨above, by dsimp only; omega, left, right⟩

theorem shows_none (view : Window) (none_ : view.height = 0) :
    Shows unit across view source before before := by
  refine ⟨rfl, ?_, fun _ _ _ _ => rfl⟩
  rintro row col ⟨above, below, -, -⟩
  omega

theorem copyRows_shows (unit across : Nat) (view : Window) (source out : List α)
    (across_ : view.left + view.width ≤ across)
    (down : ∀ row < view.height,
      ((view.top + row) * across + view.left) * unit + view.width * unit ≤ out.length)
    (whole : view.height * view.width * unit ≤ source.length) :
    ∃ result, copyRows unit across view source out = some result ∧
      Shows unit across view source out result := by
  obtain ⟨left, top, width, height⟩ := view
  dsimp only at across_ down whole
  induction height with
  | zero => exact ⟨out, rfl, shows_none _ rfl⟩
  | succ height ih =>
      have rows : (height + 1) * width * unit = height * width * unit + width * unit := by
        rw [Nat.succ_mul, Nat.add_mul]
      obtain ⟨middle, copied, shows⟩ := ih (fun row below => down row (by omega)) (by omega)
      have room := down height (Nat.lt_succ_self height)
      rw [← shows.length] at room
      have sized : ((source.drop (height * width * unit)).take (width * unit)).length =
          width * unit := by
        rw [List.length_take, List.length_drop]
        omega
      obtain ⟨result, placed, patched⟩ := copyInto_patched (Nat.le_add_right _ _) room
        (by rw [sized, Nat.add_sub_cancel_left])
      refine ⟨result, ?_, shows_row shows across_ result patched⟩
      rw [copyRows] at copied ⊢
      dsimp only at copied ⊢
      rw [List.range_succ, List.foldlM_append, copied]
      simp only [Option.bind_eq_bind, Option.bind_some, List.foldlM_cons, List.foldlM_nil]
      rw [between_eq (Nat.le_add_right _ _) (by omega), Nat.add_sub_cancel_left, Option.bind_some,
        placed]
      rfl

end Windows

section Scattered

/-- Pieces copied one after another, each to a place of its own. -/
def copyPieces (unit : Nat) (target : Item → Nat) (value : Item → List α) (items : List Item)
    (out : List α) : Option (List α) :=
  items.foldlM (fun out item =>
    copyInto out (target item * unit) (target item * unit + unit) (value item)) out

theorem copyPieces_spec (unit : Nat) (target : Item → Nat) (value : Item → List α)
    (items : List Item) (out : List α) (apart : (items.map target).Nodup)
    (sized : ∀ item ∈ items, (value item).length = unit)
    (fits : ∀ item ∈ items, target item * unit + unit ≤ out.length) :
    ∃ result, copyPieces unit target value items out = some result ∧
      result.length = out.length ∧
      (∀ item ∈ items, piece result unit (target item) = value item) ∧
      ∀ place, (∀ item ∈ items, target item ≠ place) →
        piece result unit place = piece out unit place := by
  induction items generalizing out with
  | nil => exact ⟨out, rfl, rfl, nofun, fun _ _ => rfl⟩
  | cons first rest ih =>
      obtain ⟨size, sizes⟩ := List.forall_mem_cons.mp sized
      obtain ⟨room, rooms⟩ := List.forall_mem_cons.mp fits
      obtain ⟨other, others⟩ := List.nodup_cons.mp apart
      obtain ⟨middle, copied, patched⟩ := copyInto_patched (Nat.le_add_right _ unit) room
        (by rw [size, Nat.add_sub_cancel_left])
      obtain ⟨result, done, length, shown, kept⟩ := ih middle others sizes
        (by rw [patched.length]; exact rooms)
      refine ⟨result, ?_, length.trans patched.length, List.forall_mem_cons.mpr ⟨?_, shown⟩,
        fun place elsewhere => ?_⟩
      · rw [copyPieces, List.foldlM_cons, copied]
        exact done
      · have here := patched.inside
        rw [Nat.add_sub_cancel_left] at here
        exact (kept _ (fun item member same =>
          other (List.mem_map.mpr ⟨item, member, same⟩))).trans here
      · obtain ⟨away, aways⟩ := List.forall_mem_cons.mp elsewhere
        refine (kept place aways).trans (patched.outside _ unit ?_)
        rw [← Nat.succ_mul, ← Nat.succ_mul]
        rcases Nat.lt_or_gt_of_ne away with below | above
        · exact .inr (Nat.mul_le_mul_right unit below)
        · exact .inl (Nat.mul_le_mul_right unit above)

end Scattered

end Castr.Lib.Rows
