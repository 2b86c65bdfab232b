import Mathlib.Data.List.GetD

/-! Code that may stop short: reads and slices of a list that are checked against its length,
differences that must not go below zero, and loops that must end. `none` is a panic, or a loop that
does not end within its bound. -/

namespace Castr.Lib.Slices

section Reads

variable {α : Type*}

def fetch (items : List α) (i : Nat) : Option α := items[i]?

def after (items : List α) (start : Nat) : Option (List α) :=
  if start ≤ items.length then some (items.drop start) else none

def between (items : List α) (start stop : Nat) : Option (List α) :=
  if start ≤ stop ∧ stop ≤ items.length then some ((items.take stop).drop start) else none

def getRange (items : List α) (start stop : Nat) : Option (List α) :=
  if start ≤ stop ∧ stop ≤ items.length then some ((items.drop start).take (stop - start))
  else none

def less (a b : Nat) : Option Nat := if b ≤ a then some (a - b) else none

def insertAt (items : List α) (place : Nat) (item : α) : Option (List α) :=
  if place ≤ items.length then some (items.insertIdx place item) else none

def store (items : List α) (i : Nat) (item : α) : Option (List α) :=
  if i < items.length then some (items.set i item) else none

def copyInto (items : List α) (start stop : Nat) (part : List α) : Option (List α) :=
  if start ≤ stop ∧ stop ≤ items.length ∧ part.length = stop - start then
    some (items.take start ++ part ++ items.drop stop)
  else none

def removeFirst : List α → Option (α × List α)
  | [] => none
  | first :: rest => some (first, rest)

variable {items : List α} {i start stop : Nat}

theorem fetch_eq (default : α) (inside : i < items.length) :
    fetch items i = some (items.getD i default) := by
  rw [fetch, List.getElem?_eq_getElem inside, List.getD_eq_getElem _ _ inside]

theorem after_eq (inside : start ≤ items.length) : after items start = some (items.drop start) :=
  if_pos inside

theorem between_eq (order : start ≤ stop) (inside : stop ≤ items.length) :
    between items start stop = some ((items.drop start).take (stop - start)) := by
  rw [between, if_pos ⟨order, inside⟩, List.drop_take]

theorem getRange_eq (items : List α) (start n : Nat) : getRange items start (start + n) =
    if n ≤ (items.drop start).length ∧ start ≤ items.length then
      some ((items.drop start).take n)
    else none := by
  unfold getRange
  rw [Nat.add_sub_cancel_left, List.length_drop]
  refine if_congr ?_ rfl rfl
  omega

theorem less_eq {a b : Nat} (order : b ≤ a) : less a b = some (a - b) := if_pos order

theorem insertAt_eq {place : Nat} (inside : place ≤ items.length) (item : α) :
    insertAt items place item = some (items.insertIdx place item) := if_pos inside

/-- Some places hold a new part, and the others what they did. -/
structure Patched (items result : List α) (start stop : Nat) (part : List α) : Prop where
  length : result.length = items.length
  inside : (result.drop start).take (stop - start) = part
  outside : ∀ i n, i + n ≤ start ∨ stop ≤ i → (result.drop i).take n = (items.drop i).take n

theorem copyInto_patched {part : List α} (order : start ≤ stop) (inside : stop ≤ items.length)
    (whole : part.length = stop - start) :
    ∃ result, copyInto items start stop part = some result ∧
      Patched items result start stop part := by
  have front : (items.take start).length = start := by
    rw [List.length_take]
    omega
  refine ⟨_, if_pos ⟨order, inside, whole⟩, ?_, ?_, ?_⟩
  · simp only [List.length_append, List.length_drop, front, whole]
    omega
  · rw [List.append_assoc, List.drop_append_of_le_length (by omega),
      List.drop_of_length_le (by omega), List.nil_append,
      List.take_append_of_le_length (by omega), List.take_of_length_le (by omega)]
  · intro i n apart
    refine List.ext_getElem? (fun k => ?_)
    rw [List.getElem?_take, List.getElem?_take, List.getElem?_drop, List.getElem?_drop]
    split
    · rcases apart with before | behind
      · rw [List.append_assoc, List.getElem?_append_left (by omega),
          List.getElem?_take_of_lt (by omega)]
      · rw [List.getElem?_append_right (by rw [List.length_append]; omega), List.getElem?_drop,
          List.length_append, front, whole]
        congr 1
        omega
    · rfl

theorem store_patched (inside : i < items.length) (item : α) :
    ∃ result, store items i item = some result ∧ Patched items result i (i + 1) [item] := by
  obtain ⟨result, copied, patched⟩ := copyInto_patched (Nat.le_succ i) inside
    (show [item].length = i + 1 - i by simp)
  refine ⟨result, ?_, patched⟩
  rw [store, if_pos inside, List.set_eq_take_append_cons_drop, if_pos inside, ← copied, copyInto,
    if_pos ⟨Nat.le_succ i, inside, by simp⟩, List.append_assoc]
  rfl

theorem take_two (default : α) (inside : i + 2 ≤ items.length) :
    (items.drop i).take 2 = [items.getD i default, items.getD (i + 1) default] := by
  rw [List.drop_eq_getElem_cons (by omega), List.drop_eq_getElem_cons (by omega),
    List.getD_eq_getElem _ _ (by omega), List.getD_eq_getElem _ _ (by omega)]
  rfl

end Reads

section Loops

variable {State Result : Type*}

/-- A loop of at most `bound` turns, each of which goes on or is the last. -/
def loop (turn : State → Option (State ⊕ Result)) : Nat → State → Option Result
  | 0, _ => none
  | bound + 1, state =>
      match turn state with
      | none => none
      | some (.inl next) => loop turn bound next
      | some (.inr result) => some result

theorem loop_spec (turn : State → Option (State ⊕ Result)) (Inv : State → Prop)
    (left : State → Nat) (Post : Result → Prop)
    (each : ∀ state, Inv state → (∃ result, turn state = some (.inr result) ∧ Post result) ∨
      ∃ next, turn state = some (.inl next) ∧ Inv next ∧ left next < left state)
    (bound : Nat) (state : State) (inv : Inv state) (enough : left state < bound) :
    ∃ result, loop turn bound state = some result ∧ Post result := by
  induction bound generalizing state with
  | zero => exact absurd enough (Nat.not_lt_zero _)
  | succ bound ih =>
      rw [loop]
      rcases each state inv with ⟨result, last, post⟩ | ⟨next, taken, kept, closer⟩
      · rw [last]
        exact ⟨result, rfl, post⟩
      · rw [taken]
        exact ih next kept (by omega)

theorem loop_eq (turn : State → Option (State ⊕ Result)) (left : State → Nat)
    (ahead : State → Result)
    (each : ∀ state, turn state = some (.inr (ahead state)) ∨
      ∃ next, turn state = some (.inl next) ∧ left next < left state ∧ ahead next = ahead state)
    (bound : Nat) (state : State) (enough : left state < bound) :
    loop turn bound state = some (ahead state) := by
  obtain ⟨result, ended, same⟩ := loop_spec turn (fun s => ahead s = ahead state) left
    (fun result => result = ahead state) (by
      intro s same
      rcases each s with last | ⟨next, taken, closer, kept⟩
      · exact .inl ⟨ahead s, last, same⟩
      · exact .inr ⟨next, taken, kept.trans same, closer⟩) bound state rfl enough
  exact ended.trans (congrArg some same)

end Loops

end Castr.Lib.Slices
