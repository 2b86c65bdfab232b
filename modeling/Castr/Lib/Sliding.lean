import Mathlib.Data.List.Induction

/-! A queue that is pruned from the front, of items whose times never go back: it holds what a
window over the whole history shows. -/

namespace Castr.Lib.Sliding

variable {Item : Type*} (time : Item → Nat) (width : Nat)

def recent (now : Nat) (items : List Item) : List Item :=
  items.filter (fun item => now - time item ≤ width)

/-- Drops items from the front until one is within the window. -/
def prune (now : Nat) (queue : List Item) : List Item :=
  queue.dropWhile (fun item => width < now - time item)

def push (queue : List Item) (item : Item) : List Item :=
  prune time width (time item) (queue ++ [item])

def Ordered (items : List Item) : Prop := items.Pairwise (fun a b => time a ≤ time b)

variable {time width}

theorem prune_eq (now : Nat) (queue : List Item) (ordered : Ordered time queue) :
    prune time width now queue = recent time width now queue := by
  induction queue with
  | nil => rfl
  | cons item queue ih =>
      obtain ⟨first, rest⟩ := List.pairwise_cons.mp ordered
      by_cases old : width < now - time item
      · have hidden : ¬decide (now - time item ≤ width) = true :=
          fun shown => absurd (of_decide_eq_true shown) (Nat.not_le_of_lt old)
        rw [prune, List.dropWhile_cons, if_pos (decide_eq_true old), recent,
          List.filter_cons, if_neg hidden]
        exact ih rest
      · have all : recent time width now (item :: queue) = item :: queue := by
          refine List.filter_eq_self.mpr (fun later member => decide_eq_true ?_)
          rcases List.mem_cons.mp member with rfl | inside
          · omega
          · have after := first later inside
            omega
        rw [all, prune, List.dropWhile_cons, if_neg (fun gone => old (of_decide_eq_true gone))]

theorem recent_append (now : Nat) (front back : List Item) :
    recent time width now (front ++ back) =
      recent time width now front ++ recent time width now back := List.filter_append _ _

theorem recent_recent {now later : Nat} (after : now ≤ later) (items : List Item) :
    recent time width later (recent time width now items) = recent time width later items := by
  rw [recent, recent, List.filter_filter]
  refine List.filter_congr (fun item _ => ?_)
  rw [Bool.and_eq_left_iff_imp]
  intro shown
  have close := of_decide_eq_true shown
  exact decide_eq_true (by omega)

theorem pushes_eq (items : List Item) (item : Item) (ordered : Ordered time (items ++ [item])) :
    (items ++ [item]).foldl (push time width) [] =
      recent time width (time item) (items ++ [item]) := by
  induction items using List.reverseRecOn generalizing item with
  | nil => exact prune_eq _ _ ordered
  | append_singleton items before ih =>
      obtain ⟨earlier, _, last⟩ := List.pairwise_append.mp ordered
      have order : time before ≤ time item := last before (by simp) item (by simp)
      have kept : Ordered time (recent time width (time before) (items ++ [before]) ++ [item]) :=
        ordered.sublist (List.filter_sublist.append (List.Sublist.refl _))
      rw [List.foldl_append, ih before earlier, List.foldl_cons, List.foldl_nil, push,
        prune_eq _ _ kept, recent_append, recent_recent order, ← recent_append]

theorem recent_pushes (items : List Item) (now : Nat) (ordered : Ordered time items)
    (past : ∀ item ∈ items, time item ≤ now) :
    recent time width now (items.foldl (push time width) []) = recent time width now items := by
  induction items using List.reverseRecOn with
  | nil => rfl
  | append_singleton items item _ =>
      rw [pushes_eq items item ordered, recent_recent (past item (by simp))]

end Castr.Lib.Sliding
