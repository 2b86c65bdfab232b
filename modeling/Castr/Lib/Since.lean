import Mathlib.Data.List.Basic

/-! Logs with marks in them: what was logged since the last mark, and what holds of every entry
together with those before it. -/

namespace Castr.Lib.Since

variable {Entry : Type*} {log front back : List Entry} {entry other : Entry}

theorem split_snoc (split : log ++ [entry] = front ++ other :: back) :
    (log = front ∧ entry = other ∧ back = []) ∨
      ∃ rest, back = rest ++ [entry] ∧ log = front ++ other :: rest := by
  rcases List.eq_nil_or_concat back with rfl | ⟨rest, final, rfl⟩
  · obtain ⟨rfl, same⟩ := List.append_inj' split rfl
    exact .inl ⟨rfl, (List.cons.inj same).1, rfl⟩
  · rw [List.concat_eq_append, ← List.cons_append, ← List.append_assoc] at split
    obtain ⟨before, same⟩ := List.append_inj' split rfl
    rw [List.concat_eq_append, (List.cons.inj same).1]
    exact .inr ⟨rest, rfl, before⟩

variable (mark : Entry → Bool)

def since (log : List Entry) : List Entry :=
  log.foldl (fun kept entry => if mark entry then [] else kept ++ [entry]) []

@[simp] theorem since_nil : since mark [] = [] := rfl

variable {mark}

theorem since_mark (marks : mark entry = true) (log : List Entry) :
    since mark (log ++ [entry]) = [] := by
  rw [since, List.foldl_append, List.foldl_cons, List.foldl_nil, if_pos marks]

theorem since_other (other : mark entry = false) (log : List Entry) :
    since mark (log ++ [entry]) = since mark log ++ [entry] := by
  rw [since, List.foldl_append, List.foldl_cons, List.foldl_nil, if_neg (by rw [other]; decide)]
  rfl

def Each (Good : List Entry → Entry → Prop) (log : List Entry) : Prop :=
  ∀ front entry back, log = front ++ entry :: back → Good front entry

variable {Good : List Entry → Entry → Prop}

theorem each_nil : Each Good [] := by
  intro front entry back split
  exact absurd split.symm (List.append_ne_nil_of_right_ne_nil front (List.cons_ne_nil entry back))

theorem each_snoc (each : Each Good log) (last : Good log entry) : Each Good (log ++ [entry]) := by
  intro front other back split
  rcases split_snoc split with ⟨rfl, rfl, rfl⟩ | ⟨rest, rfl, before⟩
  · exact last
  · exact each front other rest before

end Castr.Lib.Since
