import Mathlib.Algebra.Group.Nat.Defs
import Mathlib.Logic.Function.Basic
import Castr.Lib.Numbered

/-! Requests under consecutive numbers, each awaiting one answer. -/

namespace Castr.Lib.Tickets

open Castr.Lib.Numbered

variable {Kind : Type*}

structure Table (Kind : Type*) where
  next : UInt32
  pending : UInt32 → Option Kind

inductive Op (Kind : Type*) where
  | issue (kind : Kind)
  | settle (number : UInt32)

namespace Table

def after (t : Table Kind) : Op Kind → Table Kind
  | .issue kind => ⟨t.next + 1, Function.update t.pending t.next (some kind)⟩
  | .settle number => ⟨t.next, Function.update t.pending number none⟩

def afterAll (t : Table Kind) (ops : List (Op Kind)) : Table Kind := ops.foldl after t

@[simp] theorem next_issue (t : Table Kind) (kind : Kind) :
    (t.after (.issue kind)).next = t.next + 1 := rfl

@[simp] theorem next_settle (t : Table Kind) (number : UInt32) :
    (t.after (.settle number)).next = t.next := rfl

theorem pending_after_issue (t : Table Kind) (kind : Kind) (number : UInt32) :
    (t.after (.issue kind)).pending number =
      if number = t.next then some kind else t.pending number :=
  Function.update_apply _ _ _ _

theorem pending_after_settle (t : Table Kind) (number other : UInt32) :
    (t.after (.settle number)).pending other =
      if other = number then none else t.pending other :=
  Function.update_apply _ _ _ _

theorem pending_settle (t : Table Kind) (number other : UInt32) (kind : Kind)
    (awaited : (t.after (.settle number)).pending other = some kind) :
    other ≠ number ∧ t.pending other = some kind := by
  rw [pending_after_settle] at awaited
  split at awaited
  · cases awaited
  · rename_i apart
    exact ⟨apart, awaited⟩

theorem pending_issue (t : Table Kind) (given kind : Kind) (number : UInt32)
    (awaited : (t.after (.issue given)).pending number = some kind) :
    (number = t.next ∧ given = kind) ∨ t.pending number = some kind := by
  rw [pending_after_issue] at awaited
  split at awaited
  · rename_i fresh
    exact Or.inl ⟨fresh, Option.some.inj awaited⟩
  · exact Or.inr awaited

def gives (t : Table Kind) : Op Kind → List (UInt32 × Kind)
  | .issue kind => [(t.next, kind)]
  | .settle _ => []

def takes (t : Table Kind) : Op Kind → List (UInt32 × Kind)
  | .issue _ => []
  | .settle number => (t.pending number).toList.map (fun kind => (number, kind))

def issued (t : Table Kind) : List (Op Kind) → List (UInt32 × Kind)
  | [] => []
  | op :: ops => t.gives op ++ issued (t.after op) ops

def settled (t : Table Kind) : List (Op Kind) → List (UInt32 × Kind)
  | [] => []
  | op :: ops => t.takes op ++ settled (t.after op) ops

theorem afterAll_append (t : Table Kind) (front back : List (Op Kind)) :
    t.afterAll (front ++ back) = (t.afterAll front).afterAll back := List.foldl_append

theorem issued_append (t : Table Kind) (front back : List (Op Kind)) :
    t.issued (front ++ back) = t.issued front ++ (t.afterAll front).issued back := by
  induction front generalizing t with
  | nil => rfl
  | cons op front ih =>
      simp only [List.cons_append, issued, ih, List.append_assoc]
      rfl

theorem settled_append (t : Table Kind) (front back : List (Op Kind)) :
    t.settled (front ++ back) = t.settled front ++ (t.afterAll front).settled back := by
  induction front generalizing t with
  | nil => rfl
  | cons op front ih =>
      simp only [List.cons_append, settled, ih, List.append_assoc]
      rfl

theorem issued_numbers (t : Table Kind) (ops : List (Op Kind)) :
    (t.issued ops).map Prod.fst = counted t.next (t.issued ops).length := by
  induction ops generalizing t with
  | nil => rfl
  | cons op ops ih =>
      have later := ih (t.after op)
      cases op with
      | issue kind =>
          simp only [issued, gives, List.singleton_append, List.map_cons, List.length_cons, later,
            counted_succ]
          rfl
      | settle number => simpa only [issued, gives, List.nil_append, next_settle] using later

theorem issued_nodup (t : Table Kind) (ops : List (Op Kind))
    (few : (t.issued ops).length ≤ 2 ^ 32) : ((t.issued ops).map Prod.fst).Nodup := by
  rw [issued_numbers]
  exact counted_nodup _ _ few

theorem pending_origin (t : Table Kind) (ops : List (Op Kind)) (number : UInt32) (kind : Kind)
    (awaited : (t.afterAll ops).pending number = some kind) :
    t.pending number = some kind ∨ (number, kind) ∈ t.issued ops := by
  induction ops generalizing t with
  | nil => exact Or.inl awaited
  | cons op ops ih =>
      rcases ih (t.after op) awaited with before | later
      · cases op with
        | issue other =>
            rcases pending_issue t other kind number before with ⟨rfl, rfl⟩ | earlier
            · exact Or.inr (by simp [issued, gives])
            · exact Or.inl earlier
        | settle other => exact Or.inl (pending_settle t other number kind before).2
      · exact Or.inr (List.mem_append_right _ later)

def Never (t : Table Kind) (kind : Kind) : Prop := ∀ number, t.pending number ≠ some kind

def AtMostOne (t : Table Kind) (kind : Kind) : Prop := ∀ first second,
  t.pending first = some kind → t.pending second = some kind → first = second

theorem never_settle (t : Table Kind) (number : UInt32) (kind : Kind) (never : t.Never kind) :
    (t.after (.settle number)).Never kind :=
  fun other awaited => never other (pending_settle t number other kind awaited).2

theorem never_issue (t : Table Kind) (given kind : Kind) (apart : given ≠ kind)
    (never : t.Never kind) : (t.after (.issue given)).Never kind := by
  intro number awaited
  rcases pending_issue t given kind number awaited with fresh | before
  · exact apart fresh.2
  · exact never number before

theorem atMostOne_settle (t : Table Kind) (number : UInt32) (kind : Kind)
    (one : t.AtMostOne kind) : (t.after (.settle number)).AtMostOne kind :=
  fun first second left right => one first second
    (pending_settle t number first kind left).2 (pending_settle t number second kind right).2

theorem atMostOne_issue_other (t : Table Kind) (given kind : Kind) (apart : given ≠ kind)
    (one : t.AtMostOne kind) : (t.after (.issue given)).AtMostOne kind := by
  intro first second left right
  have known (number : UInt32) (awaited : (t.after (.issue given)).pending number = some kind) :=
    (pending_issue t given kind number awaited).resolve_left (fun fresh => apart fresh.2)
  exact one first second (known first left) (known second right)

theorem atMostOne_issue (t : Table Kind) (kind : Kind) (never : t.Never kind) :
    (t.after (.issue kind)).AtMostOne kind := by
  intro first second left right
  have fresh (number : UInt32) (awaited : (t.after (.issue kind)).pending number = some kind) :=
    ((pending_issue t kind kind number awaited).resolve_right (never number)).1
  rw [fresh first left, fresh second right]

theorem never_of_settle (t : Table Kind) (number : UInt32) (kind : Kind) (one : t.AtMostOne kind)
    (awaited : t.pending number = some kind) : (t.after (.settle number)).Never kind := by
  intro other still
  have before := pending_settle t number other kind still
  exact before.1 (one other number before.2 awaited)

theorem settled_count (t : Table Kind) (ops : List (Op Kind)) (number : UInt32) :
    ((t.settled ops).map Prod.fst).count number +
        ((t.afterAll ops).pending number).toList.length ≤
      ((t.issued ops).map Prod.fst).count number + (t.pending number).toList.length := by
  induction ops generalizing t with
  | nil => simp [settled, issued, afterAll]
  | cons op ops ih =>
      have later := ih (t.after op)
      have moved : (t.after op).afterAll ops = t.afterAll (op :: ops) := rfl
      rw [moved] at later
      cases op with
      | issue kind =>
          rw [pending_after_issue] at later
          simp only [settled, issued, takes, gives, List.nil_append, List.singleton_append,
            List.map_cons, List.count_cons, beq_iff_eq]
          split at later
          · rename_i same
            subst same
            simp only [if_true]
            simp only [Option.toList_some, List.length_singleton] at later
            omega
          · rename_i apart
            rw [if_neg (Ne.symm apart)]
            omega
      | settle other =>
          rw [pending_after_settle] at later
          simp only [settled, issued, takes, gives, List.nil_append, List.map_append,
            List.count_append]
          split at later
          · rename_i same
            subst same
            have taken : (((t.pending number).toList.map (fun kind => (number, kind))).map
                Prod.fst).count number = (t.pending number).toList.length := by
              cases t.pending number <;> simp
            simp only [Option.toList_none, List.length_nil] at later
            omega
          · rename_i apart
            have untaken : (((t.pending other).toList.map (fun kind => (other, kind))).map
                Prod.fst).count number = 0 := by
              cases t.pending other <;> simp [Ne.symm apart]
            omega

theorem settled_nodup (t : Table Kind) (ops : List (Op Kind))
    (blank : ∀ number, t.pending number = none) (few : (t.issued ops).length ≤ 2 ^ 32) :
    ((t.settled ops).map Prod.fst).Nodup := by
  rw [List.nodup_iff_count_le_one]
  intro number
  have answered := settled_count t ops number
  have given := List.nodup_iff_count_le_one.mp (issued_nodup t ops few) number
  simp only [blank, Option.toList_none, List.length_nil] at answered
  omega

end Table

end Castr.Lib.Tickets
