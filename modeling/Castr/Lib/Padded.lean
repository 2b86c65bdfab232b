import Castr.Lib.Text
import Mathlib.Data.Char
import Mathlib.Data.List.Lex

/-! Numbers written with a fixed number of digits are, as texts, in the order of the numbers. -/

namespace Castr.Lib.Padded

open Castr.Lib.Text

def padded (width : Nat) (n : Int) : List Char :=
  let digits := decimal n.natAbs
  if n < 0 then '-' :: (List.replicate (width - 1 - digits.length) '0' ++ digits)
  else List.replicate (width - digits.length) '0' ++ digits

def lastDigits : Nat → Nat → List Char
  | 0, _ => []
  | width + 1, n => lastDigits width (n / 10) ++ [Nat.digitChar (n % 10)]

theorem lastDigits_length (width n : Nat) : (lastDigits width n).length = width := by
  induction width generalizing n with
  | zero => rfl
  | succ width ih => rw [lastDigits, List.length_append, ih, List.length_singleton]

theorem lastDigits_zero (width : Nat) : lastDigits width 0 = List.replicate width '0' := by
  induction width with
  | zero => rfl
  | succ width ih =>
      rw [lastDigits, Nat.zero_div, ih, List.replicate_succ']
      rfl

theorem padded_nat (width n : Nat) :
    padded width n = List.replicate (width - (decimal n).length) '0' ++ decimal n := by
  unfold padded
  rw [if_neg (by omega)]
  rfl

theorem decimal_snoc {n : Nat} (more : 10 ≤ n) :
    decimal n = decimal (n / 10) ++ [Nat.digitChar (n % 10)] :=
  Nat.toDigits_of_base_le (by decide) more

theorem padded_eq {width n : Nat} (some : 1 ≤ width) (small : n < 10 ^ width) :
    padded width n = lastDigits width n := by
  rw [padded_nat]
  induction width, some using Nat.le_induction generalizing n with
  | base =>
      have digit : decimal n = [Nat.digitChar n] := Nat.toDigits_of_lt_base small
      rw [digit, lastDigits, Nat.mod_eq_of_lt (Nat.lt_of_lt_of_eq small (Nat.pow_one 10))]
      rfl
  | succ width some ih =>
      by_cases more : 10 ≤ n
      · have rest := ih (n := n / 10) (by rw [Nat.pow_succ] at small; omega)
        rw [lastDigits, ← rest, decimal_snoc more, List.length_append, List.length_singleton,
          Nat.add_sub_add_right, List.append_assoc]
      · have digit : decimal n = [Nat.digitChar n] := Nat.toDigits_of_lt_base (by omega)
        rw [digit, lastDigits, Nat.div_eq_of_lt (by omega), lastDigits_zero,
          Nat.mod_eq_of_lt (by omega)]
        rfl

theorem digitChar_lt {d e : Nat} (less : d < e) (small : e < 10) :
    Nat.digitChar d < Nat.digitChar e := by
  have all : ∀ e < 10, ∀ d < e, Nat.digitChar d < Nat.digitChar e := by decide
  exact all e small d less

theorem append_lt {front other : List Char} (sized : front.length = other.length)
    (less : front < other) (back tail : List Char) : front ++ back < other ++ tail := by
  induction front generalizing other with
  | nil =>
      obtain rfl := List.length_eq_zero_iff.mp sized.symm
      exact absurd less (lt_irrefl _)
  | cons c front ih =>
      cases other with
      | nil => cases sized
      | cons d other =>
          rw [List.cons_append, List.cons_append, List.cons_lt_cons_iff]
          rcases List.cons_lt_cons_iff.mp less with first | ⟨same, rest⟩
          · exact .inl first
          · exact .inr ⟨same, ih (Nat.succ.inj sized) rest⟩

theorem lastDigits_lt (width : Nat) {a b : Nat} (less : a < b) (small : b < 10 ^ width) :
    lastDigits width a < lastDigits width b := by
  induction width generalizing a b with
  | zero => exact absurd small (by omega)
  | succ width ih =>
      rw [Nat.pow_succ] at small
      by_cases same : a / 10 = b / 10
      · rw [lastDigits, lastDigits, same]
        refine List.append_left_lt ?_
        exact List.cons_lt_cons_iff.mpr (.inl (digitChar_lt (by omega) (Nat.mod_lt b (by decide))))
      · have front := ih (a := a / 10) (b := b / 10) (by omega) (by omega)
        refine append_lt ?_ front _ _
        rw [lastDigits_length, lastDigits_length]

theorem field_lt {width a b : Nat} (some : 1 ≤ width) (small : a < 10 ^ width)
    (small' : b < 10 ^ width) {back tail : List Char} (less : a < b ∨ a = b ∧ back < tail) :
    padded width a ++ back < padded width b ++ tail := by
  rcases less with less | ⟨rfl, less⟩
  · rw [padded_eq some small, padded_eq some small']
    refine append_lt ?_ (lastDigits_lt width less small') back tail
    rw [lastDigits_length, lastDigits_length]
  · exact List.append_left_lt less

theorem padded_length {width n : Nat} (some : 1 ≤ width) (small : n < 10 ^ width) :
    (padded width n).length = width := by
  rw [padded_eq some small, lastDigits_length]

theorem padded_long (width n : Nat) : width ≤ (padded width n).length := by
  rw [padded_nat, List.length_append, List.length_replicate]
  omega

end Castr.Lib.Padded
