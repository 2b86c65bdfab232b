import Mathlib.Algebra.Group.Nat.Defs
import Mathlib.Data.List.Basic

/-! Numbers of a bounded width in groups of seven bits, lowest first, each byte but the last with
its high bit set. -/

namespace Castr.Lib.Varint

def varint : Nat → Nat → List UInt8
  | 0, value => [UInt8.ofNat value]
  | more + 1, value =>
      if value < 128 then [UInt8.ofNat value]
      else UInt8.ofNat (value % 128 + 128) :: varint more (value / 128)

def varintLen : Nat → Nat → Nat
  | 0, _ => 1
  | more + 1, value => if value < 128 then 1 else varintLen more (value / 128) + 1

/-- Past `more` bytes that continue, the last one is at most `last`. -/
def takeVarint : Nat → Nat → List UInt8 → Option (Nat × List UInt8)
  | _, _, [] => none
  | 0, last, byte :: rest => if byte.toNat ≤ last then some (byte.toNat, rest) else none
  | more + 1, last, byte :: rest =>
      if byte.toNat < 128 then some (byte.toNat, rest)
      else (takeVarint more last rest).map (fun taken =>
        (byte.toNat - 128 + 128 * taken.1, taken.2))

/-- The count of values behind a number, one after another. -/
def takeMany (take : List UInt8 → Option (α × List UInt8)) :
    Nat → List UInt8 → Option (List α × List UInt8)
  | 0, bytes => some ([], bytes)
  | count + 1, bytes =>
      match take bytes with
      | none => none
      | some (value, rest) =>
          (takeMany take count rest).map (fun taken => (value :: taken.1, taken.2))

theorem varint_length (more value : Nat) : (varint more value).length = varintLen more value := by
  induction more generalizing value with
  | zero => rfl
  | succ more ih =>
      rw [varint, varintLen]
      split
      · rfl
      · rw [List.length_cons, ih]

theorem varintLen_pos (more value : Nat) : 1 ≤ varintLen more value := by
  cases more with
  | zero => exact Nat.le_refl 1
  | succ more =>
      rw [varintLen]
      split <;> omega

private theorem byte_toNat (value : Nat) (small : value < 256) :
    (UInt8.ofNat value).toNat = value := by
  rw [UInt8.toNat_ofNat']
  omega

section Reading

variable (last : Nat) (small : last < 128)

include small

theorem takeVarint_varint (more value : Nat) (fits : value < (last + 1) * 128 ^ more)
    (rest : List UInt8) : takeVarint more last (varint more value ++ rest) =
      some (value, rest) := by
  induction more generalizing value with
  | zero =>
      have bound : value ≤ last := by
        rw [Nat.pow_zero, Nat.mul_one] at fits
        omega
      rw [varint, List.singleton_append, takeVarint, byte_toNat value (by omega), if_pos bound]
  | succ more ih =>
      rw [varint]
      split
      · rename_i short
        rw [List.singleton_append, takeVarint, byte_toNat value (by omega), if_pos short]
      · rename_i long
        have further : value / 128 < (last + 1) * 128 ^ more := by
          rw [Nat.div_lt_iff_lt_mul (by decide), Nat.mul_assoc, ← Nat.pow_succ]
          exact fits
        rw [List.cons_append, takeVarint, byte_toNat _ (by omega), if_neg (by omega),
          ih (value / 128) further, Option.map_some]
        congr 2
        omega

omit small in
theorem takeVarint_cut (more value : Nat) (front back : List UInt8)
    (split : varint more value = front ++ back) (missing : back ≠ []) :
    takeVarint more last front = none := by
  induction more generalizing value front with
  | zero =>
      cases front with
      | nil => rfl
      | cons byte front =>
          have none := (List.cons.inj split).2
          exact absurd (List.append_eq_nil_iff.mp none.symm).2 missing
  | succ more ih =>
      cases front with
      | nil => rfl
      | cons byte front =>
          rw [varint] at split
          split at split
          · have none := (List.cons.inj split).2
            exact absurd (List.append_eq_nil_iff.mp none.symm).2 missing
          · obtain ⟨rfl, later⟩ := List.cons.inj split
            rw [takeVarint, byte_toNat _ (by omega), if_neg (by omega), ih _ front later]
            rfl

end Reading

theorem append_cut {α : Type*} (field rest front back : List α)
    (split : field ++ rest = front ++ back) :
    (∃ more, front = field ++ more ∧ rest = more ++ back) ∨
      ∃ wanted, wanted ≠ [] ∧ field = front ++ wanted := by
  rcases List.append_eq_append_iff.mp split with ⟨more, here, later⟩ | ⟨wanted, here, later⟩
  · exact Or.inl ⟨more, here, later⟩
  · by_cases done : wanted = []
    · exact Or.inl ⟨[], by simp [here, done], by simp [later, done]⟩
    · exact Or.inr ⟨wanted, done, here⟩

section Many

variable {α : Type*} (put : α → List UInt8) (take : List UInt8 → Option (α × List UInt8))
  (whole : ∀ value rest, take (put value ++ rest) = some (value, rest))

include whole

theorem takeMany_whole (values : List α) (rest : List UInt8) :
    takeMany take values.length (values.flatMap put ++ rest) = some (values, rest) := by
  induction values with
  | nil => rfl
  | cons value values ih =>
      rw [List.flatMap_cons, List.append_assoc, List.length_cons, takeMany, whole]
      dsimp only
      rw [ih]
      rfl

theorem takeMany_cut (cut : ∀ value front back, put value = front ++ back → back ≠ [] →
      take front = none) (values : List α) (front back : List UInt8)
    (split : values.flatMap put = front ++ back) (missing : back ≠ []) :
    takeMany take values.length front = none := by
  induction values generalizing front with
  | nil => exact absurd (List.append_eq_nil_iff.mp split.symm).2 missing
  | cons value values ih =>
      rw [List.flatMap_cons] at split
      rw [List.length_cons, takeMany]
      rcases append_cut _ _ front back split with ⟨more, here, later⟩ | ⟨wanted, some, here⟩
      · rw [here, whole]
        dsimp only
        rw [ih more later]
        rfl
      · rw [cut value front wanted here some]

end Many

end Castr.Lib.Varint
