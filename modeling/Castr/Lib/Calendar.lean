import Mathlib.Algebra.BigOperators.Group.List.Basic
import Mathlib.Algebra.Order.Ring.Int
import Mathlib.Algebra.Ring.Nat

/-! The Gregorian calendar, taken back before its beginning: its days are counted from 1970-01-01,
one more for each day that follows, and dates are ordered as their counts. -/

namespace Castr.Lib.Calendar

structure Date where
  year : Int
  month : Nat
  day : Nat
  deriving DecidableEq, Repr

def leap (year : Int) : Bool := year % 4 = 0 ∧ (year % 100 ≠ 0 ∨ year % 400 = 0)

def monthDays (year : Int) (month : Nat) : Nat :=
  match month with
  | 2 => if leap year then 29 else 28
  | 4 | 6 | 9 | 11 => 30
  | _ => 31

def yearDays (year : Int) : Int := if leap year then 366 else 365

structure Date.Valid (d : Date) : Prop where
  month : 1 ≤ d.month ∧ d.month ≤ 12
  day : 1 ≤ d.day ∧ d.day ≤ monthDays d.year d.month

def yearStart (year : Int) : Int :=
  365 * (year - 1) + (year - 1) / 4 - (year - 1) / 100 + (year - 1) / 400

/-- The days before a month, from the start of its year. -/
def monthStart (year : Int) (month : Nat) : Nat :=
  ((List.range (month - 1)).map (fun k => monthDays year (k + 1))).sum

def dayNumber (d : Date) : Int :=
  yearStart d.year + monthStart d.year d.month + d.day - 719163

def tomorrow (d : Date) : Date :=
  if d.day < monthDays d.year d.month then ⟨d.year, d.month, d.day + 1⟩
  else if d.month < 12 then ⟨d.year, d.month + 1, 1⟩
  else ⟨d.year + 1, 1, 1⟩

/-- The order of dates: by year, then by month, then by day. -/
def Before (d e : Date) : Prop :=
  d.year < e.year ∨ d.year = e.year ∧ (d.month < e.month ∨ d.month = e.month ∧ d.day < e.day)

section Counting

theorem leap_iff (year : Int) :
    leap year = true ↔ year % 4 = 0 ∧ (year % 100 ≠ 0 ∨ year % 400 = 0) := by
  rw [leap, decide_eq_true_iff]

theorem yearStart_succ (year : Int) : yearStart (year + 1) = yearStart year + yearDays year := by
  unfold yearStart yearDays
  by_cases leaps : leap year = true
  · rw [if_pos leaps]
    rw [leap_iff] at leaps
    omega
  · rw [if_neg leaps]
    rw [leap_iff] at leaps
    omega

theorem yearStart_mono {year other : Int} (order : year ≤ other) :
    yearStart year ≤ yearStart other := by
  unfold yearStart
  omega

theorem monthDays_pos (year : Int) (month : Nat) : 28 ≤ monthDays year month := by
  unfold monthDays
  split
  · split <;> omega
  · omega
  · omega
  · omega
  · omega
  · omega

theorem monthDays_le (year : Int) (month : Nat) : monthDays year month ≤ 31 := by
  unfold monthDays
  split
  · split <;> omega
  · omega
  · omega
  · omega
  · omega
  · omega

theorem monthStart_succ (year : Int) {month : Nat} (some : 1 ≤ month) :
    monthStart year (month + 1) = monthStart year month + monthDays year month := by
  obtain ⟨k, rfl⟩ := Nat.exists_eq_add_of_le' some
  rw [monthStart, monthStart, Nat.add_sub_cancel, Nat.add_sub_cancel, List.range_succ,
    List.map_append, List.sum_append, List.map_singleton, List.sum_singleton]

theorem monthStart_le (year : Int) {month other : Nat} (some : 1 ≤ month) (order : month ≤ other) :
    monthStart year month ≤ monthStart year other := by
  induction other, order using Nat.le_induction with
  | base => exact Nat.le_refl _
  | succ other order ih =>
      rw [monthStart_succ year (Nat.le_trans some order)]
      exact Nat.le_trans ih (Nat.le_add_right _ _)

theorem monthStart_end (year : Int) : (monthStart year 13 : Int) = yearDays year := by
  unfold yearDays
  cases leaps : leap year with
  | true => simp [monthStart, monthDays, leaps, List.range_succ]
  | false => simp [monthStart, monthDays, leaps, List.range_succ]

variable {d e : Date}

theorem dayNumber_month (valid : d.Valid) :
    yearStart d.year + monthStart d.year d.month - 719163 < dayNumber d ∧
      dayNumber d ≤ yearStart d.year + monthStart d.year (d.month + 1) - 719163 := by
  obtain ⟨low, high⟩ := valid.day
  rw [monthStart_succ d.year valid.month.1]
  unfold dayNumber
  push_cast
  omega

theorem dayNumber_year (valid : d.Valid) :
    yearStart d.year - 719163 < dayNumber d ∧ dayNumber d ≤ yearStart (d.year + 1) - 719163 := by
  obtain ⟨low, high⟩ := dayNumber_month valid
  obtain ⟨some, few⟩ := valid.month
  have last := monthStart_le d.year (Nat.le_add_left 1 d.month)
    (show d.month + 1 ≤ 13 by omega)
  have whole := monthStart_end d.year
  rw [yearStart_succ]
  omega

theorem dayNumber_epoch : dayNumber ⟨1970, 1, 1⟩ = 0 := by decide

theorem valid_tomorrow (valid : d.Valid) : (tomorrow d).Valid := by
  obtain ⟨⟨some, few⟩, low, high⟩ := valid
  unfold tomorrow
  split
  · exact ⟨⟨some, few⟩, by dsimp only; omega, by dsimp only; omega⟩
  · split
    · have days := monthDays_pos d.year (d.month + 1)
      exact ⟨⟨by dsimp only; omega, by dsimp only; omega⟩, by dsimp only; omega,
        by dsimp only; omega⟩
    · have days := monthDays_pos (d.year + 1) 1
      exact ⟨⟨Nat.le_refl 1, show 1 ≤ 12 by decide⟩, Nat.le_refl 1, by dsimp only; omega⟩

theorem dayNumber_tomorrow (valid : d.Valid) : dayNumber (tomorrow d) = dayNumber d + 1 := by
  obtain ⟨⟨some, few⟩, low, high⟩ := valid
  unfold tomorrow
  split
  · unfold dayNumber
    push_cast
    omega
  · have next := monthStart_succ d.year some
    split
    · unfold dayNumber
      dsimp only
      omega
    · have last : d.month = 12 := by omega
      have whole : ((monthStart d.year (12 + 1) : Nat) : Int) = yearDays d.year :=
        monthStart_end d.year
      have first : monthStart (d.year + 1) 1 = 0 := rfl
      have full : d.day = monthDays d.year 12 := by
        rw [← last]
        omega
      rw [last] at next
      unfold dayNumber
      dsimp only
      rw [yearStart_succ, first, last, full]
      omega

theorem dayNumber_lt (valid : d.Valid) (valid' : e.Valid) (before : Before d e) :
    dayNumber d < dayNumber e := by
  rcases before with year | ⟨year, month | ⟨month, day⟩⟩
  · have here := (dayNumber_year valid).2
    have there := (dayNumber_year valid').1
    have order := yearStart_mono (show d.year + 1 ≤ e.year by omega)
    omega
  · have here := (dayNumber_month valid).2
    have there := (dayNumber_month valid').1
    have order := monthStart_le d.year (Nat.le_add_left 1 d.month) (Nat.succ_le_of_lt month)
    rw [year] at here order
    omega
  · unfold dayNumber
    rw [year, month]
    omega

theorem before_or (d e : Date) : Before d e ∨ d = e ∨ Before e d := by
  obtain ⟨year, month, day⟩ := d
  obtain ⟨year', month', day'⟩ := e
  unfold Before
  simp only [Date.mk.injEq]
  omega

theorem before_iff (valid : d.Valid) (valid' : e.Valid) :
    Before d e ↔ dayNumber d < dayNumber e := by
  refine ⟨dayNumber_lt valid valid', ?_⟩
  intro less
  rcases before_or d e with before | same | after
  · exact before
  · rw [same] at less
    exact absurd less (Int.lt_irrefl _)
  · exact absurd (dayNumber_lt valid' valid after) (by omega)

theorem dayNumber_inj (valid : d.Valid) (valid' : e.Valid) (same : dayNumber d = dayNumber e) :
    d = e := by
  rcases before_or d e with before | equal | after
  · exact absurd (dayNumber_lt valid valid' before) (by omega)
  · exact equal
  · exact absurd (dayNumber_lt valid' valid after) (by omega)

end Counting

end Castr.Lib.Calendar
