import Castr.Lib.Calendar
import Castr.Lib.Padded
import Mathlib.Data.List.Sort
import Mathlib.Tactic.IntervalCases

/-! One log file for each run: the name that says when it began, in an order that is that of time,
and which of them to delete. -/

namespace Castr.Net.Logging

open Castr.Lib.Calendar
open Castr.Lib.Padded
open Castr.Lib.Text

def wrapI32 (y : Int) : Int := (y + 0x80000000) % 0x100000000 - 0x80000000

/-- Days since the Unix epoch as a civil date. -/
def civilFromDays (days : Int) : Date :=
  let z := days + 719468
  let era := (if 0 ≤ z then z else z - 146096).tdiv 146097
  let doe := (z - era * 146097).toNat
  let yoe := (doe - doe / 1460 + doe / 36524 - doe / 146096) / 365
  let y := (yoe : Int) + era * 400
  let doy := doe - (365 * yoe + yoe / 4 - yoe / 100)
  let mp := (5 * doy + 2) / 153
  let d := doy - (153 * mp + 2) / 5 + 1
  let m := if mp < 10 then mp + 3 else mp - 9
  ⟨wrapI32 (if m ≤ 2 then y + 1 else y), m, d⟩

structure Parts where
  date : Date
  hour : Nat
  minute : Nat
  second : Nat
  deriving DecidableEq, Repr

def parts (secs : UInt64) : Parts :=
  let rem := secs.toNat % 86400
  ⟨civilFromDays (secs.toNat / 86400 : Nat), rem / 3600, rem % 3600 / 60, rem % 60⟩

def fileStamp (secs : UInt64) : List Char :=
  let p := parts secs
  padded 4 p.date.year ++ (padded 2 p.date.month ++ (padded 2 p.date.day ++
    '-' :: (padded 2 p.hour ++ (padded 2 p.minute ++ padded 2 p.second))))

def logName (app : List Char) (secs : UInt64) (pid : UInt32) : List Char :=
  app ++ '-' :: (fileStamp secs ++ '-' :: (padded 5 pid.toNat ++ ".log".toList))

def matching (app name : List Char) : Bool :=
  (app ++ ['-']).isPrefixOf name && ".log".toList.isSuffixOf name

/-- Which of `names` to delete, keeping the newest `keep`. -/
def prunable (app : List Char) (names : List (List Char)) (keep : Nat) : List (List Char) :=
  let ours := (names.filter (matching app)).mergeSort (fun a b => decide (a ≤ b))
  ours.take (ours.length - keep)

section Civil

theorem era_parts (doe : Nat) (inside : doe ≤ 146096) : ∃ c k j r, c ≤ 3 ∧ k ≤ 24 ∧ j ≤ 3 ∧
    doe = 36524 * c + 1461 * k + 365 * j + r ∧
      (r ≤ 364 ∨ r = 365 ∧ j = 3 ∧ (k ≤ 23 ∨ c = 3)) := by
  obtain ⟨c, s, few, whole, short⟩ : ∃ c s, c ≤ 3 ∧ doe = 36524 * c + s ∧
      (s ≤ 36523 ∨ c = 3 ∧ s = 36524) := by
    by_cases last : doe = 146096
    · exact ⟨3, 36524, by omega⟩
    · exact ⟨doe / 36524, doe % 36524, by omega⟩
  obtain ⟨k, t, apart, left⟩ : ∃ k t, s = 1461 * k + t ∧ t ≤ 1460 :=
    ⟨s / 1461, s % 1461, by omega⟩
  by_cases last : t = 1460
  · exact ⟨c, k, 3, 365, by omega⟩
  · exact ⟨c, k, t / 365, t % 365, by omega⟩

theorem yearOfEra {c k j r doe : Nat} (centuries : c ≤ 3) (fours : k ≤ 24) (years : j ≤ 3)
    (whole : doe = 36524 * c + 1461 * k + 365 * j + r)
    (short : r ≤ 364 ∨ r = 365 ∧ j = 3 ∧ (k ≤ 23 ∨ c = 3)) :
    (doe - doe / 1460 + doe / 36524 - doe / 146096) / 365 = 100 * c + 4 * k + j := by
  have century : doe / 36524 = c + doe / 146096 := by
    have within : 1461 * k + 365 * j + r ≤ 36523 ∨
        c = 3 ∧ 1461 * k + 365 * j + r = 36524 := by omega
    rcases within with within | ⟨rfl, last⟩
    · have same : doe = 1461 * k + 365 * j + r + 36524 * c := by omega
      rw [Nat.div_eq_of_lt (show doe < 146096 by omega), same,
        Nat.add_mul_div_left _ _ (by decide), Nat.div_eq_of_lt (by omega)]
      omega
    · obtain rfl : doe = 146096 := by omega
      rfl
  have four : doe / 1460 = 25 * c + k + (24 * c + k + 365 * j + r) / 1460 := by
    have same : doe = 24 * c + k + 365 * j + r + 1460 * (25 * c + k) := by omega
    rw [same, Nat.add_mul_div_left _ _ (by decide), Nat.add_comm]
  have near : (24 * c + k + 365 * j + r) / 1460 ≤ r ∧
      r ≤ 364 + (24 * c + k + 365 * j + r) / 1460 := by
    rcases short with short | ⟨rfl, rfl, leaps⟩
    · omega
    · omega
  rw [four, century]
  generalize (24 * c + k + 365 * j + r) / 1460 = q at near ⊢
  generalize doe / 146096 = e
  have same : doe - (25 * c + k + q) + (c + e) - e = r - q + 365 * (100 * c + 4 * k + j) := by
    clear century four short
    omega
  rw [same, Nat.add_mul_div_left _ _ (by decide), Nat.div_eq_of_lt (by omega), Nat.zero_add]

/-- A year that begins in March, with its number in the era, and one of its days. -/
structure MarchDay (doe yoe doy : Nat) : Prop where
  year : yoe ≤ 399
  start : doe = 365 * yoe + yoe / 4 - yoe / 100 + doy
  day : doy ≤ 364 ∨ doy = 365 ∧ (yoe + 1) % 4 = 0 ∧ ((yoe + 1) % 100 ≠ 0 ∨ yoe = 399)

theorem marchDay (doe : Nat) (inside : doe ≤ 146096) :
    ∃ doy, MarchDay doe ((doe - doe / 1460 + doe / 36524 - doe / 146096) / 365) doy := by
  obtain ⟨c, k, j, r, centuries, fours, years, whole, short⟩ := era_parts doe inside
  rw [yearOfEra centuries fours years whole short]
  have four : (100 * c + 4 * k + j) / 4 = 25 * c + k := by omega
  have hundred : (100 * c + 4 * k + j) / 100 = c := by omega
  refine ⟨r, by omega, ?_, ?_⟩
  · rw [four, hundred]
    omega
  · rcases short with short | ⟨rfl, rfl, leaps⟩
    · exact .inl short
    · refine .inr ⟨rfl, by omega, ?_⟩
      omega

theorem yearStart_era (era : Int) {yoe : Nat} (inside : yoe ≤ 399) :
    yearStart (yoe + era * 400 + 1) =
      era * 146097 + (365 * yoe + yoe / 4 - yoe / 100 : Nat) := by
  unfold yearStart
  omega

def marchStart (mp : Nat) : Nat := (153 * mp + 2) / 5

theorem yearDays_february (year : Int) : yearDays year = 337 + monthDays year 2 := by
  unfold yearDays monthDays
  split <;> rfl

theorem marchStart_succ (year : Int) {mp : Nat} (early : mp < 10) :
    marchStart (mp + 1) = marchStart mp + monthDays year (mp + 3) := by
  interval_cases mp <;> rfl

theorem monthStart_march (year : Int) {mp : Nat} (early : mp < 10) :
    monthStart year (mp + 3) = 31 + monthDays year 2 + marchStart mp := by
  induction mp with
  | zero => rfl
  | succ mp ih =>
      rw [Nat.add_right_comm, monthStart_succ year (by omega), ih (by omega),
        marchStart_succ year (by omega), Nat.add_assoc]

theorem month_of_day {doy : Nat} (inside : doy ≤ 365) :
    (5 * doy + 2) / 153 ≤ 11 ∧ marchStart ((5 * doy + 2) / 153) ≤ doy ∧
      doy < marchStart ((5 * doy + 2) / 153 + 1) := by
  unfold marchStart
  omega

theorem wrapI32_small {y : Int} (low : -0x80000000 ≤ y) (high : y < 0x80000000) :
    wrapI32 y = y := by
  unfold wrapI32
  omega

def marchDate (y : Int) (doy : Nat) : Date :=
  let mp := (5 * doy + 2) / 153
  let m := if mp < 10 then mp + 3 else mp - 9
  ⟨if m ≤ 2 then y + 1 else y, m, doy - marchStart mp + 1⟩

theorem february_march (era : Int) {doe yoe doy : Nat} (march : MarchDay doe yoe doy) :
    doy - 336 ≤ monthDays (yoe + era * 400 + 1) 2 := by
  show doy - 336 ≤ if leap (yoe + era * 400 + 1) then 29 else 28
  have within := march.year
  rcases march.day with short | ⟨rfl, fourth, century⟩
  · split
    · omega
    · omega
  · rw [if_pos]
    rw [leap_iff]
    omega

theorem marchDate_counted (era : Int) {doe yoe doy : Nat} (march : MarchDay doe yoe doy) :
    (marchDate (yoe + era * 400) doy).Valid ∧
      dayNumber (marchDate (yoe + era * 400) doy) = era * 146097 + doe - 719468 := by
  have inside : doy ≤ 365 := by
    rcases march.day with short | ⟨last, _⟩
    · omega
    · omega
  obtain ⟨few, begun, ahead⟩ := month_of_day inside
  have start := yearStart_era era march.year
  have whole := march.start
  unfold marchDate
  dsimp only
  generalize (5 * doy + 2) / 153 = mp at few begun ahead ⊢
  by_cases early : mp < 10
  · rw [if_pos early, if_neg (by omega)]
    have months := monthStart_march (yoe + era * 400) early
    have days := marchStart_succ (yoe + era * 400) early
    have february := yearDays_february (yoe + era * 400)
    rw [yearStart_succ] at start
    refine ⟨⟨⟨by dsimp only; omega, by dsimp only; omega⟩, by dsimp only; omega,
      by dsimp only; omega⟩, ?_⟩
    unfold dayNumber
    dsimp only
    rw [months]
    push_cast
    omega
  · rw [if_neg early, if_pos (by omega)]
    have january : monthStart (yoe + era * 400 + 1) 1 = 0 := rfl
    have february : monthStart (yoe + era * 400 + 1) 2 = 31 := rfl
    have last : mp = 10 ∨ mp = 11 := by omega
    rcases last with rfl | rfl
    · have begins : marchStart 10 = 306 := rfl
      have ends : marchStart (10 + 1) = 337 := rfl
      have days : monthDays (yoe + era * 400 + 1) 1 = 31 := rfl
      refine ⟨⟨⟨Nat.le_refl 1, show 1 ≤ 12 by decide⟩, Nat.le_add_left 1 _, ?_⟩, ?_⟩
      · show doy - marchStart 10 + 1 ≤ monthDays (yoe + era * 400 + 1) 1
        omega
      · show yearStart (yoe + era * 400 + 1) + monthStart (yoe + era * 400 + 1) 1 +
          (doy - marchStart 10 + 1 : Nat) - 719163 = era * 146097 + doe - 719468
        omega
    · have begins : marchStart 11 = 337 := rfl
      have short := february_march era march
      refine ⟨⟨⟨show 1 ≤ 2 by decide, show 2 ≤ 12 by decide⟩, Nat.le_add_left 1 _, ?_⟩, ?_⟩
      · show doy - marchStart 11 + 1 ≤ monthDays (yoe + era * 400 + 1) 2
        omega
      · show yearStart (yoe + era * 400 + 1) + monthStart (yoe + era * 400 + 1) 2 +
          (doy - marchStart 11 + 1 : Nat) - 719163 = era * 146097 + doe - 719468
        omega

theorem civilFromDays_march (days : Int) : ∃ (era : Int) (doe yoe doy : Nat),
    MarchDay doe yoe doy ∧ era * 146097 + doe - 719468 = days ∧
      civilFromDays days = ⟨wrapI32 (marchDate (yoe + era * 400) doy).year,
        (marchDate (yoe + era * 400) doy).month, (marchDate (yoe + era * 400) doy).day⟩ := by
  have era : (if 0 ≤ days + 719468 then days + 719468 else days + 719468 - 146096).tdiv 146097 =
      (days + 719468) / 146097 := by
    split
    · next after => exact Int.tdiv_eq_ediv_of_nonneg after
    · next before =>
        rw [← Int.neg_neg (days + 719468 - 146096), Int.neg_tdiv,
          Int.tdiv_eq_ediv_of_nonneg (by omega)]
        omega
  obtain ⟨doy, march⟩ := marchDay (days + 719468 - (days + 719468) / 146097 * 146097).toNat
    (by omega)
  refine ⟨(days + 719468) / 146097, _, _, doy, march, by omega, ?_⟩
  have here := march.start
  unfold civilFromDays
  dsimp only
  rw [era]
  generalize (days + 719468 - (days + 719468) / 146097 * 146097).toNat = doe at march here ⊢
  generalize (doe - doe / 1460 + doe / 36524 - doe / 146096) / 365 = yoe at march here ⊢
  have left : doe - (365 * yoe + yoe / 4 - yoe / 100) = doy := by omega
  rw [left]
  rfl

/-- The days whose year has 32 bits. -/
def Dated (days : Int) : Prop :=
  yearStart (-0x80000000) - 719162 ≤ days ∧ days < yearStart 0x80000000 - 719162

theorem civilFromDays_counted {days : Int} (dated : Dated days) :
    (civilFromDays days).Valid ∧ dayNumber (civilFromDays days) = days := by
  obtain ⟨era, doe, yoe, doy, march, same, civil⟩ := civilFromDays_march days
  obtain ⟨valid, counted⟩ := marchDate_counted era march
  rw [same] at counted
  obtain ⟨after, before⟩ := dayNumber_year valid
  generalize marchDate (yoe + era * 400) doy = date at civil valid counted after before
  have low : -0x80000000 ≤ date.year := by
    by_contra less
    have order := yearStart_mono (show date.year + 1 ≤ -0x80000000 by omega)
    have := dated.1
    omega
  have high : date.year < 0x80000000 := by
    by_contra more
    have order := yearStart_mono (show 0x80000000 ≤ date.year by omega)
    have := dated.2
    omega
  rw [wrapI32_small low high] at civil
  rw [civil]
  exact ⟨valid, counted⟩

theorem civilFromDays_dayNumber {d : Date} (valid : d.Valid) (dated : Dated (dayNumber d)) :
    civilFromDays (dayNumber d) = d := by
  obtain ⟨valid', counted⟩ := civilFromDays_counted dated
  exact dayNumber_inj valid' valid counted

theorem civilFromDays_epoch : civilFromDays 0 = ⟨1970, 1, 1⟩ := by
  rw [← dayNumber_epoch]
  exact civilFromDays_dayNumber ⟨by decide, by decide⟩ ⟨by decide, by decide⟩

theorem civilFromDays_succ {days : Int} (dated : Dated days) (dated' : Dated (days + 1)) :
    civilFromDays (days + 1) = tomorrow (civilFromDays days) := by
  obtain ⟨valid, counted⟩ := civilFromDays_counted dated
  obtain ⟨valid', counted'⟩ := civilFromDays_counted dated'
  refine dayNumber_inj valid' (valid_tomorrow valid) ?_
  rw [counted', dayNumber_tomorrow valid, counted]

theorem civilFromDays_before {days other : Int} (dated : Dated days) (dated' : Dated other) :
    Before (civilFromDays days) (civilFromDays other) ↔ days < other := by
  obtain ⟨valid, counted⟩ := civilFromDays_counted dated
  obtain ⟨valid', counted'⟩ := civilFromDays_counted dated'
  rw [before_iff valid valid', counted, counted']

end Civil

section Names

def Early (secs : UInt64) : Prop := (secs.toNat / 86400 : Nat) < dayNumber ⟨10000, 1, 1⟩

variable {secs secs' : UInt64}

theorem early_iff : Early secs ↔ secs.toNat < 253402300800 := by
  have limit : dayNumber ⟨10000, 1, 1⟩ = 2932897 := by decide
  unfold Early
  rw [limit]
  omega

theorem dated_early (early : Early secs) : Dated (secs.toNat / 86400 : Nat) := by
  rw [early_iff] at early
  unfold Dated yearStart
  omega

/-- The parts that two digits are enough for, and four for the year. -/
structure Parts.Short (p : Parts) (y : Nat) : Prop where
  year : p.date.year = y
  thousands : y < 10 ^ 4
  month : p.date.month < 10 ^ 2
  day : p.date.day < 10 ^ 2
  hour : p.hour < 10 ^ 2
  minute : p.minute < 10 ^ 2
  second : p.second < 10 ^ 2

theorem civilFromDays_short {days : Int} (dated : Dated days) (after : 0 ≤ days)
    (before : days < 2932897) :
    0 ≤ (civilFromDays days).year ∧ (civilFromDays days).year < 10000 ∧
      (civilFromDays days).month ≤ 12 ∧ (civilFromDays days).day ≤ 31 := by
  obtain ⟨valid, counted⟩ := civilFromDays_counted dated
  generalize civilFromDays days = date at valid counted
  obtain ⟨begun, ended⟩ := dayNumber_year valid
  have low : 0 ≤ date.year := by
    by_contra less
    have order := yearStart_mono (show date.year + 1 ≤ 0 by omega)
    have zero : yearStart 0 = -366 := by decide
    omega
  have high : date.year < 10000 := by
    by_contra more
    have order := yearStart_mono (show 10000 ≤ date.year by omega)
    have limit : yearStart 10000 = 3652059 := by decide
    omega
  exact ⟨low, high, valid.month.2, Nat.le_trans valid.day.2 (monthDays_le _ _)⟩

theorem parts_short (early : Early secs) : ∃ year, (parts secs).Short year := by
  have dated := dated_early early
  rw [early_iff] at early
  obtain ⟨low, high, month, day⟩ := civilFromDays_short dated (by omega) (by omega)
  obtain ⟨year, same⟩ := Int.eq_ofNat_of_zero_le low
  exact ⟨year, ⟨same, show year < 10000 by omega, Nat.lt_of_le_of_lt month (by decide),
    Nat.lt_of_le_of_lt day (by decide), show secs.toNat % 86400 / 3600 < 100 by omega,
    show secs.toNat % 86400 % 3600 / 60 < 100 by omega,
    show secs.toNat % 86400 % 60 < 100 by omega⟩⟩

theorem parts_lt (early : Early secs) (early' : Early secs') (order : secs < secs') :
    let p := parts secs
    let q := parts secs'
    p.date.year < q.date.year ∨ p.date.year = q.date.year ∧ (p.date.month < q.date.month ∨
      p.date.month = q.date.month ∧ (p.date.day < q.date.day ∨ p.date.day = q.date.day ∧
        (p.hour < q.hour ∨ p.hour = q.hour ∧ (p.minute < q.minute ∨ p.minute = q.minute ∧
          p.second < q.second)))) := by
  rw [UInt64.lt_iff_toNat_lt] at order
  intro p q
  by_cases later : secs.toNat / 86400 < secs'.toNat / 86400
  · have before : Before p.date q.date :=
      (civilFromDays_before (dated_early early) (dated_early early')).mpr (by omega)
    unfold Before at before
    omega
  · have same : p.date = q.date :=
      congrArg (fun days : Nat => civilFromDays days)
        (show secs.toNat / 86400 = secs'.toNat / 86400 by omega)
    refine .inr ⟨congrArg _ same, .inr ⟨congrArg _ same, .inr ⟨congrArg _ same, ?_⟩⟩⟩
    show secs.toNat % 86400 / 3600 < secs'.toNat % 86400 / 3600 ∨
      secs.toNat % 86400 / 3600 = secs'.toNat % 86400 / 3600 ∧
        (secs.toNat % 86400 % 3600 / 60 < secs'.toNat % 86400 % 3600 / 60 ∨
          secs.toNat % 86400 % 3600 / 60 = secs'.toNat % 86400 % 3600 / 60 ∧
            secs.toNat % 86400 % 60 < secs'.toNat % 86400 % 60)
    omega

theorem fileStamp_lt (early : Early secs) (early' : Early secs') (order : secs < secs')
    (back tail : List Char) : fileStamp secs ++ back < fileStamp secs' ++ tail := by
  obtain ⟨year, short⟩ := parts_short early
  obtain ⟨year', short'⟩ := parts_short early'
  have later := parts_lt early early' order
  unfold fileStamp
  dsimp only at later ⊢
  rw [short.year, short'.year] at later ⊢
  simp only [List.append_assoc, List.cons_append]
  refine field_lt (by decide) short.thousands short'.thousands (later.imp ?_ (And.imp ?_ ?_))
  · exact Int.ofNat_lt.mp
  · exact Int.ofNat.inj
  intro later
  refine field_lt (by decide) short.month short'.month (later.imp_right (And.imp_right ?_))
  intro later
  refine field_lt (by decide) short.day short'.day (later.imp_right (And.imp_right ?_))
  intro later
  refine List.cons_lt_cons_iff.mpr (.inr ⟨rfl, ?_⟩)
  refine field_lt (by decide) short.hour short'.hour (later.imp_right (And.imp_right ?_))
  intro later
  refine field_lt (by decide) short.minute short'.minute (later.imp_right (And.imp_right ?_))
  intro later
  exact field_lt (by decide) short.second short'.second (.inl later)

theorem logName_lt (app : List Char) (early : Early secs) (early' : Early secs')
    (order : secs < secs') (pid pid' : UInt32) :
    logName app secs pid < logName app secs' pid' := by
  unfold logName
  refine List.append_left_lt (List.cons_lt_cons_iff.mpr (.inr ⟨rfl, ?_⟩))
  exact fileStamp_lt early early' order _ _

theorem logName_lt_iff (app : List Char) (early : Early secs) (early' : Early secs')
    (differ : secs ≠ secs') (pid pid' : UInt32) :
    logName app secs pid < logName app secs' pid' ↔ secs < secs' := by
  refine ⟨?_, fun order => logName_lt app early early' order pid pid'⟩
  intro less
  by_contra after
  have order : secs' < secs := UInt64.lt_of_le_of_ne (UInt64.not_lt.mp after) differ.symm
  exact lt_asymm less (logName_lt app early' early order pid' pid)

theorem fileStamp_length (early : Early secs) : (fileStamp secs).length = 15 := by
  obtain ⟨year, short⟩ := parts_short early
  unfold fileStamp
  dsimp only
  rw [short.year]
  simp only [List.length_append, List.length_cons]
  rw [padded_length (by decide) short.thousands, padded_length (by decide) short.month,
    padded_length (by decide) short.day, padded_length (by decide) short.hour,
    padded_length (by decide) short.minute, padded_length (by decide) short.second]

theorem logName_long (app : List Char) (early : Early secs) (pid : UInt32) :
    app.length + 26 ≤ (logName app secs pid).length := by
  have digits := padded_long 5 pid.toNat
  have ending : ".log".toList.length = 4 := by decide
  unfold logName
  rw [List.length_append, List.length_cons, List.length_append, fileStamp_length early,
    List.length_cons, List.length_append, ending]
  omega

theorem framed (front middle back : List Char) :
    (front.isPrefixOf (front ++ (middle ++ back)) &&
      back.isSuffixOf (front ++ (middle ++ back))) = true := by
  rw [Bool.and_eq_true, List.isPrefixOf_iff_prefix, List.isSuffixOf_iff_suffix]
  exact ⟨⟨middle ++ back, rfl⟩, ⟨front ++ middle, List.append_assoc _ _ _⟩⟩

theorem logName_matching (app : List Char) (secs : UInt64) (pid : UInt32) :
    matching app (logName app secs pid) = true := by
  have parted : logName app secs pid =
      (app ++ ['-']) ++ ((fileStamp secs ++ '-' :: padded 5 pid.toNat) ++ ".log".toList) := by
    unfold logName
    simp only [List.append_assoc, List.cons_append, List.nil_append]
  rw [parted]
  exact framed _ _ _

end Names

section Retention

/-- The names that a run of this app takes, before the year 10000. -/
def Ours (app name : List Char) : Prop := ∃ secs pid, Early secs ∧ name = logName app secs pid

open Classical in
noncomputable def runs (app : List Char) (names : List (List Char)) : List (List Char) :=
  names.filter (fun name => decide (Ours app name))

/-- The runs are those deleted and those kept; these are the newest `keep`, or all there are. -/
structure Newest (app : List Char) (names : List (List Char)) (keep : Nat)
    (result kept : List (List Char)) : Prop where
  all : (result ++ kept).Perm (runs app names)
  length : kept.length = min keep (runs app names).length
  order : ∀ secs pid secs' pid', Early secs → Early secs' → logName app secs pid ∈ result →
    logName app secs' pid' ∈ kept → secs ≤ secs'

def Retained (app : List Char) (names : List (List Char)) (keep : Nat)
    (result : List (List Char)) : Prop := ∃ kept, Newest app names keep result kept

variable {app : List Char} {names : List (List Char)} {keep : Nat}

theorem runs_length (app : List Char) (names : List (List Char)) :
    (runs app names).length ≤ names.length := by
  unfold runs
  exact List.length_filter_le _ _

theorem runs_eq (ours : ∀ name ∈ names, Ours app name) : runs app names = names := by
  classical
  unfold runs
  refine List.filter_eq_self.mpr ?_
  intro name listed
  exact decide_eq_true (ours name listed)

theorem ours_of_full (full : (runs app names).length = names.length) :
    ∀ name ∈ names, Ours app name := by
  classical
  unfold runs at full
  intro name listed
  exact of_decide_eq_true (List.length_filter_eq_length_iff.mp full name listed)

theorem runs_matching (app : List Char) (names : List (List Char)) :
    runs app names = runs app (names.filter (matching app)) := by
  classical
  unfold runs
  rw [List.filter_filter]
  refine List.filter_congr ?_
  intro name _
  by_cases ours : Ours app name
  · obtain ⟨secs, pid, early, rfl⟩ := ours
    rw [logName_matching, Bool.and_true]
  · rw [decide_eq_false ours, Bool.false_and]

theorem prunable_length (app : List Char) (names : List (List Char)) (keep : Nat) :
    (prunable app names keep).length = (names.filter (matching app)).length - keep := by
  unfold prunable
  dsimp only
  rw [List.length_take, List.length_mergeSort]
  omega

theorem ours_of_retained (retained : Retained app names keep (prunable app names keep)) :
    (∀ name ∈ names, matching app name = true → Ours app name) ∨
      (names.filter (matching app)).length ≤ keep := by
  obtain ⟨kept, newest⟩ := retained
  have counted := newest.all.length_eq
  rw [List.length_append, newest.length, prunable_length, runs_matching] at counted
  by_cases room : (names.filter (matching app)).length ≤ keep
  · exact .inr room
  · refine .inl ?_
    have some := runs_length app (names.filter (matching app))
    intro name listed taken
    exact ours_of_full (by omega) name (List.mem_filter.mpr ⟨listed, taken⟩)

theorem retained_of_ours (ours : ∀ name ∈ names, matching app name = true → Ours app name) :
    Retained app names keep (prunable app names keep) := by
  have every : runs app names = names.filter (matching app) := by
    rw [runs_matching]
    refine runs_eq ?_
    intro name taken
    obtain ⟨listed, matched⟩ := List.mem_filter.mp taken
    exact ours name listed matched
  have permuted := List.mergeSort_perm (names.filter (matching app)) (fun a b => decide (a ≤ b))
  have sorted := List.pairwise_mergeSort' (· ≤ ·) (names.filter (matching app))
  unfold prunable
  dsimp only
  generalize (names.filter (matching app)).mergeSort (fun a b => decide (a ≤ b)) = logs
    at permuted sorted ⊢
  rw [← every] at permuted
  refine ⟨logs.drop (logs.length - keep), ?_, ?_, ?_⟩
  · rw [List.take_append_drop]
    exact permuted
  · rw [List.length_drop, ← permuted.length_eq]
    omega
  · intro secs pid secs' pid' early early' old young
    rw [← List.take_append_drop (logs.length - keep) logs, List.pairwise_append] at sorted
    have before := sorted.2.2 _ old _ young
    by_contra after
    have later := logName_lt app early' early (UInt64.not_le.mp after) pid' pid
    exact absurd later (not_lt.mpr before)

theorem retained_of_room (room : (names.filter (matching app)).length ≤ keep) :
    Retained app names keep (prunable app names keep) := by
  have none : prunable app names keep = [] := by
    refine List.eq_nil_of_length_eq_zero ?_
    rw [prunable_length]
    omega
  rw [none]
  refine ⟨runs app names, List.Perm.refl _, ?_, ?_⟩
  · have few := runs_length app (names.filter (matching app))
    rw [runs_matching]
    omega
  · intro secs pid secs' pid' early early' old young
    cases old

theorem retained_iff (app : List Char) (names : List (List Char)) (keep : Nat) :
    Retained app names keep (prunable app names keep) ↔
      (∀ name ∈ names, matching app name = true → Ours app name) ∨
        (names.filter (matching app)).length ≤ keep := by
  refine ⟨ours_of_retained, ?_⟩
  rintro (ours | room)
  · exact retained_of_ours ours
  · exact retained_of_room room

/-- The calendar is exact, the names are in the order of their starts, and what is deleted is what
should be just when no other name looks like a run's or there is room. -/
theorem oldest_pruned_iff (app : List Char) (names : List (List Char)) (keep : Nat) :
    (∀ days, Dated days → (civilFromDays days).Valid ∧ dayNumber (civilFromDays days) = days) ∧
      (∀ d : Date, d.Valid → Dated (dayNumber d) → civilFromDays (dayNumber d) = d) ∧
      (∀ days other, Dated days → Dated other →
        (Before (civilFromDays days) (civilFromDays other) ↔ days < other)) ∧
      (∀ secs secs' pid pid', Early secs → Early secs' → secs ≠ secs' →
        (logName app secs pid < logName app secs' pid' ↔ secs < secs')) ∧
      (Retained app names keep (prunable app names keep) ↔
        (∀ name ∈ names, matching app name = true → Ours app name) ∨
          (names.filter (matching app)).length ≤ keep) :=
  ⟨fun _ => civilFromDays_counted, fun _ => civilFromDays_dayNumber,
    fun _ _ => civilFromDays_before,
    fun _ _ pid pid' early early' differ => logName_lt_iff app early early' differ pid pid',
    retained_iff app names keep⟩

theorem notes_stranger :
    ¬Ours "castr-sender".toList "castr-sender-2026-notes.log".toList := by
  rintro ⟨secs, pid, early, same⟩
  have long := logName_long "castr-sender".toList early pid
  rw [← same] at long
  exact absurd long (by decide +kernel)

/-- A file of notes is deleted for the sake of one run. -/
theorem notes_pruned :
    let app := "castr-sender".toList
    let notes := "castr-sender-2026-notes.log".toList
    let log := "castr-sender-20260910-140311-04216.log".toList
    log = logName app 1789048991 4216 ∧ prunable app [notes, log] 1 = [notes] ∧
      ¬Retained app [notes, log] 1 (prunable app [notes, log] 1) := by
  intro app notes log
  have taken : [notes, log].filter (matching app) = [notes, log] := by decide +kernel
  refine ⟨by decide +kernel, ?_, ?_⟩
  · unfold prunable
    rw [taken, List.mergeSort_of_pairwise (by decide +kernel)]
    rfl
  · rw [retained_iff, taken]
    rintro (ours | room)
    · exact notes_stranger (ours notes (List.mem_cons_self ..) (by decide +kernel))
    · exact absurd room (by decide)

end Retention

end Castr.Net.Logging
