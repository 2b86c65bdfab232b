import Castr.Miracast.Quality
import Mathlib.Data.List.Chain

/-! The ladder over a run of samples: it falls at once and climbs slowly. -/

namespace Castr.Miracast

namespace BitrateLadder

/-- A sample of a run: whether the ladder counts it, what was lost since the last one it
counted, and its rung before and after. -/
structure Look where
  counted : Bool
  losses : Nat
  before : Nat
  after : Nat
  deriving DecidableEq, Repr

/-- A second has gone by since the last counted sample. -/
def counts (last : Option (Nat × Nat)) (now : Nat) : Bool :=
  last.all (fun counted => sampleInterval ≤ now - counted.2)

def lookAt (last : Option (Nat × Nat)) (l : BitrateLadder) (loss now : Nat) : Look where
  counted := counts last now
  losses := loss - last.elim 0 Prod.fst
  before := l.rung
  after := (l.sample loss now).1.rung

/-- The samples of a run, each a loss count and a time; `last` is the one counted before it. -/
def looks (last : Option (Nat × Nat)) (l : BitrateLadder) : List (Nat × Nat) → List Look
  | [] => []
  | (loss, now) :: rest =>
      lookAt last l loss now ::
        looks (if counts last now then some (loss, now) else last) (l.sample loss now).1 rest

/-- Every answer of a run with the time it is given. -/
def asked (l : BitrateLadder) : List (Nat × Nat) → List (Nat × UInt32)
  | [] => []
  | (loss, now) :: rest =>
      ((l.sample loss now).2.map (fun kbps => (now, kbps))).toList ++
        asked (l.sample loss now).1 rest

structure Tracks (last : Option (Nat × Nat)) (l : BitrateLadder) : Prop where
  clock : l.lastSample = last.map Prod.snd
  losses : l.lastLoss = last.elim 0 Prod.fst
  inTable : l.rung ≤ bottom

theorem tracks_new : Tracks none new := ⟨rfl, rfl, Nat.zero_le bottom⟩

inductive Judged (l : BitrateLadder) (losses loss now : Nat) :
    BitrateLadder × Option UInt32 → Prop where
  | stays (bad : badSecond ≤ losses) (floor : l.rung = bottom) :
      Judged l losses loss now (⟨l.rung, 0, loss, some now⟩, none)
  | falls (bad : badSecond ≤ losses) (above : l.rung ≠ bottom) :
      Judged l losses loss now (⟨bottom, 0, loss, some now⟩, some 2000)
  | climbs (good : losses < badSecond) (tenth : cleanPerStep ≤ l.clean + 1) (below : 0 < l.rung) :
      Judged l losses loss now (⟨l.rung - 1, 0, loss, some now⟩, some (ladder.getD (l.rung - 1) 0))
  | waits (good : losses < badSecond) (early : ¬ (cleanPerStep ≤ l.clean + 1 ∧ 0 < l.rung)) :
      Judged l losses loss now (⟨l.rung, l.clean + 1, loss, some now⟩, none)

theorem sample_counted (last : Option (Nat × Nat)) (l : BitrateLadder) (loss now : Nat)
    (tracks : Tracks last l) (due : counts last now = true) :
    Judged l (loss - last.elim 0 Prod.fst) loss now (l.sample loss now) := by
  have waited : l.lastSample.any (fun time => now - time < sampleInterval) = false := by
    rw [tracks.clock]
    cases last with
    | none => rfl
    | some counted =>
        simp only [counts, Option.all_some, decide_eq_true_eq] at due
        simp only [Option.map_some, Option.any_some, decide_eq_false_iff_not]
        omega
  simp only [sample, waited, Bool.false_eq_true, if_false, judge, tracks.losses]
  split
  · next bad =>
      split
      · next floor => exact .stays bad floor
      · next above => exact .falls bad above
  · next good =>
      split
      · next ready => exact .climbs (Nat.lt_of_not_le good) ready.1 ready.2
      · next early => exact .waits (Nat.lt_of_not_le good) early

theorem sample_uncounted (last : Option (Nat × Nat)) (l : BitrateLadder) (loss now : Nat)
    (tracks : Tracks last l) (early : counts last now = false) :
    l.sample loss now = (l, none) := by
  have shut : l.lastSample.any (fun time => now - time < sampleInterval) = true := by
    rw [tracks.clock]
    cases last with
    | none => simp [counts] at early
    | some counted =>
        simp only [counts, Option.all_some, decide_eq_false_iff_not] at early
        simp only [Option.map_some, Option.any_some, decide_eq_true_eq]
        omega
  simp only [sample, shut, if_true]

theorem tracks_counted (last : Option (Nat × Nat)) (l : BitrateLadder) (loss now : Nat)
    (tracks : Tracks last l) (due : counts last now = true) :
    Tracks (some (loss, now)) (l.sample loss now).1 := by
  have table := tracks.inTable
  have judged := sample_counted last l loss now tracks due
  generalize l.sample loss now = next at judged ⊢
  cases judged with
  | falls => exact ⟨rfl, rfl, Nat.le_refl bottom⟩
  | climbs => exact ⟨rfl, rfl, (Nat.sub_le _ _).trans table⟩
  | _ => exact ⟨rfl, rfl, table⟩

theorem tracks_sample (last : Option (Nat × Nat)) (l : BitrateLadder) (loss now : Nat)
    (tracks : Tracks last l) :
    Tracks (if counts last now then some (loss, now) else last) (l.sample loss now).1 := by
  cases due : counts last now with
  | false =>
      rw [sample_uncounted last l loss now tracks due]
      exact tracks
  | true => exact tracks_counted last l loss now tracks due

/-- The run ends in a stretch that moves nothing, with `n` counted samples that lost little. -/
def Quiet (past : List Look) (n : Nat) : Prop :=
  ∃ older clean, past = older ++ clean ∧ n ≤ clean.countP Look.counted ∧
    ∀ look ∈ clean, look.after = look.before ∧ (look.counted = true → look.losses < badSecond)

theorem quiet_zero (past : List Look) : Quiet past 0 :=
  ⟨past, [], (List.append_nil past).symm, Nat.le_refl 0, by simp⟩

theorem Quiet.snoc {past : List Look} {n : Nat} (quiet : Quiet past n) (look : Look)
    (still : look.after = look.before) (good : look.counted = true → look.losses < badSecond) :
    Quiet (past ++ [look]) (n + look.counted.toNat) := by
  obtain ⟨older, clean, parts, long, each⟩ := quiet
  refine ⟨older, clean ++ [look], by rw [parts, List.append_assoc], ?_, ?_⟩
  · rw [List.countP_append]
    cases counted : look.counted <;> simp [counted, long]
  · intro other member
    rcases List.mem_append.mp member with earlier | last
    · exact each other earlier
    · rw [List.mem_singleton.mp last]
      exact ⟨still, good⟩

theorem Quiet.weaken {past : List Look} {n m : Nat} (quiet : Quiet past n) (fewer : m ≤ n) :
    Quiet past m := by
  obtain ⟨older, clean, parts, long, each⟩ := quiet
  exact ⟨older, clean, parts, fewer.trans long, each⟩

/-- What a sample may do, after those of `past`. -/
structure Sound (past : List Look) (look : Look) : Prop where
  floors : look.counted = true → badSecond ≤ look.losses → look.after = bottom
  raises : look.after < look.before → look.after + 1 = look.before ∧ look.counted = true ∧
    look.losses < badSecond ∧ Quiet past 9

theorem lookAt_uncounted (last : Option (Nat × Nat)) (l : BitrateLadder) (loss now : Nat)
    (past : List Look) (tracks : Tracks last l) (early : counts last now = false)
    (quiet : Quiet past l.clean) :
    Sound past (lookAt last l loss now) ∧
      Quiet (past ++ [lookAt last l loss now]) (l.sample loss now).1.clean := by
  unfold lookAt
  rw [sample_uncounted last l loss now tracks early, early]
  exact ⟨⟨fun counted => absurd counted Bool.false_ne_true,
    fun up => absurd up (Nat.lt_irrefl _)⟩,
    quiet.snoc _ rfl (fun counted => absurd counted Bool.false_ne_true)⟩

theorem lookAt_counted (last : Option (Nat × Nat)) (l : BitrateLadder) (loss now : Nat)
    (past : List Look) (tracks : Tracks last l) (due : counts last now = true)
    (quiet : Quiet past l.clean) :
    Sound past (lookAt last l loss now) ∧
      Quiet (past ++ [lookAt last l loss now]) (l.sample loss now).1.clean := by
  have table := tracks.inTable
  have judged := sample_counted last l loss now tracks due
  unfold lookAt
  rw [due]
  generalize l.sample loss now = next at judged ⊢
  cases judged with
  | stays bad floor =>
      exact ⟨⟨fun _ _ => floor, fun up => absurd up (Nat.lt_irrefl _)⟩, quiet_zero _⟩
  | falls bad above =>
      exact ⟨⟨fun _ _ => rfl, fun up => absurd up (Nat.not_lt_of_le table)⟩, quiet_zero _⟩
  | climbs good tenth below =>
      refine ⟨⟨fun _ bad => absurd good (Nat.not_lt_of_le bad), fun _ => ?_⟩, quiet_zero _⟩
      exact ⟨Nat.sub_add_cancel below, rfl, good, quiet.weaken (Nat.le_of_succ_le_succ tenth)⟩
  | waits good early =>
      exact ⟨⟨fun _ bad => absurd good (Nat.not_lt_of_le bad),
        fun up => absurd up (Nat.lt_irrefl _)⟩, quiet.snoc _ rfl (fun _ => good)⟩

theorem looks_sound (samples : List (Nat × Nat)) (last : Option (Nat × Nat)) (l : BitrateLadder)
    (past : List Look) (tracks : Tracks last l) (quiet : Quiet past l.clean)
    (before after : List Look) (look : Look)
    (place : looks last l samples = before ++ look :: after) : Sound (past ++ before) look := by
  induction samples generalizing last l past before with
  | nil => simp [looks] at place
  | cons sample rest ih =>
      obtain ⟨loss, now⟩ := sample
      have step : Sound past (lookAt last l loss now) ∧
          Quiet (past ++ [lookAt last l loss now]) (l.sample loss now).1.clean := by
        cases due : counts last now with
        | false => exact lookAt_uncounted last l loss now past tracks due quiet
        | true => exact lookAt_counted last l loss now past tracks due quiet
      rw [looks] at place
      cases before with
      | nil =>
          obtain ⟨rfl, _⟩ := List.cons.inj place
          simpa using step.1
      | cons first earlier =>
          obtain ⟨rfl, later⟩ := List.cons.inj place
          have next := ih _ _ _ (tracks_sample last l loss now tracks) step.2 _ later
          simpa using next

theorem kbps_ne (rung other : Nat) (low : rung ≤ bottom) (lower : other ≤ bottom)
    (apart : rung ≠ other) : ladder.getD rung 0 ≠ ladder.getD other 0 := by
  have all : ∀ a < 3, ∀ b < 3, a ≠ b → ladder.getD a 0 ≠ ladder.getD b 0 := by decide
  exact all rung (Nat.lt_succ_of_le low) other (Nat.lt_succ_of_le lower) apart

theorem sample_answer (last : Option (Nat × Nat)) (l : BitrateLadder) (loss now : Nat)
    (tracks : Tracks last l) :
    (l.sample loss now).1.currentKbps = (l.sample loss now).2.getD l.currentKbps ∧
      (l.sample loss now).2 ≠ some l.currentKbps := by
  have table := tracks.inTable
  cases due : counts last now with
  | false =>
      rw [sample_uncounted last l loss now tracks due]
      exact ⟨rfl, by simp⟩
  | true =>
      have judged := sample_counted last l loss now tracks due
      generalize l.sample loss now = next at judged ⊢
      cases judged with
      | stays | waits => exact ⟨rfl, by simp⟩
      | falls bad above =>
          refine ⟨rfl, fun same => ?_⟩
          exact kbps_ne bottom l.rung (Nat.le_refl bottom) table above.symm (Option.some.inj same)
      | climbs good tenth below =>
          refine ⟨rfl, fun same => ?_⟩
          exact kbps_ne (l.rung - 1) l.rung ((Nat.sub_le _ _).trans table) table (by omega)
            (Option.some.inj same)

theorem counts_later (last : Option (Nat × Nat)) (loss now later : Nat)
    (due : counts last now = true) (next : counts (some (loss, now)) later = true) :
    counts last later = true := by
  cases last with
  | none => rfl
  | some counted =>
      simp only [counts, Option.all_some, decide_eq_true_eq] at due next ⊢
      omega

theorem asked_spaced (samples : List (Nat × Nat)) (last : Option (Nat × Nat)) (l : BitrateLadder)
    (tracks : Tracks last l) :
    (∀ request ∈ asked l samples, counts last request.1 = true) ∧
      (asked l samples).Pairwise (fun first next => first.1 + sampleInterval ≤ next.1) := by
  induction samples generalizing last l with
  | nil => exact ⟨by simp [asked], List.Pairwise.nil⟩
  | cons sample rest ih =>
      obtain ⟨loss, now⟩ := sample
      obtain ⟨counted, spaced⟩ := ih _ _ (tracks_sample last l loss now tracks)
      rw [asked]
      cases due : counts last now with
      | false =>
          rw [due] at counted
          rw [sample_uncounted last l loss now tracks due] at counted spaced ⊢
          exact ⟨counted, spaced⟩
      | true =>
          rw [due] at counted
          have later : ∀ request ∈ asked (l.sample loss now).1 rest,
              counts last request.1 = true :=
            fun request member => counts_later last loss now _ due (counted request member)
          cases (l.sample loss now).2 with
          | none => exact ⟨later, spaced⟩
          | some kbps =>
              refine ⟨?_, List.pairwise_cons.mpr ⟨?_, spaced⟩⟩
              · intro request member
                rcases List.mem_cons.mp member with rfl | inside
                · exact due
                · exact later request inside
              · intro request member
                have gap := counted request member
                simp only [if_true, counts, Option.all_some, decide_eq_true_eq] at gap
                have wide : 0 < sampleInterval := by decide
                dsimp only
                omega

theorem asked_differ (samples : List (Nat × Nat)) (last : Option (Nat × Nat)) (l : BitrateLadder)
    (tracks : Tracks last l) :
    (l.currentKbps :: (asked l samples).map Prod.snd).IsChain (· ≠ ·) := by
  induction samples generalizing last l with
  | nil => simp [asked]
  | cons sample rest ih =>
      obtain ⟨loss, now⟩ := sample
      have further := ih _ _ (tracks_sample last l loss now tracks)
      obtain ⟨kbps, moved⟩ := sample_answer last l loss now tracks
      rw [asked]
      cases answer : (l.sample loss now).2 with
      | none =>
          rw [kbps, answer] at further
          exact further
      | some told =>
          rw [kbps, answer] at further
          refine List.isChain_cons_cons.mpr ⟨fun same => moved ?_, further⟩
          rw [answer, same]

def run (l : BitrateLadder) (samples : List (Nat × Nat)) : BitrateLadder :=
  samples.foldl (fun l sample => (l.sample sample.1 sample.2).1) l

theorem run_inTable (samples : List (Nat × Nat)) (last : Option (Nat × Nat)) (l : BitrateLadder)
    (tracks : Tracks last l) : (l.run samples).rung < ladder.length := by
  induction samples generalizing last l with
  | nil => exact Nat.lt_succ_of_le tracks.inTable
  | cons sample rest ih => exact ih _ _ (tracks_sample last l sample.1 sample.2 tracks)

/-- What the ladder promises of a run that starts at the top. -/
structure Hysteresis (samples : List (Nat × Nat)) : Prop where
  spaced : (asked new samples).Pairwise (fun first next => first.1 + 10 ^ 9 ≤ next.1)
  differ : ((asked new samples).map Prod.snd).IsChain (· ≠ ·)
  floors : ∀ look ∈ looks none new samples, look.counted = true → 5 ≤ look.losses →
    look.after = bottom
  raises : ∀ before look after, looks none new samples = before ++ look :: after →
    look.after < look.before →
      look.after + 1 = look.before ∧ look.counted = true ∧ look.losses < 5 ∧
        ∃ older clean, before = older ++ clean ∧ 9 ≤ clean.countP Look.counted ∧
          ∀ other ∈ clean, other.after = other.before ∧ (other.counted = true → other.losses < 5)
  inTable : (new.run samples).rung < ladder.length

/-- Ten clean seconds buy a rung, the tenth being the one that is answered. -/
theorem hysteresis (samples : List (Nat × Nat)) : Hysteresis samples := by
  have sound := looks_sound samples none new [] tracks_new (quiet_zero [])
  refine ⟨(asked_spaced samples none new tracks_new).2,
    (asked_differ samples none new tracks_new).tail, ?_, ?_, ?_⟩
  · intro look member bad
    obtain ⟨before, after, place⟩ := List.append_of_mem member
    exact (sound before after look place).floors bad
  · intro before look after place up
    exact (sound before after look place).raises up
  · exact run_inTable samples none new tracks_new

end BitrateLadder

end Castr.Miracast
