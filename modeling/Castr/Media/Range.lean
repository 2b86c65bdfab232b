import Castr.Media.Bitrate

/-! The bitrate stays between the floor and the ceiling and the rung on the ladder, in every run
whose sums fit their types. -/

namespace Castr.Media

open Castr.Lib
open Castr.Lib.Checked
open Castr.Lib.Word (saturatingSub)
open Castr.Proto (Mode Stats)

theorem scaled_le (bitrate : UInt32) (ratio : ℚ) (high : ratio ≤ 1) :
    scaled bitrate ratio ≤ bitrate := by
  have small : bitrate.toNat < 2 ^ 32 := bitrate.toNat_lt
  have part : (bitrate.toNat : ℚ) * ratio ≤ bitrate.toNat :=
    mul_le_of_le_one_right (Nat.cast_nonneg _) high
  have floor : ⌊(bitrate.toNat : ℚ) * ratio⌋ ≤ bitrate.toNat := by
    calc
      ⌊(bitrate.toNat : ℚ) * ratio⌋ ≤ ⌊(bitrate.toNat : ℚ)⌋ := Int.floor_mono part
      _ = bitrate.toNat := Int.floor_natCast _
  rw [UInt32.le_iff_toNat_le, scaled, UInt32.toNat_ofNat']
  omega

theorem clamp_isSome (value low high : UInt32) : (clamp value low high).isSome ↔ low ≤ high := by
  simp [clamp]

theorem clamp_between {value low high result : UInt32}
    (clamped : clamp value low high = some result) : low ≤ result ∧ result ≤ high := by
  unfold clamp at clamped
  split at clamped
  · rename_i order
    cases clamped
    simp only [UInt32.le_iff_toNat_le, UInt32.lt_iff_toNat_lt] at order ⊢
    split
    · exact ⟨le_refl _, order⟩
    · split
      · exact ⟨order, le_refl _⟩
      · omega
  · cases clamped

namespace BitrateController

/-- The range: the ceiling alone where that is below the floor. -/
structure InRange (c : BitrateController) : Prop where
  bitrate : if c.ceiling < minBitrate then c.bitrate = c.ceiling
    else minBitrate ≤ c.bitrate ∧ c.bitrate ≤ c.ceiling
  rung : c.rung < c.ladder.length

structure Sound (c : BitrateController) : Prop where
  low : minBitrate ≤ c.bitrate
  high : c.bitrate ≤ c.ceiling
  rung : c.rung < c.ladder.length
  wait : c.stepUpWaitUs ≤ maxStepUpWaitUs

theorem Sound.inRange {c : BitrateController} (sound : c.Sound) : c.InRange := by
  refine ⟨?_, sound.rung⟩
  rw [if_neg (UInt32.not_lt.mpr (UInt32.le_trans sound.low sound.high))]
  exact ⟨sound.low, sound.high⟩

/-- The heights of the lower rungs are computed without overflow. -/
def LadderFits (native : Resolution) : Prop :=
  ∀ width ∈ [1280, 960], width < native.width → width.toNat * native.height.toNat < 2 ^ 32

/-- The sums of the call fit: of the fragments, and of a raise that is due. -/
def SumsFit (c : BitrateController) : Event → Prop
  | .stats stats nowUs =>
      stats.fragmentsLost.toNat + stats.fragmentsReceived.toNat < 2 ^ 32 ∧
      (clean (loss stats (stats.fragmentsLost + stats.fragmentsReceived)) stats.decodeQueueDepth →
        c.raiseDue nowUs → c.bitrate.toNat + (c.ceiling / 20).toNat < 2 ^ 32)
  | .setMode _ => True

section New

variable {native : Resolution}

variable (native) in
theorem pushRung_isSome (ladder : List Resolution) (width : UInt32) :
    (pushRung native ladder width).isSome ↔
      (width < native.width → width.toNat * native.height.toNat < 2 ^ 32) := by
  unfold pushRung
  split
  · rename_i wider
    have fits := mul32_isSome (a := width) (b := native.height)
    cases product : mul32 width native.height <;> simp_all
  · rename_i wider
    simp [wider]

theorem pushRung_extends {ladder longer : List Resolution} {width : UInt32}
    (pushed : pushRung native ladder width = some longer) : ladder <+: longer := by
  unfold pushRung at pushed
  split at pushed
  · obtain ⟨product, _, same⟩ := Option.bind_eq_some_iff.mp pushed
    cases same
    exact List.prefix_append _ _
  · cases pushed
    exact List.prefix_rfl

variable (native) in
theorem ladder_isSome (widths : List UInt32) (ladder : List Resolution) :
    (widths.foldlM (pushRung native) ladder).isSome ↔
      ∀ width ∈ widths, width < native.width → width.toNat * native.height.toNat < 2 ^ 32 := by
  induction widths generalizing ladder with
  | nil => simp
  | cons width widths ih =>
      have first := pushRung_isSome native ladder width
      rw [List.foldlM_cons, List.forall_mem_cons, ← first]
      cases pushRung native ladder width with
      | none => simp
      | some longer => simpa using ih longer

theorem ladder_extends {widths : List UInt32} {ladder longer : List Resolution}
    (pushed : widths.foldlM (pushRung native) ladder = some longer) : ladder <+: longer := by
  induction widths generalizing ladder with
  | nil =>
      cases pushed
      exact List.prefix_rfl
  | cons width widths ih =>
      rw [List.foldlM_cons] at pushed
      obtain ⟨middle, first, rest⟩ := Option.bind_eq_some_iff.mp pushed
      exact (pushRung_extends first).trans (ih rest)

variable (native) in
theorem new_isSome (ceilingBps initialBps : UInt32) (mode : Mode) :
    (new ceilingBps initialBps native mode).isSome ↔
      LadderFits native ∧ minBitrate ≤ ceilingBps := by
  have rungs := ladder_isSome native [1280, 960] [native]
  have bitrate := clamp_isSome initialBps minBitrate ceilingBps
  unfold LadderFits new
  rw [← rungs, ← bitrate]
  cases [1280, 960].foldlM (pushRung native) [native] with
  | none => simp
  | some ladder => cases clamp initialBps minBitrate ceilingBps <;> simp

theorem new_sound {ceilingBps initialBps : UInt32} {mode : Mode} {c : BitrateController}
    (made : new ceilingBps initialBps native mode = some c) : c.Sound := by
  obtain ⟨ladder, pushed, made⟩ := Option.bind_eq_some_iff.mp made
  obtain ⟨bitrate, clamped, made⟩ := Option.bind_eq_some_iff.mp made
  cases made
  obtain ⟨low, high⟩ := clamp_between clamped
  have rungs := (ladder_extends pushed).length_le
  exact ⟨low, high, rungs, show cleanStepUpUs ≤ maxStepUpWaitUs by decide⟩

theorem new_current {ceilingBps initialBps : UInt32} {mode : Mode} {c : BitrateController}
    (made : new ceilingBps initialBps native mode = some c) (low : minBitrate ≤ initialBps)
    (high : initialBps ≤ ceilingBps) : c.current = some ⟨initialBps, native⟩ := by
  obtain ⟨ladder, pushed, made⟩ := Option.bind_eq_some_iff.mp made
  obtain ⟨bitrate, clamped, made⟩ := Option.bind_eq_some_iff.mp made
  cases made
  obtain ⟨lower, rfl⟩ := ladder_extends pushed
  rw [clamp, if_pos (UInt32.le_trans low high), if_neg (UInt32.not_lt.mpr low),
    if_neg (UInt32.not_lt.mpr high)] at clamped
  cases clamped
  rfl

end New

section Blocks

variable {c next : BitrateController} {loss : ℚ} {depth : UInt32} {nowUs : UInt64}

theorem cut_sound (sound : c.Sound) (loss : ℚ) (depth : UInt32) (nowUs : UInt64) :
    (c.cut loss depth nowUs).Sound := by
  have floor := UInt32.le_trans sound.low sound.high
  have kept : ∀ ratio : ℚ, ratio ≤ 1 → minBitrate ≤ max (scaled c.bitrate ratio) minBitrate ∧
      max (scaled c.bitrate ratio) minBitrate ≤ c.ceiling := by
    intro ratio high
    have lower := UInt32.le_trans (scaled_le c.bitrate ratio high) sound.high
    rw [UInt32.le_iff_toNat_le] at lower floor
    rw [UInt32.le_iff_toNat_le, UInt32.le_iff_toNat_le, max32_toNat]
    exact ⟨le_max_right _ _, max_le lower floor⟩
  unfold cut
  split
  · have cut := kept (7 / 10) (by norm_num)
    exact ⟨cut.1, cut.2, sound.rung, sound.wait⟩
  · split
    · have cut := kept (85 / 100) (by norm_num)
      exact ⟨cut.1, cut.2, sound.rung, sound.wait⟩
    · exact sound

theorem raise_sound (sound : c.Sound) (raised : c.raise loss depth nowUs = some next) :
    next.Sound := by
  have low := sound.low
  have high := sound.high
  unfold raise at raised
  split at raised
  · split at raised
    · obtain ⟨sum, added, same⟩ := Option.bind_eq_some_iff.mp raised
      cases same
      have fits := add32_isSome.mp (Option.isSome_of_eq_some added)
      rw [add32_eq fits] at added
      cases added
      have between : minBitrate ≤ min (c.bitrate + c.ceiling / 20) c.ceiling ∧
          min (c.bitrate + c.ceiling / 20) c.ceiling ≤ c.ceiling := by
        simp only [UInt32.le_iff_toNat_le, min32_toNat] at low high ⊢
        rw [UInt32.toNat_add, Nat.mod_eq_of_lt fits]
        omega
      exact ⟨between.1, between.2, sound.rung, sound.wait⟩
    · cases raised
      exact ⟨low, high, sound.rung, sound.wait⟩
  · cases raised
    exact ⟨low, high, sound.rung, sound.wait⟩

theorem raise_isSome : (c.raise loss depth nowUs).isSome ↔
    (clean loss depth → c.raiseDue nowUs → c.bitrate.toNat + (c.ceiling / 20).toNat < 2 ^ 32) := by
  unfold raise
  cases clean loss depth with
  | false => simp
  | true =>
      have fits := add32_isSome (a := c.bitrate) (b := c.ceiling / 20)
      cases c.raiseDue nowUs with
      | false => simp
      | true => cases sum : add32 c.bitrate (c.ceiling / 20) <;> simp_all

theorem cut_clean (still : clean loss depth = true) : c.cut loss depth nowUs = c := by
  obtain ⟨low, shallow⟩ := of_decide_eq_true still
  have kept : ¬ (loss > 2 / 100 ∧ c.cutAllowed nowUs = true) := fun cut => by linarith [cut.1]
  have fast : ¬ (depth > 3 ∧ c.cutAllowed nowUs = true) := fun cut => by
    have deep := cut.1
    simp only [gt_iff_lt, UInt32.lt_iff_toNat_lt, UInt32.le_iff_toNat_le] at deep shallow
    exact absurd deep (by simp at shallow ⊢; omega)
  rw [BitrateController.cut, if_neg kept, if_neg fast]

theorem queueStep_sound (sound : c.Sound) (loss : ℚ) (depth : UInt32) (nowUs : UInt64) :
    ∃ next, c.queueStep loss depth nowUs = some next ∧ next.Sound := by
  unfold queueStep
  split
  · split
    · rename_i due
      obtain ⟨_, room⟩ := of_decide_eq_true due
      have small : c.stepUpWaitUs.toNat * (2 : UInt64).toNat < 2 ^ 64 := by
        have wait := sound.wait
        rw [UInt64.le_iff_toNat_le] at wait
        simp only [maxStepUpWaitUs, UInt64.reduceToNat] at wait ⊢
        omega
      rw [mulWord_eq small]
      exact ⟨_, rfl, sound.low, sound.high, room, Std.min_le_right⟩
    · exact ⟨_, rfl, sound.low, sound.high, sound.rung, sound.wait⟩
  · exact ⟨_, rfl, sound.low, sound.high, sound.rung, sound.wait⟩

theorem floorStep_sound (sound : c.Sound) : (c.floorStep nowUs).Sound := by
  unfold floorStep
  split
  · split
    · rename_i due
      obtain ⟨_, room⟩ := of_decide_eq_true due
      exact ⟨sound.low, sound.high, room, sound.wait⟩
    · exact ⟨sound.low, sound.high, sound.rung, sound.wait⟩
  · exact ⟨sound.low, sound.high, sound.rung, sound.wait⟩

theorem stepUp_sound (sound : c.Sound) : (c.stepUp nowUs).Sound := by
  have lower : c.rung - 1 < c.ladder.length := lt_of_le_of_lt (Nat.sub_le _ _) sound.rung
  unfold stepUp
  cases c.cleanSinceUs with
  | none => exact sound
  | some since =>
      dsimp only
      split
      · exact ⟨sound.low, sound.high, lower, sound.wait⟩
      · exact sound

theorem gameStep_sound (sound : c.Sound) (loss : ℚ) (depth : UInt32) (nowUs : UInt64) :
    ∃ next, c.gameStep loss depth nowUs = some next ∧ next.Sound := by
  unfold gameStep
  cases c.mode with
  | quality => exact ⟨c, rfl, sound⟩
  | game =>
      obtain ⟨queued, taken, kept⟩ := queueStep_sound sound loss depth nowUs
      rw [taken]
      exact ⟨_, rfl, stepUp_sound (floorStep_sound kept)⟩

theorem adapt_sound (sound : c.Sound) (loss : ℚ) (depth : UInt32) (nowUs : UInt64) :
    ((c.adapt loss depth nowUs).isSome ↔ (clean loss depth → c.raiseDue nowUs →
      c.bitrate.toNat + (c.ceiling / 20).toNat < 2 ^ 32)) ∧
    ∀ next, c.adapt loss depth nowUs = some next → next.Sound := by
  have kept := cut_sound sound loss depth nowUs
  have possible : ((c.cut loss depth nowUs).raise loss depth nowUs).isSome ↔
      (clean loss depth → c.raiseDue nowUs →
        c.bitrate.toNat + (c.ceiling / 20).toNat < 2 ^ 32) := by
    rw [raise_isSome]
    refine forall_congr' (fun still => ?_)
    rw [cut_clean still]
  rw [← possible, adapt]
  cases raised : (c.cut loss depth nowUs).raise loss depth nowUs with
  | none => simp
  | some higher =>
      obtain ⟨next, stepped, last⟩ := gameStep_sound (raise_sound kept raised) loss depth nowUs
      rw [Option.bind_eq_bind, Option.bind_some, stepped]
      refine ⟨by simp, ?_⟩
      rintro _ ⟨⟩
      exact last

theorem current_sound (sound : c.Sound) : ∃ decision, c.current = some decision := by
  rw [current, List.getElem?_eq_getElem sound.rung]
  exact ⟨_, rfl⟩

end Blocks

theorem setMode_sound {c : BitrateController} (sound : c.Sound) (mode : Mode) :
    (c.setMode mode).Sound := by
  cases mode with
  | game => exact ⟨sound.low, sound.high, sound.rung, sound.wait⟩
  | quality => exact ⟨sound.low, sound.high, Nat.zero_lt_of_lt sound.rung, sound.wait⟩

theorem onStats_sound {c : BitrateController} (sound : c.Sound) (stats : Stats) (nowUs : UInt64) :
    ((c.onStats stats nowUs).isSome ↔ c.SumsFit (.stats stats nowUs)) ∧
      ∀ next decision, c.onStats stats nowUs = some (next, decision) → next.Sound := by
  obtain ⟨before, shown⟩ := current_sound sound
  simp only [SumsFit]
  unfold onStats
  rw [shown, Option.bind_eq_bind, Option.bind_some]
  by_cases fits : stats.fragmentsLost.toNat + stats.fragmentsReceived.toNat < 2 ^ 32
  · rw [add32_eq fits, Option.bind_eq_bind, Option.bind_some]
    obtain ⟨possible, kept⟩ := adapt_sound sound
      (loss stats (stats.fragmentsLost + stats.fragmentsReceived)) stats.decodeQueueDepth nowUs
    rw [and_iff_right fits, ← possible]
    cases taken : c.adapt (loss stats (stats.fragmentsLost + stats.fragmentsReceived))
        stats.decodeQueueDepth nowUs with
    | none => simp
    | some next =>
        obtain ⟨after, seen⟩ := current_sound (kept next taken)
        rw [Option.bind_eq_bind, Option.bind_some, seen]
        refine ⟨by simp, ?_⟩
        rintro _ _ ⟨⟩
        exact kept next taken
  · rw [add32_none fits]
    exact ⟨⟨nofun, fun sums => absurd sums.1 fits⟩, nofun⟩

theorem step_sound {c : BitrateController} (sound : c.Sound) (event : Event) :
    ((c.step event).isSome ↔ c.SumsFit event) ∧
      ∀ next decision, c.step event = some (next, decision) → next.Sound := by
  cases event with
  | stats stats nowUs => exact onStats_sound sound stats nowUs
  | setMode mode =>
      refine ⟨by simp [step, SumsFit], ?_⟩
      rintro _ _ ⟨⟩
      exact setMode_sound sound mode

theorem run_sound {c last : BitrateController} (sound : c.Sound) (events : List Event)
    (ended : Halting.final step c events = some last) : last.Sound :=
  Halting.final_invariant step Sound sound
    (fun _ event next decision taken kept => (step_sound kept event).2 next decision taken) ended

/-- The controller is made, and every call of every run returns and leaves it in range, exactly when
the ceiling is not below the floor and all sums and products fit. -/
theorem range_iff (ceilingBps initialBps : UInt32) (native : Resolution) (mode : Mode)
    (events : List Event) :
    (∃ c, new ceilingBps initialBps native mode = some c ∧
      ∀ front back, events = front ++ back →
        ∃ last, Halting.final step c front = some last ∧ last.InRange) ↔
    minBitrate ≤ ceilingBps ∧ LadderFits native ∧
      ∀ c, new ceilingBps initialBps native mode = some c →
        ∀ front event back, events = front ++ event :: back →
          ∀ before, Halting.final step c front = some before → before.SumsFit event := by
  have starts := new_isSome native ceilingBps initialBps mode
  constructor
  · rintro ⟨c, made, ranges⟩
    obtain ⟨rungs, floor⟩ := starts.mp (by simp [made])
    refine ⟨floor, rungs, ?_⟩
    intro other same front event back split before reached
    obtain rfl := Option.some.inj (made.symm.trans same)
    obtain ⟨last, ended, _⟩ := ranges (front ++ [event]) back (by simp [split])
    obtain ⟨middle, out, there, taken⟩ := Halting.final_snoc_eq step ended
    obtain rfl := Option.some.inj (there.symm.trans reached)
    exact (step_sound (run_sound (new_sound made) front reached) event).1.mp (by simp [taken])
  · rintro ⟨floor, rungs, fits⟩
    obtain ⟨c, made⟩ := Option.isSome_iff_exists.mp (starts.mpr ⟨rungs, floor⟩)
    refine ⟨c, made, fun front back split => ?_⟩
    have returns := (Halting.final_isSome_iff step c front).mpr (by
      intro before event after inside middle reached
      have sound := run_sound (new_sound made) before reached
      exact (step_sound sound event).1.mpr
        (fits c made before event (after ++ back) (by simp [split, inside]) middle reached))
    obtain ⟨last, ended⟩ := Option.isSome_iff_exists.mp returns
    exact ⟨last, ended, (run_sound (new_sound made) front ended).inRange⟩

/-- Twelve clean reports, a second apart. -/
def rising : List Event :=
  (List.range 12).map (fun i => .stats ⟨3, 0, 0, 100, 0, 100⟩ (UInt64.ofNat (i * 1000000)))

/-- A ceiling below the floor, a report of 2 ^ 32 fragments, and a raise above 2 ^ 32. -/
theorem extremes_panic :
    new 500000 250000 .hd .game = none ∧
    ((new 8000000 4000000 .hd .game).bind (fun c =>
      c.onStats ⟨3, 0, 0x80000000, 0x80000000, 0, 100⟩ 0)) = none ∧
    ((new 0xFFFFFFFF 0x7FFFFFFF .hd .game).bind (fun c => Halting.final step c rising)) = none := by
  decide +kernel

end BitrateController

end Castr.Media
