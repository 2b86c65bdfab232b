import Castr.Lib.Checked
import Castr.Media.Clock
import Castr.Media.Order

/-! The sums of timestamps, as a build with overflow checks computes them: `none` is its panic. -/

namespace Castr.Media

open Castr.Lib
open Castr.Lib.Checked
open Castr.Lib.Word (saturatingSub saturatingSub_toNat)
open Castr.Proto (CompleteFrame Mode)

namespace JitterBuffer

def baseForChecked (frame : CompleteFrame) (nowUs : UInt64) : Option Int64 := do
  let offset ← sub nowUs.toInt64 frame.timestampUs.toInt64
  add offset qualityDelayUs

def pushChecked (b : JitterBuffer) (frame : CompleteFrame) (nowUs : UInt64) :
    Option JitterBuffer := do
  if b.stale frame.frameNumber then return { b with dropped := b.dropped + 1 }
  let base ← match b.baseUs with
    | some base => some base
    | none => baseForChecked frame nowUs
  return { b with baseUs := some base, frames := insertFrame b.frames frame }

def dueAtChecked (base : Int64) (frame : CompleteFrame) : Option Int64 :=
  add frame.timestampUs.toInt64 base

/-- How many frames are due without a break; the first one that is not is looked at too. -/
def dueChecked (base : Int64) (nowUs : UInt64) : List CompleteFrame → Option Nat
  | [] => some 0
  | frame :: frames => do
      let due ← dueAtChecked base frame
      if due ≤ nowUs.toInt64 then
        let rest ← dueChecked base nowUs frames
        return rest + 1
      else return 0

def popQualityChecked (b : JitterBuffer) (head : CompleteFrame) (nowUs : UInt64) :
    Option Popped :=
  match b.baseUs with
  | none => some ⟨.panic, none, b⟩
  | some base => do
      let due ← dueAtChecked base head
      if due > nowUs.toInt64 then return ⟨.notDue, none, b⟩
      let lastDue ← dueChecked base nowUs b.frames.tail
      let lateness ← sub nowUs.toInt64 due
      if lastDue > 0 ∧ lateness > b.intervalUs.toInt64 then
        match newestKeyframe b.frames lastDue with
        | some k => return b.take .lateJump k
        | none =>
            if lateness > qualityMaxLateUs then return ⟨.lateAbandoned, none, b.giveUpOnGop⟩
            else return b.take .inOrder 0
      else return b.take .inOrder 0

def popChecked (b : JitterBuffer) (nowUs : UInt64) : Option Popped :=
  match b.frames with
  | [] => some ⟨.empty, none, b⟩
  | head :: _ =>
      if b.needKeyframe then
        match newestKeyframe b.frames (b.frames.length - 1) with
        | some i => some (take { b with needKeyframe := false } .keyframe i)
        | none => some ⟨.holdDeltas, none, b.trimWaiting⟩
      else if b.gapBefore head then some (b.popGap nowUs)
      else
        match b.mode with
        | .game => some b.popGame
        | .quality => b.popQualityChecked head nowUs

def stepChecked (b : JitterBuffer) : Op → Option JitterBuffer
  | .push frame nowUs => b.pushChecked frame nowUs
  | .pop nowUs => (b.popChecked nowUs).map Popped.buffer
  | op => some (b.step op).1

end JitterBuffer

namespace AvClock

def audioPlayedChecked (_ : AvClock) (tsUs nowUs : UInt64) : Option AvClock := do
  let offset ← sub nowUs.toInt64 tsUs.toInt64
  return { audioAnchor := some (tsUs, nowUs), videoOffset := some offset }

def offsetTsChecked (off : Option Int64) (nowUs : UInt64) : Option (Option UInt64) :=
  match off with
  | none => some none
  | some off => do
      let ts ← sub nowUs.toInt64 off
      return some (max ts 0).toUInt64

def presentedTsChecked (c : AvClock) (nowUs : UInt64) : Option (Option UInt64) :=
  match c.audioAnchor with
  | some (ts, at_) =>
      if c.audioStale nowUs then offsetTsChecked c.videoOffset nowUs
      else do
        let ts ← addWord ts (saturatingSub nowUs at_)
        return some ts
  | none => offsetTsChecked c.videoOffset nowUs

def videoDueChecked (c : AvClock) (frameTsUs nowUs : UInt64) : Option (Bool × AvClock) :=
  match c.videoOffset with
  | none => do
      let offset ← sub nowUs.toInt64 frameTsUs.toInt64
      return (true, { c with videoOffset := some offset })
  | some _ => do
      let presented ← c.presentedTsChecked nowUs
      return ((presented.map (fun p => decide (p ≥ frameTsUs))).getD true, c)

end AvClock

/-- Timestamps up to here never overflow, at any two receiver times below `clockLimit`. -/
def timestampLimit : Nat := 2 ^ 62 - 150000

def clockLimit : Nat := 2 ^ 62

structure Base (base : Int64) : Prop where
  low : 300000 - 2 ^ 62 ≤ base.toInt
  high : base.toInt < 2 ^ 62 + 150000

namespace JitterBuffer

variable {frame : CompleteFrame} {nowUs : UInt64} {base : Int64}

theorem qualityDelay_toInt : qualityDelayUs.toInt = 150000 := rfl

theorem baseFor_checked (small : frame.timestampUs.toNat ≤ timestampLimit)
    (early : nowUs.toNat < clockLimit) :
    baseForChecked frame nowUs = some (baseFor frame nowUs) ∧ Base (baseFor frame nowUs) := by
  unfold timestampLimit at small
  unfold clockLimit at early
  have ts := toInt_toInt64 (show frame.timestampUs.toNat < 2 ^ 63 by omega)
  have now := toInt_toInt64 (show nowUs.toNat < 2 ^ 63 by omega)
  have first : Fits (nowUs.toInt64.toInt - frame.timestampUs.toInt64.toInt) := by
    unfold Fits
    omega
  have offset := toInt_sub first
  have second :
      Fits ((nowUs.toInt64 - frame.timestampUs.toInt64).toInt + qualityDelayUs.toInt) := by
    rw [offset, qualityDelay_toInt]
    unfold Fits
    omega
  have sum := toInt_add second
  rw [offset, qualityDelay_toInt] at sum
  refine ⟨?_, ?_, ?_⟩
  · rw [baseForChecked, sub_eq first]
    exact add_eq second
  · rw [baseFor]
    omega
  · rw [baseFor]
    omega

theorem dueAt_checked (small : frame.timestampUs.toNat ≤ timestampLimit) (near : Base base) :
    dueAtChecked base frame = some (dueAt base frame) ∧
      (dueAt base frame).toInt = frame.timestampUs.toNat + base.toInt := by
  obtain ⟨low, high⟩ := near
  unfold timestampLimit at small
  have ts := toInt_toInt64 (show frame.timestampUs.toNat < 2 ^ 63 by omega)
  have fits : Fits (frame.timestampUs.toInt64.toInt + base.toInt) := by
    unfold Fits
    omega
  exact ⟨add_eq fits, by rw [dueAt, toInt_add fits, ts]⟩

theorem due_checked (frames : List CompleteFrame) (near : Base base)
    (small : ∀ f ∈ frames, f.timestampUs.toNat ≤ timestampLimit) :
    dueChecked base nowUs frames =
      some (frames.takeWhile (fun f => dueAt base f ≤ nowUs.toInt64)).length := by
  induction frames with
  | nil => rfl
  | cons head rest ih =>
      have later := ih (fun f inside => small f (List.mem_cons_of_mem head inside))
      rw [dueChecked, (dueAt_checked (small head List.mem_cons_self) near).1, later]
      by_cases due : dueAt base head ≤ nowUs.toInt64
      · simp [due]
      · simp [due]

theorem popQuality_checked (b : JitterBuffer) (head : CompleteFrame) (rest : List CompleteFrame)
    (found : b.frames = head :: rest)
    (small : ∀ f ∈ b.frames, f.timestampUs.toNat ≤ timestampLimit)
    (near : ∀ base, b.baseUs = some base → Base base) (early : nowUs.toNat < clockLimit) :
    b.popQualityChecked head nowUs = some (b.popQuality head nowUs) := by
  unfold popQualityChecked popQuality
  cases set : b.baseUs with
  | none => rfl
  | some base =>
      obtain ⟨first, value⟩ := dueAt_checked (small head (by simp [found])) (near base set)
      have count : dueChecked base nowUs b.frames.tail = some (b.lastDue base nowUs) :=
        due_checked b.frames.tail (near base set)
          (fun f inside => small f (List.mem_of_mem_tail inside))
      have fits : Fits (nowUs.toInt64.toInt - (dueAt base head).toInt) := by
        have now := toInt_toInt64 (show nowUs.toNat < 2 ^ 63 by
          unfold clockLimit at early
          omega)
        have low := (near base set).low
        have high := (near base set).high
        have ts := small head (by simp [found])
        unfold clockLimit at early
        unfold timestampLimit at ts
        unfold Fits
        omega
      simp only [first, count, sub_eq fits, Option.bind_eq_bind, Option.bind_some, Option.pure_def]
      split
      · rfl
      · split
        · cases newestKeyframe b.frames (b.lastDue base nowUs) with
          | some k => rfl
          | none =>
              dsimp only
              split <;> rfl
        · rfl

theorem pop_checked (b : JitterBuffer) (small : ∀ f ∈ b.frames, f.timestampUs.toNat ≤
    timestampLimit)
    (near : ∀ base, b.baseUs = some base → Base base) (early : nowUs.toNat < clockLimit) :
    b.popChecked nowUs = some (b.pop nowUs) := by
  unfold popChecked pop
  cases found : b.frames with
  | nil => rfl
  | cons head rest =>
      dsimp only
      split
      · cases newestKeyframe (head :: rest) ((head :: rest).length - 1) <;> rfl
      · split
        · rfl
        · cases b.mode with
          | game => rfl
          | quality => exact popQuality_checked b head rest found small near early

theorem push_checked (b : JitterBuffer) (small : frame.timestampUs.toNat ≤ timestampLimit)
    (early : nowUs.toNat < clockLimit) :
    b.pushChecked frame nowUs = some (b.push frame nowUs) := by
  have base := (baseFor_checked small early).1
  unfold pushChecked push
  cases old : b.stale frame.frameNumber with
  | true => rfl
  | false => cases set : b.baseUs <;> simp [base]

theorem push_base (b : JitterBuffer) (small : frame.timestampUs.toNat ≤ timestampLimit)
    (early : nowUs.toNat < clockLimit) (near : ∀ base, b.baseUs = some base → Base base) :
    ∀ base, (b.push frame nowUs).baseUs = some base → Base base := by
  unfold push
  split
  · exact near
  · intro base set
    cases before : b.baseUs with
    | none =>
        rw [before, Option.getD_none, Option.some.injEq] at set
        exact set ▸ (baseFor_checked small early).2
    | some old =>
        rw [before, Option.getD_some, Option.some.injEq] at set
        exact set ▸ near old before

theorem pop_baseUs (b : JitterBuffer) (nowUs : UInt64) :
    (b.pop nowUs).buffer.baseUs = b.baseUs := by
  have possible := pops b nowUs
  generalize b.pop nowUs = result at possible ⊢
  cases possible <;> simp [after, giveUpOnGop]

end JitterBuffer

namespace AvClock

structure Bounded (c : AvClock) : Prop where
  anchor : ∀ ts at_, c.audioAnchor = some (ts, at_) → ts.toNat ≤ timestampLimit
  low : ∀ off, c.videoOffset = some off → 150000 - 2 ^ 62 ≤ off.toInt
  high : ∀ off, c.videoOffset = some off → off.toInt < 2 ^ 62

variable {c : AvClock} {tsUs nowUs : UInt64}

theorem offset_fits (small : tsUs.toNat ≤ timestampLimit) (early : nowUs.toNat < clockLimit) :
    sub nowUs.toInt64 tsUs.toInt64 = some (nowUs.toInt64 - tsUs.toInt64) ∧
      150000 - 2 ^ 62 ≤ (nowUs.toInt64 - tsUs.toInt64).toInt ∧
      (nowUs.toInt64 - tsUs.toInt64).toInt < 2 ^ 62 := by
  unfold timestampLimit at small
  unfold clockLimit at early
  have ts := toInt_toInt64 (show tsUs.toNat < 2 ^ 63 by omega)
  have now := toInt_toInt64 (show nowUs.toNat < 2 ^ 63 by omega)
  have fits : Fits (nowUs.toInt64.toInt - tsUs.toInt64.toInt) := by
    unfold Fits
    omega
  have value := toInt_sub fits
  exact ⟨sub_eq fits, by omega, by omega⟩

theorem audioPlayed_checked (small : tsUs.toNat ≤ timestampLimit)
    (early : nowUs.toNat < clockLimit) :
    c.audioPlayedChecked tsUs nowUs = some (c.audioPlayed tsUs nowUs) ∧
      (c.audioPlayed tsUs nowUs).Bounded := by
  obtain ⟨checked, low, high⟩ := offset_fits small early
  refine ⟨by simp [audioPlayedChecked, audioPlayed, checked], ?_, ?_, ?_⟩
  · rintro ts at_ ⟨⟩
    exact small
  · rintro off ⟨⟩
    exact low
  · rintro off ⟨⟩
    exact high

theorem offsetTs_checked (bounded : c.Bounded) (early : nowUs.toNat < clockLimit) :
    offsetTsChecked c.videoOffset nowUs =
      some (c.videoOffset.map (fun off => (max (nowUs.toInt64 - off) 0).toUInt64)) := by
  cases set : c.videoOffset with
  | none => rfl
  | some off =>
      have low := bounded.low off set
      have high := bounded.high off set
      unfold clockLimit at early
      have now := toInt_toInt64 (show nowUs.toNat < 2 ^ 63 by omega)
      have fits : Fits (nowUs.toInt64.toInt - off.toInt) := by
        unfold Fits
        omega
      simp [offsetTsChecked, sub_eq fits]

theorem presentedTs_checked (bounded : c.Bounded) (early : nowUs.toNat < clockLimit) :
    c.presentedTsChecked nowUs = some (c.presentedTs nowUs) := by
  have offset := offsetTs_checked bounded early
  unfold presentedTsChecked presentedTs
  cases anchor : c.audioAnchor with
  | none => exact offset
  | some pair =>
      obtain ⟨ts, at_⟩ := pair
      dsimp only
      split
      · exact offset
      · next fresh =>
          have small := bounded.anchor ts at_ anchor
          have soon : nowUs.toNat - at_.toNat < 200000 := by
            simpa [audioStale, anchor, UInt64.lt_iff_toNat_lt, staleUs] using fresh
          unfold timestampLimit at small
          have fits : ts.toNat + (saturatingSub nowUs at_).toNat < 2 ^ 64 := by
            rw [saturatingSub_toNat]
            omega
          simp [addWord_eq fits]

theorem videoDue_checked (bounded : c.Bounded) (small : tsUs.toNat ≤ timestampLimit)
    (early : nowUs.toNat < clockLimit) :
    c.videoDueChecked tsUs nowUs = some (c.videoDue tsUs nowUs) ∧
      (c.videoDue tsUs nowUs).2.Bounded := by
  unfold videoDueChecked videoDue
  cases set : c.videoOffset with
  | some off =>
      rw [presentedTs_checked bounded early]
      exact ⟨rfl, bounded⟩
  | none =>
      obtain ⟨checked, low, high⟩ := offset_fits small early
      refine ⟨by simp [checked], bounded.anchor, ?_, ?_⟩
      · rintro off ⟨⟩
        exact low
      · rintro off ⟨⟩
        exact high

end AvClock

structure Playback where
  jitter : JitterBuffer
  clock : AvClock

namespace Playback

inductive Event where
  | jitter (op : JitterBuffer.Op)
  | audioPlayed (tsUs nowUs : UInt64)
  | presentedTs (nowUs : UInt64)
  | videoDue (frameTsUs nowUs : UInt64)

def new (mode : Mode) (intervalUs : UInt64) : Playback := ⟨.new mode intervalUs, .new⟩

def step (s : Playback) : Event → Playback
  | .jitter op => { s with jitter := (s.jitter.step op).1 }
  | .audioPlayed tsUs nowUs => { s with clock := s.clock.audioPlayed tsUs nowUs }
  | .presentedTs _ => s
  | .videoDue frameTsUs nowUs => { s with clock := (s.clock.videoDue frameTsUs nowUs).2 }

def stepChecked (s : Playback) : Event → Option Playback
  | .jitter op => (s.jitter.stepChecked op).map (fun jitter => { s with jitter := jitter })
  | .audioPlayed tsUs nowUs =>
      (s.clock.audioPlayedChecked tsUs nowUs).map (fun clock => { s with clock := clock })
  | .presentedTs nowUs => (s.clock.presentedTsChecked nowUs).map (fun _ => s)
  | .videoDue frameTsUs nowUs =>
      (s.clock.videoDueChecked frameTsUs nowUs).map (fun due => { s with clock := due.2 })

/-- `none` when some sum of the run overflows. -/
def runChecked (s : Playback) (events : List Event) : Option Playback :=
  events.foldlM stepChecked s

def run (s : Playback) (events : List Event) : Playback := events.foldl step s

/-- The timestamps of the event are at most the bound, its receiver time below the limit. -/
def Event.Within (bound : Nat) : Event → Prop
  | .jitter (.push frame nowUs) => frame.timestampUs.toNat ≤ bound ∧ nowUs.toNat < clockLimit
  | .jitter (.pop nowUs) => nowUs.toNat < clockLimit
  | .jitter _ => True
  | .audioPlayed tsUs nowUs => tsUs.toNat ≤ bound ∧ nowUs.toNat < clockLimit
  | .presentedTs nowUs => nowUs.toNat < clockLimit
  | .videoDue frameTsUs nowUs => frameTsUs.toNat ≤ bound ∧ nowUs.toNat < clockLimit

structure Bounded (s : Playback) : Prop where
  small : ∀ f ∈ s.jitter.frames, f.timestampUs.toNat ≤ timestampLimit
  base : ∀ base, s.jitter.baseUs = some base → Base base
  clock : s.clock.Bounded

theorem bounded_new (mode : Mode) (intervalUs : UInt64) : Bounded (new mode intervalUs) :=
  ⟨by simp [new, JitterBuffer.new], by simp [new, JitterBuffer.new],
    by simp [new, AvClock.new], by simp [new, AvClock.new], by simp [new, AvClock.new]⟩

theorem jitter_checked (s : Playback) (bounded : s.Bounded) (op : JitterBuffer.Op)
    (within : (Event.jitter op).Within timestampLimit) :
    s.jitter.stepChecked op = some (s.jitter.step op).1 ∧
      (∀ f ∈ (s.jitter.step op).1.frames, f.timestampUs.toNat ≤ timestampLimit) ∧
      ∀ base, (s.jitter.step op).1.baseUs = some base → Base base := by
  cases op with
  | push frame nowUs =>
      refine ⟨JitterBuffer.push_checked s.jitter within.1 within.2, ?_,
        JitterBuffer.push_base s.jitter within.1 within.2 bounded.base⟩
      intro f present
      rcases JitterBuffer.mem_push s.jitter frame nowUs f present with rfl | before
      · exact within.1
      · exact bounded.small f before
  | pop nowUs =>
      refine ⟨?_, ?_, ?_⟩
      · rw [JitterBuffer.stepChecked,
          JitterBuffer.pop_checked s.jitter bounded.small bounded.base within]
        rfl
      · intro f present
        exact bounded.small f (JitterBuffer.pop_subset s.jitter nowUs f present)
      · intro base set
        exact bounded.base base ((JitterBuffer.pop_baseUs s.jitter nowUs).symm.trans set)
  | requireKeyframe => exact ⟨rfl, bounded.small, bounded.base⟩
  | setMode mode =>
      exact ⟨rfl, by simp [JitterBuffer.step, JitterBuffer.setMode, JitterBuffer.flush],
      by simp [JitterBuffer.step, JitterBuffer.setMode, JitterBuffer.flush]⟩
  | flush => exact ⟨rfl, by simp [JitterBuffer.step, JitterBuffer.flush],
      by simp [JitterBuffer.step, JitterBuffer.flush]⟩
  | dropped => exact ⟨rfl, bounded.small, bounded.base⟩

theorem step_checked (s : Playback) (bounded : s.Bounded) (event : Event)
    (within : event.Within timestampLimit) :
    s.stepChecked event = some (s.step event) ∧ (s.step event).Bounded := by
  cases event with
  | jitter op =>
      obtain ⟨checked, small, base⟩ := jitter_checked s bounded op within
      exact ⟨by simp [stepChecked, step, checked], small, base, bounded.clock⟩
  | audioPlayed tsUs nowUs =>
      obtain ⟨checked, clock⟩ := AvClock.audioPlayed_checked (c := s.clock) within.1 within.2
      exact ⟨by simp [stepChecked, step, checked], bounded.small, bounded.base, clock⟩
  | presentedTs nowUs =>
      have checked := AvClock.presentedTs_checked bounded.clock within
      exact ⟨by simp [stepChecked, step, checked], bounded⟩
  | videoDue frameTsUs nowUs =>
      obtain ⟨checked, clock⟩ := AvClock.videoDue_checked bounded.clock within.1 within.2
      exact ⟨by simp [stepChecked, step, checked], bounded.small, bounded.base, clock⟩

theorem run_checked (s : Playback) (bounded : s.Bounded) (events : List Event)
    (within : ∀ event ∈ events, event.Within timestampLimit) :
    s.runChecked events = some (s.run events) := by
  induction events generalizing s with
  | nil => rfl
  | cons event events ih =>
      obtain ⟨checked, next⟩ := step_checked s bounded event (within event List.mem_cons_self)
      have later := ih (s.step event) next (fun other inside =>
        within other (List.mem_cons_of_mem event inside))
      rw [runChecked, List.foldlM_cons, checked]
      exact later

def timed (frameNumber : UInt32) (timestampUs : UInt64) : CompleteFrame :=
  ⟨0, frameNumber, timestampUs, frameNumber == 0, []⟩

/-- The base of a frame at 0, added to a timestamp just over the limit. -/
def straddling : List Event :=
  [.jitter (.push (timed 0 0) 4611686018427387903), .jitter (.pop 4611686018427387903),
    .jitter (.push (timed 1 4611686018427237905) 4611686018427387903),
    .jitter (.pop 4611686018427387903)]

theorem straddling_within : ∀ event ∈ straddling, event.Within (timestampLimit + 1) := by
  simp [straddling, Event.Within, timed, timestampLimit, clockLimit]

theorem straddling_overflows : (new .quality 33333).runChecked straddling = none := by
  decide +kernel

theorem within_mono {event : Event} {low high : Nat} (order : low ≤ high)
    (within : event.Within low) : event.Within high := by
  cases event with
  | jitter op =>
      cases op with
      | push frame nowUs => exact ⟨Nat.le_trans within.1 order, within.2⟩
      | _ => exact within
  | audioPlayed tsUs nowUs => exact ⟨Nat.le_trans within.1 order, within.2⟩
  | presentedTs nowUs => exact within
  | videoDue frameTsUs nowUs => exact ⟨Nat.le_trans within.1 order, within.2⟩

/-- No sum of timestamps overflows, in any run whose timestamps are at most the bound, exactly for
the bounds up to `timestampLimit`. -/
theorem checked_iff (bound : Nat) :
    (∀ mode intervalUs events, (∀ event ∈ events, event.Within bound) →
      (new mode intervalUs).runChecked events = some ((new mode intervalUs).run events)) ↔
      bound ≤ timestampLimit := by
  constructor
  · intro fits
    by_contra large
    have checked := fits .quality 33333 straddling (fun event inside =>
      within_mono (by omega) (straddling_within event inside))
    rw [straddling_overflows] at checked
    cases checked
  · intro small mode intervalUs events within
    exact run_checked _ (bounded_new mode intervalUs) events (fun event inside =>
      within_mono small (within event inside))

/-- A whole keyframe in one datagram, sent at 2 ^ 63 microseconds. -/
def farDatagram : Proto.Bytes := [0, 3, 0, 0, 1, 0, 0, 0, 0, 0, 0, 0, 0, 0, 0, 0, 0, 0, 0, 128, 7]

def farFrame : CompleteFrame := ⟨0, 0, 0x8000000000000000, true, [7]⟩

/-- The datagram is accepted and gives the frame, whose push at time 0 overflows; and so does the
audio clock on a packet with that timestamp. -/
theorem far_overflows :
    (Proto.Reassembler.new 500000).returned [.push farDatagram 0] = [farFrame] ∧
    (new .game 33333).runChecked [.jitter (.push farFrame 0)] = none ∧
    (new .game 33333).runChecked [.audioPlayed 0x8000000000000000 0] = none := by
  refine ⟨by decide +kernel, by decide +kernel, by decide +kernel⟩

end Playback

end Castr.Media
