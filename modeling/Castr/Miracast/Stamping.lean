import Castr.Lib.Run
import Castr.Miracast.Muxing
import Castr.Miracast.Source.TsMux
import Mathlib.Algebra.Order.Field.Rat
import Mathlib.Algebra.Order.Group.Abs
import Mathlib.Tactic.Linarith
import Mathlib.Tactic.Push
import Mathlib.Tactic.Ring

/-! The times of the audio frames that the multiplexer sends. It takes them from a running time that
is set again only where nothing is pending. -/

namespace Castr.Miracast.Source.TsMux

open Castr.Lib.Run
open Lpcm (samplesPerFrame)

structure AudioFrame where
  samples : List Int16
  ptsUs : UInt64
  deriving DecidableEq, Repr

namespace Muxer

def emit (m : Muxer) (frame : AudioFrame) : Muxer × List UInt8 :=
  let tables := m.tablesIfDue
  let sent := tables.1.packetize audioPid
    (pesWithStuffing streamIdPrivate1 (Lpcm.frame frame.samples) frame.ptsUs true 2) none
  (sent.1, tables.2 ++ sent.2)

def nextFrame (m : Muxer) (ptsUs : UInt64) : AudioFrame :=
  ⟨m.audioPending.take samplesPerFrame, m.nextAudioPtsUs.getD ptsUs⟩

theorem pushFrame_emit (m : Muxer) (ptsUs : UInt64) :
    m.pushFrame ptsUs = (m.drained (m.nextFrame ptsUs).ptsUs).emit (m.nextFrame ptsUs) := by
  simp only [pushFrame, emit, nextFrame]

def framesFrom (ptsUs : UInt64) : Nat → Muxer → List AudioFrame
  | 0, _ => []
  | fuel + 1, m =>
      if m.audioPending.length < samplesPerFrame then []
      else m.nextFrame ptsUs :: framesFrom ptsUs fuel (m.drained (m.nextFrame ptsUs).ptsUs)

/-- The muxer as the loop of `push_audio` finds it. -/
def begun (m : Muxer) (samples : List Int16) (ptsUs : UInt64) : Muxer :=
  let anchored := if m.audioPending = [] then { m with nextAudioPtsUs := some ptsUs } else m
  { anchored with audioPending := anchored.audioPending ++ samples }

def frames (m : Muxer) : Op → List AudioFrame
  | .audio samples ptsUs =>
      framesFrom ptsUs (m.begun samples ptsUs).audioPending.length (m.begun samples ptsUs)
  | _ => []

structure SameAudio (m other : Muxer) : Prop where
  pending : other.audioPending = m.audioPending
  next : other.nextAudioPtsUs = m.nextAudioPtsUs

section Same

variable {m other : Muxer}

theorem tablesIfDue_same (m : Muxer) : SameAudio m m.tablesIfDue.1 := by
  unfold tablesIfDue
  split <;> exact ⟨rfl, rfl⟩

theorem packetizeFrom_same (pid : UInt16) (pcr90k : Option Nat) (fuel : Nat) (m : Muxer)
    (first : Bool) (rest : List UInt8) :
    SameAudio m (packetizeFrom pid pcr90k fuel m first rest).1 := by
  induction fuel generalizing m first rest with
  | zero => exact ⟨rfl, rfl⟩
  | succ fuel ih =>
      rw [packetizeFrom]
      split
      · exact ⟨rfl, rfl⟩
      · obtain ⟨pending, next⟩ := ih _ false _
        exact ⟨pending, next⟩

theorem SameAudio.trans {last : Muxer} (first : SameAudio m other) (second : SameAudio other last) :
    SameAudio m last :=
  ⟨second.pending.trans first.pending, second.next.trans first.next⟩

theorem packetize_same (m : Muxer) (pid : UInt16) (unit : List UInt8) (pcr90k : Option Nat) :
    SameAudio m (m.packetize pid unit pcr90k).1 :=
  packetizeFrom_same pid pcr90k unit.length m true unit

theorem SameAudio.sent (same : SameAudio m other) (bytes : List UInt8) :
    SameAudio m (other, bytes).1 := same

theorem emit_same (m : Muxer) (frame : AudioFrame) : SameAudio m (m.emit frame).1 :=
  ((tablesIfDue_same m).trans (packetize_same _ _ _ _)).sent _

theorem pushVideo_same (m : Muxer) (au : List UInt8) (ptsUs : UInt64) :
    SameAudio m (m.pushVideo au ptsUs).1 :=
  ((tablesIfDue_same m).trans (packetize_same _ _ _ _)).sent _

theorem framesFrom_same (ptsUs : UInt64) (fuel : Nat) (same : SameAudio m other) :
    framesFrom ptsUs fuel other = framesFrom ptsUs fuel m := by
  induction fuel generalizing m other with
  | zero => rfl
  | succ fuel ih =>
      have frame : other.nextFrame ptsUs = m.nextFrame ptsUs := by
        rw [nextFrame, nextFrame, same.pending, same.next]
      have drained : SameAudio (m.drained (m.nextFrame ptsUs).ptsUs)
          (other.drained (m.nextFrame ptsUs).ptsUs) :=
        ⟨congrArg (List.drop samplesPerFrame) same.pending, rfl⟩
      have later := ih drained
      rw [framesFrom, framesFrom, same.pending, frame, later]

theorem pushFrames_emits (ptsUs : UInt64) (fuel : Nat) (m : Muxer) :
    ∃ parts : List (List UInt8), (pushFrames ptsUs fuel m).2 = parts.flatten ∧
      List.Forall₂ (fun part frame => ∃ before : Muxer, part = (before.emit frame).2) parts
        (framesFrom ptsUs fuel m) := by
  induction fuel generalizing m with
  | zero => exact ⟨[], rfl, .nil⟩
  | succ fuel ih =>
      rw [pushFrames, framesFrom]
      split
      · exact ⟨[], rfl, .nil⟩
      · obtain ⟨parts, sent, each⟩ := ih (m.pushFrame ptsUs).1
        rw [pushFrame_emit, framesFrom_same ptsUs fuel (emit_same _ _)] at each
        exact ⟨(m.pushFrame ptsUs).2 :: parts, by rw [List.flatten_cons, ← sent],
          .cons ⟨_, congrArg Prod.snd (pushFrame_emit m ptsUs)⟩ each⟩

end Same

/-- The time of the frame `k` after one at `start`. -/
def stamp (start : UInt64) (k : Nat) : UInt64 := UInt64.ofNat (start.toNat + 10000 * k)

@[simp] theorem stamp_zero (start : UInt64) : stamp start 0 = start := by simp [stamp]

theorem drained_stamp (m : Muxer) (start : UInt64) (fits : start.toNat + 10000 < 2 ^ 64) :
    (m.drained start).nextAudioPtsUs = some (stamp start 1) := by
  have frame : audioFrameUs.toNat = 10000 := by decide
  rw [drained, stamp, frame, Nat.min_eq_left (by omega)]

theorem stamp_stamp (start : UInt64) (k : Nat) (fits : start.toNat + 10000 < 2 ^ 64) :
    stamp (stamp start 1) k = stamp start (k + 1) := by
  rw [stamp, stamp, stamp, UInt64.toNat_ofNat_of_lt' (by omega)]
  congr 1
  ring

theorem frameLen : samplesPerFrame = 960 := by decide

/-- The loop cuts what is pending into whole frames, ten milliseconds apart. -/
theorem loop_frames (ptsUs : UInt64) (fuel : Nat) (m : Muxer) (start : UInt64)
    (enough : m.audioPending.length ≤ fuel) (set : m.nextAudioPtsUs = some start)
    (fits : start.toNat + 10000 * (m.audioPending.length / 960) < 2 ^ 64) :
    framesFrom ptsUs fuel m = (List.range (m.audioPending.length / 960)).map (fun k =>
        ⟨(m.audioPending.drop (960 * k)).take 960, stamp start k⟩) ∧
      (pushFrames ptsUs fuel m).1.audioPending =
        m.audioPending.drop (960 * (m.audioPending.length / 960)) ∧
      (pushFrames ptsUs fuel m).1.nextAudioPtsUs =
        some (stamp start (m.audioPending.length / 960)) := by
  induction fuel generalizing m start with
  | zero =>
      have none : m.audioPending.length = 0 := by omega
      simp [framesFrom, pushFrames, none, set]
  | succ fuel ih =>
      rw [framesFrom, pushFrames, frameLen]
      by_cases few : m.audioPending.length < 960
      · have short : m.audioPending.length / 960 = 0 := Nat.div_eq_of_lt few
        simp [few, short, set]
      · rw [if_neg few, if_neg few]
        have count : m.audioPending.length / 960 = (m.audioPending.length - 960) / 960 + 1 := by
          omega
        have near : start.toNat + 10000 < 2 ^ 64 := by omega
        have frame : m.nextFrame ptsUs = ⟨m.audioPending.take 960, start⟩ := by
          rw [nextFrame, set, Option.getD_some, frameLen]
        obtain ⟨pending, next⟩ : SameAudio (m.drained start) (m.pushFrame ptsUs).1 := by
          rw [pushFrame_emit, frame]
          exact emit_same _ _
        have dropped : (m.pushFrame ptsUs).1.audioPending = m.audioPending.drop 960 := pending
        have length : (m.pushFrame ptsUs).1.audioPending.length = m.audioPending.length - 960 := by
          rw [dropped, List.length_drop]
        rw [drained_stamp m start near] at next
        have later : (stamp start 1).toNat = start.toNat + 10000 :=
          UInt64.toNat_ofNat_of_lt' (by omega)
        obtain ⟨frames, left, time⟩ := ih (m.pushFrame ptsUs).1 (stamp start 1) (by omega) next
          (by rw [later, length]; omega)
        rw [framesFrom_same ptsUs fuel ⟨pending, next.trans (drained_stamp m start near).symm⟩,
          length, dropped] at frames
        rw [frame, frames, count]
        refine ⟨?_, ?_, ?_⟩
        · have each : ∀ k, 960 + 960 * k = 960 * k.succ := fun k => by omega
          simp only [List.range_succ_eq_map, List.map_cons, List.map_map, Nat.mul_zero,
            List.drop_zero, stamp_zero, Function.comp_def, List.drop_drop,
            stamp_stamp start _ near, each]
        · have all : 960 + 960 * ((m.audioPending.length - 960) / 960) =
              960 * ((m.audioPending.length - 960) / 960 + 1) := by omega
          rw [left, dropped, List.drop_drop, List.length_drop, all]
        · rw [time, length, stamp_stamp start _ near]

def running (m : Muxer) (ptsUs : UInt64) : UInt64 :=
  if m.audioPending = [] then ptsUs else m.nextAudioPtsUs.getD ptsUs

/-- The running time stays below 2 ^ 64 microseconds. -/
def Unsaturated (m : Muxer) : Op → Prop
  | .audio samples ptsUs => (m.running ptsUs).toNat +
      10000 * ((m.audioPending.length + samples.length) / 960) < 2 ^ 64
  | _ => True

def Timed (m : Muxer) : Prop := m.audioPending ≠ [] → m.nextAudioPtsUs.isSome

theorem begun_running (m : Muxer) (timed : m.Timed) (samples : List Int16) (ptsUs : UInt64) :
    (m.begun samples ptsUs).audioPending = m.audioPending ++ samples ∧
      (m.begun samples ptsUs).nextAudioPtsUs = some (m.running ptsUs) := by
  unfold begun running
  split
  · exact ⟨rfl, rfl⟩
  · rename_i more
    obtain ⟨next, set⟩ := Option.isSome_iff_exists.mp (timed more)
    exact ⟨rfl, by simp [set]⟩

theorem push_frames (m : Muxer) (timed : m.Timed) (samples : List Int16) (ptsUs : UInt64)
    (fits : m.Unsaturated (.audio samples ptsUs)) :
    m.frames (.audio samples ptsUs) =
        (List.range ((m.audioPending ++ samples).length / 960)).map (fun k =>
          ⟨((m.audioPending ++ samples).drop (960 * k)).take 960, stamp (m.running ptsUs) k⟩) ∧
      (m.pushAudio samples ptsUs).1.audioPending = (m.audioPending ++ samples).drop
        (960 * ((m.audioPending ++ samples).length / 960)) ∧
      (m.pushAudio samples ptsUs).1.nextAudioPtsUs =
        some (stamp (m.running ptsUs) ((m.audioPending ++ samples).length / 960)) := by
  obtain ⟨pending, next⟩ := begun_running m timed samples ptsUs
  have loop := loop_frames ptsUs (m.begun samples ptsUs).audioPending.length
    (m.begun samples ptsUs) (m.running ptsUs) le_rfl next (by
      rw [pending, List.length_append]
      exact fits)
  rw [pending] at loop
  have pushed : m.pushAudio samples ptsUs =
      pushFrames ptsUs (m.audioPending ++ samples).length (m.begun samples ptsUs) := by
    rw [← pending]
    rfl
  rw [frames, pushed, pending]
  exact loop

def audioStep (m : Muxer) (op : Op) : Muxer × List AudioFrame := ((m.step op).1, m.frames op)

def sent (ops : List Op) : List AudioFrame := (outputs audioStep .new ops).flatten

theorem final_audioStep (m : Muxer) (ops : List Op) : final audioStep m ops = final step m ops := by
  induction ops generalizing m with
  | nil => rfl
  | cons op ops ih => exact ih (m.step op).1

theorem sent_snoc (ops : List Op) (op : Op) :
    sent (ops ++ [op]) = sent ops ++ (final step .new ops).frames op := by
  rw [sent, outputs_snoc, List.flatten_append, List.flatten_singleton, final_audioStep]
  rfl

def audioBytes (m : Muxer) : Op → List UInt8
  | .audio samples ptsUs => (m.pushAudio samples ptsUs).2
  | _ => []

theorem sent_emitted (ops : List Op) :
    ∃ parts : List (List UInt8),
      (outputs (fun m op => ((m.step op).1, audioBytes m op)) .new ops).flatten = parts.flatten ∧
        List.Forall₂ (fun part frame => ∃ before : Muxer, part = (before.emit frame).2) parts
          (sent ops) := by
  have each (m : Muxer) (op : Op) : ∃ parts : List (List UInt8), audioBytes m op = parts.flatten ∧
      List.Forall₂ (fun part frame => ∃ before : Muxer, part = (before.emit frame).2) parts
        (m.frames op) := by
    cases op with
    | audio samples ptsUs => exact pushFrames_emits ptsUs _ (m.begun samples ptsUs)
    | _ => exact ⟨[], rfl, .nil⟩
  unfold sent
  generalize Muxer.new = m
  induction ops generalizing m with
  | nil => exact ⟨[], rfl, .nil⟩
  | cons op ops ih =>
      obtain ⟨here, bytes, now⟩ := each m op
      obtain ⟨later, rest, then_⟩ := ih (m.step op).1
      refine ⟨here ++ later, ?_, ?_⟩
      · rw [outputs_cons, List.flatten_cons, List.flatten_append, bytes, rest]
      · rw [outputs_cons, List.flatten_cons]
        exact List.rel_append now then_

/-- When a push captured one of its samples: 48 of each channel in a millisecond. -/
def captureUs (ptsUs : UInt64) (offset : Nat) : ℚ := ptsUs.toNat + (offset / 2 : Nat) * (125 / 6)

def Near (ptsUs : UInt64) (time : ℚ) : Prop := |(ptsUs.toNat : ℚ) - time| ≤ 10000

def pendingUs (m : Muxer) : ℚ := ((m.audioPending.length + 1) / 2 : Nat) * (125 / 6)

/-- A push with nothing pending, or where the running time and what is pending lead up to it. -/
def OnTime (m : Muxer) (ptsUs : UInt64) : Prop :=
  m.audioPending = [] ∨ |(m.running ptsUs).toNat + m.pendingUs - ptsUs.toNat| ≤ 10000

/-- The push that brought the first sample of frame `j`: the frame's time is near that sample's
exactly when this push was on time. -/
def Origin (ops : List Op) (j : Nat) (stampUs : UInt64) : Prop :=
  ∃ before samples ptsUs after offset, ops = before ++ .audio samples ptsUs :: after ∧
    offset < samples.length ∧ 960 * j = (before.flatMap Op.samples).length + offset ∧
    (Near stampUs (captureUs ptsUs offset) ↔ (final step .new before).OnTime ptsUs)

theorem Origin.later {ops : List Op} {j : Nat} {stampUs : UInt64} (origin : Origin ops j stampUs)
    (more : List Op) : Origin (ops ++ more) j stampUs := by
  obtain ⟨before, samples, ptsUs, after, offset, rfl, inside, place, near⟩ := origin
  exact ⟨before, samples, ptsUs, after ++ more, offset, by simp, inside, place, near⟩

theorem stamp_toNat (start : UInt64) (k : Nat) (fits : start.toNat + 10000 * k < 2 ^ 64) :
    (stamp start k).toNat = start.toNat + 10000 * k := UInt64.toNat_ofNat_of_lt' fits

theorem near_iff (m : Muxer) (ptsUs : UInt64) (k offset : Nat)
    (fits : (m.running ptsUs).toNat + 10000 * k < 2 ^ 64)
    (place : m.audioPending.length + offset = 960 * k) :
    Near (stamp (m.running ptsUs) k) (captureUs ptsUs offset) ↔ m.OnTime ptsUs := by
  have halves : offset / 2 + (m.audioPending.length + 1) / 2 = 480 * k := by omega
  have time : ((offset / 2 : Nat) : ℚ) + ((m.audioPending.length + 1) / 2 : Nat) = 480 * k := by
    exact_mod_cast halves
  have late : ((stamp (m.running ptsUs) k).toNat : ℚ) - captureUs ptsUs offset =
      (m.running ptsUs).toNat + m.pendingUs - ptsUs.toNat := by
    rw [stamp_toNat _ _ fits, captureUs, pendingUs]
    push_cast
    linarith
  rw [Near, late, OnTime]
  constructor
  · exact Or.inr
  · rintro (empty | close)
    · simp [running, pendingUs, empty]
    · exact close

structure Position (ops : List Op) : Prop where
  whole : 960 * (sent ops).length ≤ (ops.flatMap Op.samples).length
  pending : (final step .new ops).audioPending =
    (ops.flatMap Op.samples).drop (960 * (sent ops).length)
  short : (final step .new ops).audioPending.length < 960
  frames : ∀ j frame, (sent ops)[j]? = some frame →
    frame.samples = ((ops.flatMap Op.samples).drop (960 * j)).take 960 ∧ Origin ops j frame.ptsUs
  next : (final step .new ops).audioPending ≠ [] → ∃ stampUs,
    (final step .new ops).nextAudioPtsUs = some stampUs ∧ Origin ops (sent ops).length stampUs

theorem Position.timed {ops : List Op} (position : Position ops) : (final step .new ops).Timed :=
  fun more => by
    obtain ⟨stampUs, set, _⟩ := position.next more
    rw [set]
    rfl

theorem position_quiet {ops : List Op} (position : Position ops) (op : Op)
    (silent : op.samples = [])
    (none : (final step .new ops).frames op = [])
    (same : SameAudio (final step .new ops) ((final step .new ops).step op).1) :
    Position (ops ++ [op]) := by
  have stream : (ops ++ [op]).flatMap Op.samples = ops.flatMap Op.samples := by
    simp [silent]
  have frames : sent (ops ++ [op]) = sent ops := by rw [sent_snoc, none, List.append_nil]
  refine ⟨?_, ?_, ?_, ?_, ?_⟩
  · rw [stream, frames]
    exact position.whole
  · rw [stream, frames, final_snoc, same.pending]
    exact position.pending
  · rw [final_snoc, same.pending]
    exact position.short
  · intro j frame place
    rw [frames] at place
    rw [stream]
    obtain ⟨samples, origin⟩ := position.frames j frame place
    exact ⟨samples, origin.later [op]⟩
  · rw [final_snoc, same.pending, same.next, frames]
    intro more
    obtain ⟨stampUs, set, origin⟩ := position.next more
    exact ⟨stampUs, set, origin.later [op]⟩

theorem origin_push {ops : List Op} (position : Position ops) (samples : List Int16)
    (ptsUs : UInt64) (fits : (final step .new ops).Unsaturated (.audio samples ptsUs)) (k : Nat)
    (inside : 960 * k < (final step .new ops).audioPending.length + samples.length) :
    Origin (ops ++ [.audio samples ptsUs]) ((sent ops).length + k)
      (stamp ((final step .new ops).running ptsUs) k) := by
  have short := position.short
  have whole := position.whole
  have length := congrArg List.length position.pending
  rw [List.length_drop] at length
  by_cases held : k = 0 ∧ (final step .new ops).audioPending ≠ []
  · obtain ⟨rfl, more⟩ := held
    obtain ⟨stampUs, set, origin⟩ := position.next more
    have same : (final step .new ops).running ptsUs = stampUs := by
      rw [running, if_neg more, set, Option.getD_some]
    rw [same, stamp_zero]
    exact origin.later _
  · have early : (final step .new ops).audioPending.length ≤ 960 * k := by
      by_cases zero : k = 0
      · have none : (final step .new ops).audioPending = [] :=
          Decidable.not_not.mp (fun more => held ⟨zero, more⟩)
        simp [none]
      · omega
    have low : (((final step .new ops).running ptsUs).toNat + 10000 * k) < 2 ^ 64 := by
      have sum := fits
      simp only [Unsaturated] at sum
      omega
    refine ⟨ops, samples, ptsUs, [], 960 * k - (final step .new ops).audioPending.length, rfl,
      by omega, by omega, near_iff _ ptsUs k _ low (by omega)⟩

theorem position_audio {ops : List Op} (position : Position ops) (samples : List Int16)
    (ptsUs : UInt64) (fits : (final step .new ops).Unsaturated (.audio samples ptsUs)) :
    Position (ops ++ [.audio samples ptsUs]) := by
  obtain ⟨sends, left, time⟩ := push_frames _ position.timed samples ptsUs fits
  have origin := origin_push position samples ptsUs fits
  have whole := position.whole
  have length := congrArg List.length position.pending
  rw [List.length_drop] at length
  have stream : (ops ++ [Op.audio samples ptsUs]).flatMap Op.samples =
      ops.flatMap Op.samples ++ samples := by simp [Op.samples]
  have all : (final step .new ops).audioPending ++ samples =
      (ops.flatMap Op.samples ++ samples).drop (960 * (sent ops).length) := by
    rw [List.drop_append_of_le_length whole, ← position.pending]
  have total : ((final step .new ops).audioPending ++ samples).length =
      (final step .new ops).audioPending.length + samples.length := List.length_append
  have count : (sent (ops ++ [.audio samples ptsUs])).length = (sent ops).length +
      ((final step .new ops).audioPending ++ samples).length / 960 := by
    rw [sent_snoc, List.length_append, sends, List.length_map, List.length_range]
  have pending : (final step .new (ops ++ [.audio samples ptsUs])).audioPending =
      ((final step .new ops).audioPending ++ samples).drop
        (960 * (((final step .new ops).audioPending ++ samples).length / 960)) := by
    rw [final_snoc]
    exact left
  refine ⟨?_, ?_, ?_, ?_, ?_⟩
  · rw [stream, count, total, List.length_append]
    omega
  · rw [pending, all, List.drop_drop, stream, count, ← all, Nat.mul_add]
  · rw [pending, List.length_drop]
    omega
  · intro j frame place
    rw [sent_snoc] at place
    by_cases old : j < (sent ops).length
    · rw [List.getElem?_append_left old] at place
      obtain ⟨same, origin⟩ := position.frames j frame place
      refine ⟨?_, origin.later _⟩
      rw [same, stream, List.drop_append_of_le_length (by omega),
        List.take_append_of_le_length (by rw [List.length_drop]; omega)]
    · obtain ⟨k, rfl⟩ := Nat.exists_eq_add_of_le (Nat.not_lt.mp old)
      rw [List.getElem?_append_right (Nat.le_add_right _ _), Nat.add_sub_cancel_left, sends,
        List.getElem?_map, Option.map_eq_some_iff] at place
      obtain ⟨other, here, rfl⟩ := place
      obtain ⟨inside, rfl⟩ := List.getElem?_eq_some_iff.mp here
      rw [List.length_range] at inside
      rw [List.getElem_range]
      refine ⟨?_, origin k (by omega)⟩
      rw [all, List.drop_drop, stream, Nat.mul_add]
  · intro more
    refine ⟨_, by rw [final_snoc]; exact time, ?_⟩
    rw [count]
    refine origin _ ?_
    rw [pending] at more
    have some := List.length_pos_iff.mpr more
    rw [List.length_drop] at some
    omega

theorem position (ops : List Op) (fits : ∀ front op back, ops = front ++ op :: back →
    (final step .new front).Unsaturated op) : Position ops := by
  induction ops using List.reverseRecOn with
  | nil => exact ⟨le_rfl, rfl, by decide, by simp [sent], by simp [new]⟩
  | append_singleton ops op ih =>
      have before := ih (fun front next back split =>
        fits front next (back ++ [op]) (by simp [split]))
      cases op with
      | audio samples ptsUs => exact position_audio before samples ptsUs (fits ops _ [] rfl)
      | video au ptsUs => exact position_quiet before _ rfl rfl (pushVideo_same _ au ptsUs)
      | format profile level => exact position_quiet before _ rfl rfl ⟨rfl, rfl⟩

/-- Every audio frame sent carries the samples from its place in what was pushed, and its time is
within 10 ms of its first sample's exactly when the push that brought this sample was on time. -/
theorem frame_near_iff (ops : List Op) (fits : ∀ front op back, ops = front ++ op :: back →
    (final step .new front).Unsaturated op) (j : Nat) (frame : AudioFrame)
    (place : (sent ops)[j]? = some frame) :
    frame.samples = ((ops.flatMap Op.samples).drop (960 * j)).take 960 ∧
      ∃ before samples ptsUs after offset, ops = before ++ .audio samples ptsUs :: after ∧
        offset < samples.length ∧ 960 * j = (before.flatMap Op.samples).length + offset ∧
        (Near frame.ptsUs (captureUs ptsUs offset) ↔ (final step .new before).OnTime ptsUs) :=
  (position ops fits).frames j frame place

def silence (count : Nat) : List Int16 := List.replicate count 0

/-- Five milliseconds of samples, a second's pause, and fifteen more. -/
def paused : List Op := [.audio (silence 480) 0, .audio (silence 1440) 1000000]

theorem paused_frames : sent paused = [⟨silence 960, 0⟩, ⟨silence 960, 10000⟩] := by
  decide +kernel

theorem frame_near_paused : ∃ before samples ptsUs after offset,
    paused = before ++ .audio samples ptsUs :: after ∧ offset < samples.length ∧
      960 * 1 = (before.flatMap Op.samples).length + offset ∧
      (Near 10000 (captureUs ptsUs offset) ↔ (final step .new before).OnTime ptsUs) := by
  refine (frame_near_iff paused ?_ 1 ⟨silence 960, 10000⟩ (by rw [paused_frames]; rfl)).2
  intro front op back split
  rcases front with _ | ⟨first, _ | ⟨second, rest⟩⟩
  · cases split
    show _ < _
    decide +kernel
  · cases split
    show _ < _
    decide +kernel
  · simp [paused] at split

/-- The second frame begins with sample 480 of the second push, captured at 1005000, and says
10000. -/
theorem paused_late :
    ((sent paused)[1]?).map AudioFrame.ptsUs = some 10000 ∧
    960 * 1 = ([Op.audio (silence 480) 0].flatMap Op.samples).length + 480 ∧
    ¬ Near 10000 (captureUs 1000000 480) := by
  refine ⟨by rw [paused_frames]; rfl, by decide +kernel, ?_⟩
  show ¬ |((10000 : Nat) : ℚ) - ((1000000 : Nat) + (240 : Nat) * (125 / 6))| ≤ 10000
  norm_num [abs_of_nonpos]

end Muxer

end Castr.Miracast.Source.TsMux
