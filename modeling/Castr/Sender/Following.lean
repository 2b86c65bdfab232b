import Castr.Lib.Halting
import Castr.Media.Range
import Castr.Sender.Cast

/-! The encoder's thread and the receiver follow the bitrate controller. -/

namespace Castr.Sender

open Castr.Lib
open Castr.Lib.Checked
open Castr.Media (BitrateController Decision Resolution minBitrate)
open Castr.Proto (Capabilities ControlMessage Mode Stats StreamParams)

theorem onStats_current {c next : BitrateController} {stats : Stats} {nowUs : UInt64}
    {decision : Option Decision} (taken : c.onStats stats nowUs = some (next, decision)) :
    next.current = if decision.isSome then decision else c.current := by
  unfold BitrateController.onStats at taken
  obtain ⟨before, shown, taken⟩ := Option.bind_eq_some_iff.mp taken
  obtain ⟨total, _, taken⟩ := Option.bind_eq_some_iff.mp taken
  obtain ⟨last, _, taken⟩ := Option.bind_eq_some_iff.mp taken
  obtain ⟨after, seen, taken⟩ := Option.bind_eq_some_iff.mp taken
  by_cases changed : after ≠ before
  · rw [if_pos changed] at taken
    cases taken
    exact seen
  · rw [if_neg changed] at taken
    cases taken
    rw [seen, shown, Decidable.not_not.mp changed]
    rfl

/-- The decision that a stream's parameters stand for. -/
def decisionOf (params : StreamParams) : Decision :=
  ⟨params.bitrateBps, ⟨params.width, params.height⟩⟩

def EncoderConfig.decision (cfg : EncoderConfig) : Decision :=
  ⟨cfg.bitrateBps, ⟨cfg.width, cfg.height⟩⟩

namespace Casting

variable {s next : Casting} {sent : Sent}

/-- The loop's own parameters are the encoder's, and of the size that the receiver knows. -/
structure Told (s : Casting) : Prop where
  encoder : s.encoder.decision = decisionOf s.cast.params
  stream : (decisionOf s.stream).resolution = (decisionOf s.cast.params).resolution

def Follows (s : Casting) : Prop := s.cast.ctl.current = some (decisionOf s.cast.params)

/-- The event is no switch to Quality that brings the resolution back up. -/
def Level (s : Casting) : Event → Prop
  | .setMode .quality _ => s.cast.ctl.rung = 0
  | _ => True

/-- Every `StartStream` that was sent carries the current decision whole. -/
def Announces (s : Casting) (sent : Sent) : Prop :=
  ∀ params, ControlMessage.startStream params ∈ sent.controls →
    s.cast.ctl.current = some (decisionOf params)

theorem told_rate (cfg : EncoderConfig) (params : StreamParams) (bitrateBps : UInt32)
    (same : cfg.decision = decisionOf params) :
    ((if bitrateBps ≠ params.bitrateBps then [EncCmd.bitrate bitrateBps] else []).foldl
      EncoderConfig.told cfg).decision = ⟨bitrateBps, (decisionOf params).resolution⟩ := by
  split
  · exact congrArg (fun d : Decision => Decision.mk bitrateBps d.resolution) same
  · rename_i unchanged
    rw [Decidable.not_not.mp unchanged]
    exact same

theorem onStats_told {cast : Cast} {stats : Stats} {nowUs : UInt64} {arrived : Bool}
    (taken : s.cast.onStats stats nowUs arrived = some (cast, sent)) (told : s.Told) :
    (s.hear cast sent).Told ∧
      (s.Follows → (s.hear cast sent).Follows ∧ (s.hear cast sent).Announces sent) := by
  unfold Cast.onStats at taken
  obtain ⟨_, _, taken⟩ := Option.bind_eq_some_iff.mp taken
  obtain ⟨⟨ctl, decision⟩, called, taken⟩ := Option.bind_eq_some_iff.mp taken
  have current := onStats_current called
  cases decision with
  | none =>
      cases taken
      refine ⟨⟨told.encoder, told.stream⟩, fun follows => ⟨current.trans follows, ?_⟩⟩
      simp [Announces, Sent.nothing]
  | some decision =>
      obtain ⟨bitrateBps, width, height⟩ := decision
      have rate := told_rate s.encoder s.cast.params bitrateBps told.encoder
      dsimp only at taken
      split at taken
      · split at taken
        · cases taken
          refine ⟨⟨?_, rfl⟩, fun _ => ⟨current, ?_⟩⟩
          · rw [hear, List.foldl_append]
            exact congrArg (fun d : Decision => Decision.mk d.bitrateBps ⟨width, height⟩) rate
          · intro params inside
            cases List.mem_singleton.mp inside
            exact current
        · cases taken
      · rename_i unchanged
        cases taken
        obtain ⟨rfl, rfl⟩ := Prod.mk.inj (Decidable.not_not.mp unchanged)
        exact ⟨⟨rate, told.stream⟩, fun _ => ⟨current, by simp [Announces]⟩⟩

theorem setMode_current {c : BitrateController} (mode : Mode)
    (level : mode = .quality → c.rung = 0) : (c.setMode mode).current = c.current := by
  cases mode with
  | game => rfl
  | quality => simp [BitrateController.current, BitrateController.setMode, level rfl]

theorem step_told (event : Event) (taken : s.step event = some (next, sent)) (told : s.Told) :
    next.Told ∧ (s.Follows → s.Level event → next.Follows ∧ next.Announces sent) := by
  obtain ⟨⟨cast, out⟩, turned, same⟩ := Option.map_eq_some_iff.mp taken
  cases same
  cases event with
  | stats stats nowUs arrived =>
      obtain ⟨kept, followed⟩ := onStats_told turned told
      exact ⟨kept, fun follows _ => followed follows⟩
  | setMode mode arrived =>
      simp only [Cast.step, Cast.setMode] at turned
      split at turned
      · cases turned
        refine ⟨⟨told.encoder, told.stream⟩, fun follows level => ⟨?_, by simp [Announces]⟩⟩
        refine (setMode_current mode ?_).trans follows
        rintro rfl
        exact level
      · cases turned
  | requestKeyframe =>
      cases turned
      exact ⟨⟨told.encoder, told.stream⟩, fun follows _ => ⟨follows, by simp [Announces]⟩⟩
  | reconnected arrived =>
      simp only [Cast.step] at turned
      split at turned
      · cases turned
        refine ⟨⟨told.encoder, rfl⟩, fun follows _ => ⟨follows, ?_⟩⟩
        intro params inside
        cases List.mem_singleton.mp inside
        exact follows
      · cases turned
  | other =>
      cases turned
      refine ⟨⟨told.encoder, told.stream⟩, fun follows _ => ⟨follows, ?_⟩⟩
      simp [Announces, Sent.nothing]
  | ended => cases turned

section Run

variable {native size : Resolution} {fps : UInt32} {maxBitrate : Option UInt32} {mode : Mode}
  {caps : Capabilities} {first last : Casting}

theorem start_told (started : start native size fps maxBitrate mode caps = some first) :
    first.Told ∧ (minBitrate ≤ Cast.ceiling maxBitrate caps / 2 → first.Follows) := by
  obtain ⟨ctl, made, same⟩ := Option.bind_eq_some_iff.mp started
  cases same
  refine ⟨⟨?_, rfl⟩, fun floor => ?_⟩
  · dsimp only
    rw [List.foldl_append]
    split
    · rfl
    · rename_i unchanged
      obtain ⟨width, height⟩ := Prod.mk.inj (Decidable.not_not.mp unchanged)
      simp [EncoderConfig.told, EncoderConfig.decision, decisionOf, width, height]
  · refine BitrateController.new_current made floor ?_
    rw [UInt32.le_iff_toNat_le]
    exact Nat.div_le_self _ _

theorem run_told (started : start native size fps maxBitrate mode caps = some first)
    (floor : minBitrate ≤ Cast.ceiling maxBitrate caps / 2) (events : List Event)
    (level : ∀ front event back, events = front ++ event :: back →
      ∀ s, Halting.final step first front = some s → s.Level event)
    (ended : Halting.final step first events = some last) : last.Told ∧ last.Follows := by
  have initial := start_told started
  induction events using List.reverseRecOn generalizing last with
  | nil =>
      cases ended
      exact ⟨initial.1, initial.2 floor⟩
  | append_singleton front event ih =>
      obtain ⟨middle, sent, reached, taken⟩ := Halting.final_snoc_eq step ended
      obtain ⟨told, follows⟩ := ih (fun before next back split =>
        level before next (back ++ [event]) (by simp [split])) reached
      have kept := step_told event taken told
      exact ⟨kept.1, (kept.2 follows (level front event [] rfl middle reached)).1⟩

/-- With half the ceiling no lower than the floor, and switched to Quality only at the native
resolution: after every event the encoder is at the current decision and the receiver at its
resolution, and each `StartStream` is the decision current when it was sent. -/
theorem encoder_follows (started : start native size fps maxBitrate mode caps = some first)
    (floor : minBitrate ≤ Cast.ceiling maxBitrate caps / 2) (events : List Event)
    (level : ∀ front event back, events = front ++ event :: back →
      ∀ s, Halting.final step first front = some s → s.Level event)
    (ended : Halting.final step first events = some last) :
    last.cast.ctl.current = some last.encoder.decision ∧
      (decisionOf last.stream).resolution = last.encoder.decision.resolution ∧
      ∀ front event, events = front ++ [event] → ∀ s sent, Halting.final step first front = some s →
        s.step event = some (last, sent) → last.Announces sent := by
  obtain ⟨told, follows⟩ := run_told started floor events level ended
  refine ⟨?_, ?_, ?_⟩
  · rw [told.encoder]
    exact follows
  · rw [told.encoder]
    exact told.stream
  · intro front event split s sent reached taken
    obtain ⟨before, still⟩ := run_told started floor front (fun earlier next back inside =>
      level earlier next (back ++ [event]) (by simp [split, inside])) reached
    exact ((step_told event taken before).2 still (level front event [] split s reached)).2

end Run

def tenMegabits : Capabilities := ⟨1920, 1080, 60, 10000000, [.h264], true⟩

def steadyStart : Casting := (start .hd .hd 60 none .game tenMegabits).get (by decide +kernel)

/-- A switch to Quality at the native resolution, and a report of loss. -/
def steady : List Event := [.setMode .quality true, .stats ⟨3, 0, 3, 97, 0, 100⟩ 0 true]

theorem encoder_follows_steady :
    ∃ last, Halting.final step steadyStart steady = some last ∧
      last.cast.ctl.current = some last.encoder.decision := by
  have ends : (Halting.final step steadyStart steady).isSome := by decide +kernel
  obtain ⟨last, ended⟩ := Option.isSome_iff_exists.mp ends
  refine ⟨last, ended, (encoder_follows (Option.some_get _).symm (by decide +kernel) steady ?_
    ended).1⟩
  intro front event back split s reached
  rcases front with _ | ⟨head, _ | ⟨next, rest⟩⟩
  · cases split
    cases reached
    exact show steadyStart.cast.ctl.rung = 0 by decide +kernel
  · cases split
    trivial
  · simp [steady] at split

/-- Reports of a deep decode queue and no loss for a second, and then a switch to Quality. -/
def overloaded : List Event :=
  (List.range 11).map (fun i => .stats ⟨3, 0, 0, 100, 5, 100⟩ (UInt64.ofNat (i * 100000)) true) ++
    [.setMode .quality true]

/-- The decisions current, with the encoder, and with the receiver, at the end of a run. -/
def seen (maxBitrate : Option UInt32) (events : List Event) :
    Option (Option Decision × Decision × Decision) :=
  ((start .hd .hd 60 maxBitrate .game tenMegabits).bind (fun first =>
    Halting.final step first events)).map
      (fun s => (s.cast.ctl.current, s.encoder.decision, decisionOf s.stream))

/-- A report of loss changes the bitrate, and the receiver is not told; a switch to Quality changes
the resolution, and neither is; and below twice the floor the loop starts with half the ceiling, the
controller with the floor. -/
theorem encoder_left :
    seen none [.stats ⟨3, 0, 3, 97, 0, 100⟩ 0 true] =
      some (some ⟨3500000, .hd⟩, ⟨3500000, .hd⟩, ⟨5000000, .hd⟩) ∧
    seen none overloaded =
      some (some ⟨3070625, .hd⟩, ⟨3070625, ⟨1280, 720⟩⟩, ⟨3070625, ⟨1280, 720⟩⟩) ∧
    seen (some 1500000) [.stats ⟨3, 0, 0, 100, 0, 100⟩ 0 true] =
      some (some ⟨1000000, .hd⟩, ⟨750000, .hd⟩, ⟨750000, .hd⟩) := by
  decide +kernel

end Casting

end Castr.Sender
