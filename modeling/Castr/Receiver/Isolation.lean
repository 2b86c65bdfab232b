import Castr.Receiver.Greeting

/-! What a castr connection that never gets the display does to the Miracast session that
holds it. -/

namespace Castr.Receiver.Network

open Castr.Lib.Run
open Castr.Media (JitterBuffer)
open Castr.Proto

/-- What happens whether or not a castr sender connects. -/
def Event.world : Event → Bool
  | .miracast _ _ | .miracastAcquires | .miracastReleases | .pop _ | .decodeError => true
  | _ => false

/-- What the connection loop leaves alone while the display is not its own. -/
structure Untouched (r after : Network) : Prop where
  jitter : after.jitter = r.jitter
  accessUnits : after.accessUnits = r.accessUnits
  owner : after.owner = r.owner
  name : after.name = r.name
  quiet : after.phase.isStreaming = false

/-- The receiver with a castr connection, beside the same receiver without one. -/
structure Beside (r alone : Network) : Prop where
  jitter : r.jitter = alone.jitter
  accessUnits : r.accessUnits = alone.accessUnits
  held : r.owner = .miracast
  heldAlone : alone.owner = .miracast
  name : r.name = alone.name
  quiet : r.phase.isStreaming = false

theorem greet_untouched (r : Network) (peer : Fingerprint) (message : ControlMessage)
    (nowUs : UInt64) (failAt : Option Nat) (held : r.owner = .miracast)
    (quiet : r.phase.isStreaming = false) : Untouched r (r.greet peer message nowUs failAt).1 := by
  have refused : r.owner.tryAcquire .castr = (false, r.owner) :=
    Owner.acquire_refused _ _ (by simp [held]) (by simp [held])
  unfold greet
  generalize r.session.onMessage message nowUs = answered
  obtain ⟨session, actions⟩ := answered
  dsimp only
  split
  · exact ⟨rfl, rfl, rfl, rfl, rfl⟩
  · rw [refused]
    split
    · exact ⟨rfl, rfl, rfl, rfl, rfl⟩
    · exact ⟨rfl, rfl, rfl, rfl, quiet⟩

theorem refuseUnpaired_untouched (r : Network) (peer : Fingerprint) (nowUs : UInt64)
    (pin : String) (failAt : Option Nat) :
    Untouched r (r.refuseUnpaired peer nowUs pin failAt).1 := by
  unfold refuseUnpaired
  split
  · exact ⟨rfl, rfl, rfl, rfl, rfl⟩
  · split <;> exact ⟨rfl, rfl, rfl, rfl, rfl⟩

theorem handle_untouched (r : Network) (message : ControlMessage) (nowUs : UInt64)
    (pin : String) (failAt : Option Nat) (held : r.owner = .miracast)
    (quiet : r.phase.isStreaming = false) : Untouched r (r.handle message nowUs pin failAt).1 := by
  have same : Untouched r r := ⟨rfl, rfl, rfl, rfl, quiet⟩
  unfold handle
  split
  · split
    · split
      · exact greet_untouched r _ _ nowUs failAt held quiet
      · exact refuseUnpaired_untouched r _ nowUs pin failAt
    · exact same
  · rename_i streaming
    rw [streaming] at quiet
    cases quiet
  · exact same

theorem step_untouched (r : Network) (event : Event) (castr : event.world = false)
    (open_ : ∀ nowUs, event ≠ .cleanUp nowUs) (held : r.owner = .miracast)
    (quiet : r.phase.isStreaming = false) : Untouched r (r.step event).1 := by
  have same : Untouched r r := ⟨rfl, rfl, rfl, rfl, quiet⟩
  cases event with
  | connect peer token =>
      simp only [step]
      split
      · exact ⟨rfl, rfl, rfl, rfl, rfl⟩
      · exact same
  | message message nowUs pin failAt => exact handle_untouched r message nowUs pin failAt held quiet
  | pairingDone ok saved nowUs =>
      simp only [step]
      split
      · cases ok with
        | true => cases saved <;> exact ⟨rfl, rfl, rfl, rfl, rfl⟩
        | false => exact ⟨rfl, rfl, rfl, rfl, rfl⟩
      · exact same
  | video frame nowUs =>
      simp only [step]
      split
      · rename_i streaming
        rw [streaming] at quiet
        cases quiet
      · exact same
  | lost =>
      simp only [step]
      split
      · exact ⟨rfl, rfl, rfl, rfl, rfl⟩
      · exact ⟨rfl, rfl, rfl, rfl, rfl⟩
      · exact same
  | cleanUp nowUs => exact absurd rfl (open_ nowUs)
  | miracast out nowUs => cases castr
  | miracastAcquires => cases castr
  | miracastReleases => cases castr
  | pop nowUs => cases castr
  | decodeError => cases castr

theorem Beside.aside {r alone : Network} (beside : Beside r alone) (event : Event)
    (castr : event.world = false) (open_ : ∀ nowUs, event ≠ .cleanUp nowUs) :
    Beside (r.step event).1 alone := by
  have same := step_untouched r event castr open_ beside.held beside.quiet
  exact {
    jitter := same.jitter.trans beside.jitter
    accessUnits := same.accessUnits.trans beside.accessUnits
    held := same.owner.trans beside.held
    heldAlone := beside.heldAlone
    name := same.name.trans beside.name
    quiet := same.quiet }

theorem Beside.sink {r alone : Network} (beside : Beside r alone) (out : SinkOut)
    (nowUs : UInt64) : Beside (r.sink out nowUs) (alone.sink out nowUs) := by
  obtain ⟨jitter, accessUnits, held, heldAlone, name, quiet⟩ := beside
  cases out with
  | video data ptsUs =>
      exact ⟨by simp [Network.sink, jitter, accessUnits], by simp [Network.sink, accessUnits],
        held, heldAlone, name, quiet⟩
  | ended reason =>
      exact ⟨by simp [Network.sink, jitter], accessUnits, held, heldAlone, name, quiet⟩
  | _ => exact ⟨jitter, accessUnits, held, heldAlone, name, quiet⟩

theorem Beside.together {r alone : Network} (beside : Beside r alone) (event : Event)
    (world : event.world = true) (keeps : event ≠ .miracastReleases) :
    Beside (r.step event).1 (alone.step event).1 := by
  cases event with
  | miracast out nowUs => exact beside.sink out nowUs
  | miracastAcquires =>
      exact { beside with
        held := by simp [step, Owner.tryAcquire, beside.held]
        heldAlone := by simp [step, Owner.tryAcquire, beside.heldAlone] }
  | miracastReleases => exact absurd rfl keeps
  | pop nowUs => exact { beside with jitter := by simp [step, beside.jitter] }
  | decodeError => exact { beside with jitter := by simp [step, beside.jitter] }
  | _ => cases world

theorem beside_run (start : Network) (during : List Event) (held : start.owner = .miracast)
    (quiet : start.phase.isStreaming = false) (keeps : .miracastReleases ∉ during)
    (open_ : ∀ nowUs, .cleanUp nowUs ∉ during) :
    Beside (final step start during) (final step start (during.filter Event.world)) := by
  apply final_filter step start Event.world Beside start during
  · exact ⟨rfl, rfl, held, held, rfl, quiet⟩
  · intro left right event inside world beside
    exact beside.together event world (fun same => keeps (same ▸ inside))
  · intro left right event inside castr beside
    exact beside.aside event castr (fun nowUs same => open_ nowUs (same ▸ inside))

theorem cleanUp_overlay (r : Network) (nowUs : UInt64) :
    (r.cleanUp nowUs).overlay =
      some (if r.session.state.isStreaming ∨ r.session.state.isDisconnected
        then "Reconnecting" else idleOverlay r.name) := by
  have session := cleanUp_session r nowUs
  have shown : (r.cleanUp nowUs).overlay =
      some (cleanUpOverlay r.name (r.cleanUp nowUs).session.state) := rfl
  rw [shown, session]
  by_cases streaming : r.session.state.isStreaming = true
  · simp [streaming, cleanUpOverlay, ReceiverState.isDisconnected]
  · simp [streaming, cleanUpOverlay]

/-- The receiver right after a connection has been cleaned up. -/
def afterConnection (start : Network) (connection : List Event) (nowUs : UInt64) : Network :=
  ((final step start connection).step (.cleanUp nowUs)).1

/-- The receiver at the same time, had nobody connected. -/
def withoutConnection (start : Network) (connection : List Event) : Network :=
  final step start (connection.filter Event.world)

theorem afterConnection_eq (start : Network) (connection : List Event) (nowUs : UInt64)
    (ended : (final step start connection).phase = .ending) :
    afterConnection start connection nowUs = (final step start connection).cleanUp nowUs := by
  simp [afterConnection, step, ended]

/-- A connection that ends without the display leaves the Miracast session as it would be
without it exactly when that has nothing queued, waits for a keyframe, and shows what the
clean-up puts up. -/
theorem undisturbed_iff (start : Network) (connection : List Event) (nowUs : UInt64)
    (held : start.owner = .miracast) (free : start.phase = .accepting)
    (keeps : .miracastReleases ∉ connection) (open_ : ∀ nowUs, .cleanUp nowUs ∉ connection)
    (ended : (final step start connection).phase = .ending) :
    (afterConnection start connection nowUs).jitter.frames =
        (withoutConnection start connection).jitter.frames ∧
      (afterConnection start connection nowUs).jitter.needKeyframe =
        (withoutConnection start connection).jitter.needKeyframe ∧
      (afterConnection start connection nowUs).overlay =
        (withoutConnection start connection).overlay ↔
    (final step start connection).jitter.frames = [] ∧
      (final step start connection).jitter.needKeyframe = true ∧
      (withoutConnection start connection).overlay =
        some (if (final step start connection).session.state.isStreaming ∨
            (final step start connection).session.state.isDisconnected
          then "Reconnecting" else idleOverlay (final step start connection).name) := by
  have beside := beside_run start connection held (by rw [free]; rfl) keeps open_
  have queue : (withoutConnection start connection).jitter =
      (final step start connection).jitter := beside.jitter.symm
  have flushed : ((final step start connection).cleanUp nowUs).jitter =
      (final step start connection).jitter.flush := rfl
  rw [afterConnection_eq _ _ _ ended, queue, flushed, cleanUp_overlay]
  simp only [JitterBuffer.flush]
  constructor
  · rintro ⟨frames, keyframe, overlay⟩
    exact ⟨frames.symm, keyframe.symm, overlay.symm⟩
  · rintro ⟨frames, keyframe, overlay⟩
    exact ⟨frames.symm, keyframe.symm, overlay.symm⟩

/-- A Miracast session that holds the display and has queued its first frame. -/
def miracastCasting : Network :=
  final step livingRoom [.miracastAcquires, .miracast .started 0,
    .miracast (.video [0, 0, 1, 0x65] (some 10)) 20]

/-- One that holds the display and has sent nothing yet. -/
def miracastIdle : Network := (livingRoom.step .miracastAcquires).1

/-- A paired sender asks for the display, and is told that it is busy. -/
def busyConnection : List Event :=
  [.connect sender tokenTwo, .message (.hello protocolVersion "laptop" none) 30 "" none]

/-- A paired sender of another version greets, and is refused. -/
def otherVersion : List Event :=
  [.connect sender tokenTwo, .message (.hello (protocolVersion + 1) "laptop" none) 30 "" none]

theorem undisturbed_queue_empty :
    (afterConnection miracastIdle otherVersion 40).jitter.frames =
        (withoutConnection miracastIdle otherVersion).jitter.frames ∧
      (afterConnection miracastIdle otherVersion 40).jitter.needKeyframe =
        (withoutConnection miracastIdle otherVersion).jitter.needKeyframe ∧
      (afterConnection miracastIdle otherVersion 40).overlay =
        (withoutConnection miracastIdle otherVersion).overlay :=
  (undisturbed_iff miracastIdle otherVersion 40 rfl rfl (by decide)
    (by intro nowUs; simp [otherVersion]) (by decide +kernel)).mpr (by decide +kernel)

/-- The refused sender costs the Miracast session its queue and its picture. -/
theorem busy_connection_flushes :
    (final step miracastCasting busyConnection).phase = .ending ∧
      ¬ ((afterConnection miracastCasting busyConnection 40).jitter.frames =
          (withoutConnection miracastCasting busyConnection).jitter.frames ∧
        (afterConnection miracastCasting busyConnection 40).jitter.needKeyframe =
          (withoutConnection miracastCasting busyConnection).jitter.needKeyframe ∧
        (afterConnection miracastCasting busyConnection 40).overlay =
          (withoutConnection miracastCasting busyConnection).overlay) := by
  decide +kernel

end Castr.Receiver.Network
