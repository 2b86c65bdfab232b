import Castr.Lib.Run
import Castr.Media.Clock
import Castr.Proto.Header

/-! The receiver's presentation loop: one pending picture, the newest video timestamp and
the clock. What the audio device does, its buffer level and whether it took a packet, comes
with the event. -/

namespace Castr.Receiver

open Castr.Lib.Word (saturatingSub)
open Castr.Media (AvClock)
open Castr.Proto (Bytes)

def audioLagLimitUs : UInt64 := 1000000

inductive PixelFormat where
  | bgra
  | i420
  | nv12
  deriving DecidableEq, Repr

structure RawFrame where
  format : PixelFormat
  width : UInt32
  height : UInt32
  stride : UInt32
  data : Bytes
  timestampUs : UInt64
  deriving DecidableEq, Repr

abbrev PendingFrame := Option RawFrame

def PendingFrame.offer (p : PendingFrame) (f : RawFrame) : Option RawFrame × PendingFrame :=
  (p, some f)

def PendingFrame.takeIfDue (p : PendingFrame) (clock : AvClock) (nowUs : UInt64) :
    Option RawFrame × PendingFrame × AvClock :=
  match p with
  | none => (none, none, clock)
  | some f =>
      let (due, clock) := clock.videoDue f.timestampUs nowUs
      if due then (some f, none, clock) else (none, some f, clock)

structure Presenter where
  pending : PendingFrame
  latestVideoTs : Option UInt64
  clock : AvClock
  warnedAudioLag : Bool
  deriving DecidableEq, Repr

inductive Event where
  | frame (f : RawFrame)
  | audioPacket (tsUs : UInt64) (data : Bytes) (queued : Bool) (bufferedUs nowUs : UInt64)
  /-- The end of a turn of the loop. -/
  | turn (nowUs : UInt64)
  deriving DecidableEq, Repr

inductive Answer where
  | displaced (frame : Option RawFrame)
  | audio (drives : Bool)
  | due (frame : Option RawFrame)
  deriving DecidableEq, Repr

def newerTs (latest : Option UInt64) (tsUs : UInt64) : UInt64 :=
  match latest with
  | some v => max v tsUs
  | none => tsUs

def lagging (latest : Option UInt64) (tsUs : UInt64) : Bool :=
  latest.any (fun v => saturatingSub v tsUs > audioLagLimitUs)

namespace Presenter

def new : Presenter := ⟨none, none, AvClock.new, false⟩

def step (p : Presenter) : Event → Presenter × Answer
  | .frame f =>
      let (displaced, pending) := p.pending.offer f
      ({ p with pending := pending, latestVideoTs := some (newerTs p.latestVideoTs f.timestampUs) },
        .displaced displaced)
  | .audioPacket tsUs data queued bufferedUs nowUs =>
      -- an empty packet stands for a lost one: it is concealed
      if data = [] then (p, .audio false)
      else if lagging p.latestVideoTs tsUs then ({ p with warnedAudioLag := true }, .audio false)
      else if queued then
        let playedTs := saturatingSub tsUs bufferedUs
        ({ p with clock := p.clock.audioPlayed playedTs nowUs }, .audio true)
      else (p, .audio false)
  | .turn nowUs =>
      let (frame, pending, clock) := p.pending.takeIfDue p.clock nowUs
      ({ p with pending := pending, clock := clock }, .due frame)

/-- Whether an event is an audio packet that sets the clock. -/
def drives (p : Presenter) (event : Event) : Bool := (p.step event).2 == .audio true

end Presenter

end Castr.Receiver
