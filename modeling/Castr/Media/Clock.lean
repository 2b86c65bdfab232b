import Castr.Lib.Word

/-! The audio-master clock, `AvClock`. -/

namespace Castr.Media

open Castr.Lib.Word (saturatingSub)

def staleUs : UInt64 := 200000

structure AvClock where
  /-- Sender timestamp and receiver time of the last audio update. -/
  audioAnchor : Option (UInt64 × UInt64)
  /-- Receiver time less sender timestamp. -/
  videoOffset : Option Int64
  deriving DecidableEq, Repr

namespace AvClock

def new : AvClock := ⟨none, none⟩

def audioPlayed (_ : AvClock) (tsUs nowUs : UInt64) : AvClock where
  audioAnchor := some (tsUs, nowUs)
  videoOffset := some (nowUs.toInt64 - tsUs.toInt64)

def audioStale (c : AvClock) (nowUs : UInt64) : Bool :=
  match c.audioAnchor with
  | some (_, at_) => saturatingSub nowUs at_ ≥ staleUs
  | none => true

def presentedTs (c : AvClock) (nowUs : UInt64) : Option UInt64 :=
  match c.audioAnchor, c.videoOffset with
  | some (ts, at_), off =>
      if c.audioStale nowUs then off.map (fun off => (max (nowUs.toInt64 - off) 0).toUInt64)
      else some (ts + saturatingSub nowUs at_)
  | none, off => off.map (fun off => (max (nowUs.toInt64 - off) 0).toUInt64)

def videoDue (c : AvClock) (frameTsUs nowUs : UInt64) : Bool × AvClock :=
  match c.videoOffset with
  | none => (true, { c with videoOffset := some (nowUs.toInt64 - frameTsUs.toInt64) })
  | some _ => (((c.presentedTs nowUs).map (fun p => decide (p ≥ frameTsUs))).getD true, c)

end AvClock

end Castr.Media
