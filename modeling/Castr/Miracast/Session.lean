import Castr.Miracast.Negotiation
import Castr.Miracast.Rtp
import Castr.Miracast.Ts
import Castr.Miracast.Quality

/-! One sink session, as bytes in and events out. Times are in nanoseconds. -/

namespace Castr.Miracast

open Castr.Lib.Bytes (chunks)

def ptMp2t : UInt8 := 33
def reorderWindow : Nat := 32
def mediaSilence : Nat := 2 * 10 ^ 9

inductive SinkEvent where
  | sendRtsp (text : String)
  | video (data : List UInt8) (ptsUs : Option Nat)
  | audio (data : List UInt8) (ptsUs : Option Nat)
  | started (mode : VideoMode)
  | ended (reason : String)
  deriving DecidableEq, Repr

structure Session where
  negotiation : Negotiation
  rtspBuf : List UInt8
  reorder : Rtp.Reorder
  demux : Ts.Demux
  playing : Bool
  /-- Loss seen since the last keyframe request. -/
  lostAtLastCheck : Nat
  ladder : BitrateLadder
  lastMedia : Option Nat
  deriving DecidableEq, Repr

inductive SessionEvent where
  | rtspBytes (bytes : List UInt8) (now : Nat)
  | datagram (bytes : List UInt8) (now : Nat)
  | tick (now : Nat)
  | decodeError (now : Nat)
  deriving DecidableEq, Repr

def SinkEvent.ofUnit : Ts.AccessUnit → SinkEvent
  | .video data ptsUs => .video data ptsUs
  | .audio data ptsUs => .audio data ptsUs

/-- Every packet through the demultiplexer, and the units that come out. -/
def Ts.Demux.pushAll (d : Ts.Demux) : List (List UInt8) → Ts.Demux × List Ts.AccessUnit
  | [] => (d, [])
  | packet :: packets =>
      let first := d.push packet
      let rest := first.1.pushAll packets
      (rest.1, first.2 ++ rest.2)

namespace Session

def new (caps : Capabilities) (sessionId : String) : Session where
  negotiation := .new caps sessionId
  rtspBuf := []
  reorder := .new reorderWindow
  demux := .new
  playing := false
  lostAtLastCheck := 0
  ladder := .new
  lastMedia := none

def applyOne (s : Session) : Action → Session × List SinkEvent
  | .send m => (s, [.sendRtsp m.format])
  | .keyframe => (s, [])
  | .bitrate _ => (s, [])
  | .play => ({ s with playing := true }, (s.negotiation.chosen.map SinkEvent.started).toList)
  | .teardown reason => ({ s with playing := false }, [.ended reason])

def apply (s : Session) : List Action → Session × List SinkEvent
  | [] => (s, [])
  | action :: actions =>
      let first := s.applyOne action
      let rest := first.1.apply actions
      (rest.1, first.2 ++ rest.2)

def drive (s : Session) (result : Negotiation × List Action) : Session × List SinkEvent :=
  { s with negotiation := result.1 }.apply result.2

def drain (now : Nat) : Nat → Session → Session × List SinkEvent
  | 0, s => (s, [])
  | fuel + 1, s =>
      match parse s.rtspBuf with
      | .ok none => (s, [])
      | .ok (some (m, used)) =>
          let heard := { s with rtspBuf := s.rtspBuf.drop used }.drive
            (s.negotiation.onMessageAt m now)
          let rest := drain now fuel heard.1
          (rest.1, heard.2 ++ rest.2)
      | .error _ => ({ s with rtspBuf := [] }, [.ended "malformed RTSP"])

/-- A message takes four bytes at least, so the buffer bounds the loop. -/
def onRtspBytesAt (s : Session) (bytes : List UInt8) (now : Nat) : Session × List SinkEvent :=
  drain now (s.rtspBuf ++ bytes).length { s with rtspBuf := s.rtspBuf ++ bytes }

def lost (s : Session) : Nat := s.reorder.lost + s.demux.continuityErrors

def sampleLadder (s : Session) (lost now : Nat) : Session × List SinkEvent :=
  let sampled := s.ladder.sample lost now
  match sampled.2 with
  | some kbps => { s with ladder := sampled.1 }.drive (s.negotiation.requestBitrate kbps)
  | none => ({ s with ladder := sampled.1 }, [])

def checkLoss (s : Session) (lost now : Nat) : Session × List SinkEvent :=
  if s.lostAtLastCheck < lost then
    { s with lostAtLastCheck := lost }.drive (s.negotiation.requestIdr now)
  else (s, [])

def takeMedia (s : Session) (packet : Rtp.Packet) (now : Nat) : Session × List SinkEvent :=
  let pushed := s.reorder.push packet
  let fed := s.demux.pushAll (pushed.2.flatMap (fun p => chunks Ts.packetLen p.payload))
  ({ s with lastMedia := some now, reorder := pushed.1, demux := fed.1 },
    fed.2.map SinkEvent.ofUnit)

def onRtpDatagramAt (s : Session) (datagram : List UInt8) (now : Nat) :
    Session × List SinkEvent :=
  if s.playing then
    match Rtp.parse datagram with
    | none => (s, [])
    | some packet =>
        if packet.payloadType ≠ ptMp2t then (s, [])
        else
          let taken := s.takeMedia packet now
          let checked := taken.1.checkLoss taken.1.lost now
          let sampled := checked.1.sampleLadder taken.1.lost now
          (sampled.1, taken.2 ++ checked.2 ++ sampled.2)
  else (s, [])

def tick (s : Session) (now : Nat) : Session × List SinkEvent :=
  if s.playing ∧ s.lastMedia.any (fun last => mediaSilence < now - last) then
    ({ s with playing := false }, [.ended "no media for 2 s"])
  else
    let sampled := s.sampleLadder s.lost now
    let ticked := sampled.1.drive (sampled.1.negotiation.tick now)
    (ticked.1, sampled.2 ++ ticked.2)

def noteDecodeError (s : Session) (now : Nat) : Session × List SinkEvent :=
  s.drive (s.negotiation.requestIdr now)

def step (s : Session) : SessionEvent → Session × List SinkEvent
  | .rtspBytes bytes now => s.onRtspBytesAt bytes now
  | .datagram bytes now => s.onRtpDatagramAt bytes now
  | .tick now => s.tick now
  | .decodeError now => s.noteDecodeError now

theorem apply_playing (s : Session) (actions : List Action) :
    (s.apply actions).1 = { s with playing := (s.apply actions).1.playing } := by
  induction actions generalizing s with
  | nil => rfl
  | cons action actions ih =>
      have first : (s.applyOne action).1 =
          { s with playing := (s.applyOne action).1.playing } := by
        cases action <;> rfl
      calc (s.apply (action :: actions)).1
          = ((s.applyOne action).1.apply actions).1 := rfl
        _ = { (s.applyOne action).1 with
              playing := ((s.applyOne action).1.apply actions).1.playing } := ih _
        _ = { s with playing := ((s.applyOne action).1.apply actions).1.playing } := by rw [first]

@[simp] theorem negotiation_drive (s : Session) (result : Negotiation × List Action) :
    (s.drive result).1.negotiation = result.1 := by
  rw [drive, apply_playing]

@[simp] theorem rtspBuf_drive (s : Session) (result : Negotiation × List Action) :
    (s.drive result).1.rtspBuf = s.rtspBuf := by
  rw [drive, apply_playing]

theorem ended_apply (s : Session) (actions : List Action) (reason : String) :
    .ended reason ∈ (s.apply actions).2 ↔ .teardown reason ∈ actions := by
  induction actions generalizing s with
  | nil => simp [apply]
  | cons action actions ih =>
      have first : .ended reason ∈ (s.applyOne action).2 ↔ .teardown reason = action := by
        cases action <;> simp [applyOne]
      simp only [apply, List.mem_append, List.mem_cons, first, ih]

theorem playing_apply (s : Session) (actions : List Action) (unplayed : .play ∉ actions)
    (still : s.playing = false) : (s.apply actions).1.playing = false := by
  induction actions generalizing s with
  | nil => exact still
  | cons action actions ih =>
      simp only [List.mem_cons, not_or] at unplayed
      apply ih _ unplayed.2
      cases action with
      | play => exact absurd rfl unplayed.1
      | teardown reason => rfl
      | _ => exact still

end Session

end Castr.Miracast
