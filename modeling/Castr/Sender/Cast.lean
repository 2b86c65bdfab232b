import Castr.Media.Bitrate

/-! The control loop of a cast: what it tells the encoder's thread and the receiver. A step is
`none` where the loop is left, by a stop, a goodbye, an error or a panic. -/

namespace Castr.Sender

open Castr.Lib.Checked (add32)
open Castr.Media (BitrateController Decision Resolution)
open Castr.Proto (Capabilities ControlMessage Mode Stats StreamParams)

structure EncoderConfig where
  width : UInt32
  height : UInt32
  fps : UInt32
  bitrateBps : UInt32
  mode : Mode
  deriving DecidableEq, Repr

inductive EncCmd where
  | bitrate (bps : UInt32)
  | keyframe
  | mode (mode : Mode)
  | resolution (width height : UInt32)
  | stop
  deriving DecidableEq, Repr

/-- The thread's configuration after the command. -/
def EncoderConfig.told (cfg : EncoderConfig) : EncCmd → EncoderConfig
  | .bitrate bps => { cfg with bitrateBps := bps }
  | .keyframe => cfg
  | .mode mode => { cfg with mode := mode }
  | .resolution width height => { cfg with width := width, height := height }
  | .stop => cfg

/-- What one turn of the loop sends to the two. -/
structure Sent where
  commands : List EncCmd
  controls : List ControlMessage
  deriving DecidableEq, Repr

def Sent.nothing : Sent := ⟨[], []⟩

structure Cast where
  params : StreamParams
  ctl : BitrateController
  deriving DecidableEq, Repr

/-- `sent` says whether the control message of the turn, if it has one, goes out. -/
inductive Event where
  | requestKeyframe
  | stats (stats : Stats) (nowUs : UInt64) (sent : Bool)
  | setMode (mode : Mode) (sent : Bool)
  /-- The link was closed and the receiver has answered the new `Hello`. -/
  | reconnected (sent : Bool)
  /-- A frame, an audio packet, a NACK, a token, an error, or any other message. -/
  | other
  /-- A stop, a goodbye or a link that does not come back. -/
  | ended
  deriving DecidableEq, Repr

namespace Cast

def ceiling (maxBitrate : Option UInt32) (caps : Capabilities) : UInt32 :=
  min (maxBitrate.getD 0xFFFFFFFF) caps.maxBitrateBps

def chooseParams (size : Resolution) (fps : UInt32) (maxBitrate : Option UInt32) (mode : Mode)
    (caps : Capabilities) : StreamParams :=
  { codec := .h264
    width := size.width
    height := size.height
    fps := max (min fps caps.maxFps) 1
    mode := mode
    bitrateBps := ceiling maxBitrate caps / 2 }

def onStats (s : Cast) (stats : Stats) (nowUs : UInt64) (sent : Bool) : Option (Cast × Sent) := do
  let _ ← add32 stats.fragmentsLost stats.fragmentsReceived
  let (ctl, decision) ← s.ctl.onStats stats nowUs
  match decision with
  | none => some ({ s with ctl := ctl }, .nothing)
  | some ⟨bitrateBps, resolution⟩ =>
      let rate := if bitrateBps ≠ s.params.bitrateBps then [EncCmd.bitrate bitrateBps] else []
      let params := { s.params with bitrateBps := bitrateBps }
      if (resolution.width, resolution.height) ≠ (params.width, params.height) then
        let params := { params with width := resolution.width, height := resolution.height }
        if sent then
          some (⟨params, ctl⟩,
            ⟨rate ++ [.resolution params.width params.height], [.startStream params]⟩)
        else none
      else some (⟨params, ctl⟩, ⟨rate, []⟩)

def setMode (s : Cast) (mode : Mode) (sent : Bool) : Option (Cast × Sent) :=
  if sent then
    some (⟨{ s.params with mode := mode }, s.ctl.setMode mode⟩, ⟨[.mode mode], [.setMode mode]⟩)
  else none

def step (s : Cast) : Event → Option (Cast × Sent)
  | .requestKeyframe => some (s, ⟨[.keyframe], []⟩)
  | .stats stats nowUs sent => s.onStats stats nowUs sent
  | .setMode mode sent => s.setMode mode sent
  | .reconnected sent =>
      if sent then some (s, ⟨[.keyframe], [.startStream s.params]⟩) else none
  | .other => some (s, .nothing)
  | .ended => none

end Cast

/-- The loop between the encoder's thread and the last `StartStream` it sent. -/
structure Casting where
  cast : Cast
  encoder : EncoderConfig
  stream : StreamParams
  deriving DecidableEq, Repr

namespace Casting

def streamAfter (stream : StreamParams) : ControlMessage → StreamParams
  | .startStream params => params
  | _ => stream

def hear (s : Casting) (cast : Cast) (sent : Sent) : Casting :=
  { cast := cast
    encoder := sent.commands.foldl EncoderConfig.told s.encoder
    stream := sent.controls.foldl streamAfter s.stream }

/-- The thread starts at the native size and half the ceiling; before the loop it is told of the
parameters that were chosen, and so is the receiver. -/
def start (native size : Resolution) (fps : UInt32) (maxBitrate : Option UInt32) (mode : Mode)
    (caps : Capabilities) : Option Casting := do
  let ceiling := Cast.ceiling maxBitrate caps
  let params := Cast.chooseParams size fps maxBitrate mode caps
  let spawned : EncoderConfig :=
    ⟨native.width, native.height, max (min fps caps.maxFps) 1, ceiling / 2, mode⟩
  let resize := if (params.width, params.height) ≠ (native.width, native.height) then
    [EncCmd.resolution params.width params.height] else []
  let ctl ← BitrateController.new ceiling params.bitrateBps ⟨params.width, params.height⟩ mode
  return {
    cast := ⟨params, ctl⟩
    encoder := (resize ++ [EncCmd.bitrate params.bitrateBps]).foldl EncoderConfig.told spawned
    stream := params }

def step (s : Casting) (event : Event) : Option (Casting × Sent) :=
  (s.cast.step event).map (fun next => (s.hear next.1 next.2, next.2))

end Casting

end Castr.Sender
