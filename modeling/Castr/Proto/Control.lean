import Castr.Proto.Header

/-! The control messages. -/

namespace Castr.Proto

def protocolVersion : UInt16 := 1

inductive Mode where
  | game
  | quality
  deriving DecidableEq, Repr

inductive Codec where
  | h264
  deriving DecidableEq, Repr

structure Capabilities where
  maxWidth : UInt32
  maxHeight : UInt32
  maxFps : UInt32
  maxBitrateBps : UInt32
  codecs : List Codec
  audio : Bool
  deriving DecidableEq, Repr

structure StreamParams where
  codec : Codec
  width : UInt32
  height : UInt32
  fps : UInt32
  mode : Mode
  bitrateBps : UInt32
  deriving DecidableEq, Repr

structure Stats where
  framesReceived : UInt32
  framesDropped : UInt32
  fragmentsLost : UInt32
  fragmentsReceived : UInt32
  decodeQueueDepth : UInt32
  intervalMs : UInt32
  deriving DecidableEq, Repr

abbrev Token := Vector UInt8 16

inductive ControlMessage where
  | hello (version : UInt16) (name : String) (resumeToken : Option Token)
  | helloAck (name : String) (caps : Capabilities)
  | startStream (params : StreamParams)
  | sessionToken (token : Token)
  | setMode (mode : Mode)
  | requestKeyframe
  | stats (stats : Stats)
  | pairInit (message : Bytes)
  | pairResp (message : Bytes)
  | pairProof (proof : Vector UInt8 32)
  | pairOk
  | error (code : UInt16) (message : String)
  | goodbye (reason : String)
  deriving DecidableEq, Repr

end Castr.Proto
