import Castr.Lib.Text

/-! Wi-Fi Display parameters, as text in RTSP bodies. -/

namespace Castr.Miracast

open Castr.Lib.Text

structure VideoFormats where
  cea : UInt32
  vesa : UInt32
  hh : UInt32
  profile : UInt8
  level : UInt8
  deriving DecidableEq, Repr

def VideoFormats.only720p30 : VideoFormats := ⟨0x20, 0, 0, 0x02, 0x04⟩

structure AudioCodecs where
  lpcmModes : UInt32
  deriving DecidableEq, Repr

def AudioCodecs.lpcm48kStereo : AudioCodecs := ⟨0x02⟩

structure ClientPorts where
  rtpPort : UInt16
  deriving DecidableEq, Repr

structure Capabilities where
  video : VideoFormats
  audio : AudioCodecs
  ports : ClientPorts
  maxBitrateKbps : UInt32
  latencyManagement : Bool
  formatChange : Bool
  deriving DecidableEq, Repr

def hexText (width value : Nat) : String := String.ofList (hex width value)

/-- The fields of a `wfd_video_formats` line between its native mode and its trailer. -/
def formatFields (profile level : UInt8) (cea vesa hh : UInt32) : String :=
  hexText 2 profile.toNat ++ " " ++ hexText 2 level.toNat ++ " " ++ hexText 8 cea.toNat ++ " " ++
    hexText 8 vesa.toNat ++ " " ++ hexText 8 hh.toNat ++ " 00 0000 0000 00 none none"

/-- The body of an M3 response: a line for each parameter. -/
def capabilitiesBody (c : Capabilities) : String :=
  "wfd_video_formats: 40 00 " ++
    formatFields c.video.profile c.video.level c.video.cea c.video.vesa c.video.hh ++ "\r\n" ++
  "wfd_audio_codecs: LPCM " ++ hexText 8 c.audio.lpcmModes.toNat ++ " 00\r\n" ++
  "wfd_content_protection: none\r\n" ++
  "wfd_client_rtp_ports: RTP/AVP/UDP;unicast " ++ toString c.ports.rtpPort.toNat ++
    " 0 mode=play\r\n" ++
  "microsoft_max_bitrate: " ++ toString c.maxBitrateKbps.toNat ++ "\r\n" ++
  (if c.latencyManagement then "microsoft_latency_management_capability: supported\r\n" else "") ++
  (if c.formatChange then "microsoft_format_change_support: supported\r\n" else "")

def parameter (line : List Char) : String × String :=
  match splitOnce ':' line with
  | some parts => (String.ofList (trim parts.1), String.ofList (trim parts.2))
  | none => (String.ofList line, "")

def parseParameterBody (body : String) : List (String × String) :=
  (((lines body.toList).map trim).filter (fun line => !line.isEmpty)).map parameter

def maxBitrateOf : List (List Char) → Option UInt32
  | [] => none
  | line :: rest =>
      match splitOnce ':' line with
      | none => maxBitrateOf rest
      | some parts =>
          if sameIgnoringCase (trim parts.1) "microsoft_max_bitrate".toList then
            (number 10 (2 ^ 32) (trim parts.2)).map UInt32.ofNat
          else maxBitrateOf rest

def parseMaxBitrateKbps (body : String) : Option UInt32 := maxBitrateOf (lines body.toList)

end Castr.Miracast
