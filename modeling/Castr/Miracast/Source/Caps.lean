import Mathlib.Data.List.Sort
import Castr.Proto.Control
import Castr.Miracast.Negotiation

/-! What a display says it can take, and the mode a source picks from it. -/

namespace Castr.Miracast.Source

open Castr.Lib.Text
open Castr.Proto (Mode)

structure VideoCodecCaps where
  profile : UInt8
  level : UInt8
  cea : UInt32
  vesa : UInt32
  hh : UInt32
  deriving DecidableEq, Repr

structure SinkCaps where
  cea : UInt32
  vesa : UInt32
  hh : UInt32
  profile : UInt8
  level : UInt8
  lpcmModes : UInt32
  rtpPort : UInt16
  maxBitrateKbps : Option UInt32
  /-- Absent when the display says `none`. -/
  contentProtection : Option String
  videoFormats : List VideoCodecCaps
  deriving DecidableEq, Repr

inductive CapsError where
  | noVideoFormats
  | malformedVideoFormats (video : String)
  deriving DecidableEq, Repr

inductive VideoTable where
  | cea
  | vesa
  | hh
  deriving DecidableEq, Repr

structure ModeSelection where
  mode : VideoMode
  table : VideoTable
  bit : UInt32
  profile : UInt8
  level : UInt8
  deriving DecidableEq, Repr

/-- The progressive modes of the CEA table; 2, 4, 9 and 14 are interlaced. -/
def ceaMode (bit : Nat) : Option VideoMode :=
  match bit with
  | 0 => some ⟨640, 480, 60⟩
  | 1 => some ⟨720, 480, 60⟩
  | 3 => some ⟨720, 576, 50⟩
  | 5 => some ⟨1280, 720, 30⟩
  | 6 => some ⟨1280, 720, 60⟩
  | 7 => some ⟨1920, 1080, 30⟩
  | 8 => some ⟨1920, 1080, 60⟩
  | 10 => some ⟨1280, 720, 25⟩
  | 11 => some ⟨1280, 720, 50⟩
  | 12 => some ⟨1920, 1080, 25⟩
  | 13 => some ⟨1920, 1080, 50⟩
  | 15 => some ⟨1280, 720, 24⟩
  | 16 => some ⟨1920, 1080, 24⟩
  | _ => none

/-- A table of sizes, each at the even bits with 30 frames and at the odd ones with 60. -/
def pairedMode (sizes : List (Nat × Nat)) (bit : Nat) : Option VideoMode :=
  (sizes[bit]?).map (fun size => ⟨size.1, size.2, if bit % 2 = 0 then 30 else 60⟩)

def vesaMode : Nat → Option VideoMode :=
  pairedMode [(800, 600), (800, 600), (1024, 768), (1024, 768), (1152, 864), (1152, 864),
    (1280, 768), (1280, 768), (1280, 800), (1280, 800), (1360, 768), (1360, 768), (1366, 768),
    (1366, 768), (1280, 1024), (1280, 1024), (1400, 1050), (1400, 1050), (1440, 900), (1440, 900),
    (1600, 900), (1600, 900), (1600, 1200), (1600, 1200), (1680, 1050), (1680, 1050),
    (1920, 1200), (1920, 1200)]

def hhMode : Nat → Option VideoMode :=
  pairedMode [(800, 480), (800, 480), (854, 480), (854, 480), (864, 480), (864, 480), (640, 360),
    (640, 360), (960, 540), (960, 540), (848, 480), (848, 480)]

def hex32 (text : List Char) : Option UInt32 := (number 16 (2 ^ 32) text).map UInt32.ofNat
def hex8 (text : List Char) : Option UInt8 := (number 16 (2 ^ 8) text).map UInt8.ofNat

def parseTuple (offset : Nat) (tuple : List Char) : Option VideoCodecCaps :=
  match (words tuple).drop offset with
  | profile :: level :: cea :: vesa :: hh :: _ => do
      let profile ← hex8 profile
      let level ← hex8 level
      let cea ← hex32 cea
      let vesa ← hex32 vesa
      let hh ← hex32 hh
      some { profile, level, cea, vesa, hh }
  | _ => none

def parseTuples : List (List Char) → Option (List VideoCodecCaps)
  | [] => some []
  | first :: rest => do
      let head ← parseTuple 2 first
      let tail ← rest.mapM (parseTuple 0)
      some (head :: tail)

def get (params : List (String × String)) (name : String) : Option String :=
  (params.find? (fun param => param.1 = name)).map (fun param => param.2)

def secondWord (value : String) : Option (List Char) := (words value.toList)[1]?

def parse (body : String) : Except CapsError SinkCaps :=
  let params := parseParameterBody body
  match get params "wfd_video_formats" with
  | none => .error .noVideoFormats
  | some video =>
      match parseTuples (video.toList.splitOn ',') with
      | some (first :: rest) => .ok {
          profile := first.profile
          level := first.level
          cea := first.cea
          vesa := first.vesa
          hh := first.hh
          lpcmModes := (((get params "wfd_audio_codecs").bind secondWord).bind hex32).getD 0
          rtpPort := (((get params "wfd_client_rtp_ports").bind secondWord).bind (fun port =>
            (number 10 (2 ^ 16) port).map UInt16.ofNat)).getD 5000
          maxBitrateKbps := (get params "microsoft_max_bitrate").bind (fun value =>
            (number 10 (2 ^ 32) (trim value.toList)).map UInt32.ofNat)
          contentProtection := (get params "wfd_content_protection").filter (fun value =>
            trim value.toList ≠ "none".toList)
          videoFormats := first :: rest }
      | _ => .error (.malformedVideoFormats video)

structure NoCommonFormat where
  sinkOffered : List VideoMode
  weOffered : List VideoMode
  deriving DecidableEq, Repr

/-- With one tuple the fields beside the list decide. -/
def codecFormats (c : SinkCaps) : List VideoCodecCaps :=
  if c.videoFormats.length ≤ 1 then [⟨c.profile, c.level, c.cea, c.vesa, c.hh⟩] else c.videoFormats

def tableMode : VideoTable → Nat → Option VideoMode
  | .cea => ceaMode
  | .vesa => vesaMode
  | .hh => hhMode

def modesOf (table : VideoTable) (mask : UInt32) : List (VideoTable × UInt32 × VideoMode) :=
  (List.range 32).filterMap (fun bit =>
    if mask.toNat.testBit bit then
      (tableMode table bit).map (fun mode => (table, UInt32.ofNat (2 ^ bit), mode))
    else none)

def tableModes (c : VideoCodecCaps) : List (VideoTable × UInt32 × VideoMode) :=
  modesOf .cea c.cea ++ modesOf .vesa c.vesa ++ modesOf .hh c.hh

def sinkModes (c : SinkCaps) : List VideoMode :=
  ((codecFormats c).flatMap tableModes).map (fun entry => entry.2.2)

def requiredLevel (mode : VideoMode) : Option UInt8 :=
  let rate := (mode.width + 15) / 16 * ((mode.height + 15) / 16) * mode.fps
  if rate ≤ 108000 then some 0x01
  else if rate ≤ 216000 then some 0x02
  else if rate ≤ 245760 then some 0x04
  else if rate ≤ 522240 then some 0x10
  else none

/-- One more than the place of the highest level named, or 0 where none is. -/
def levelRank (level : UInt8) : Nat :=
  if level.toNat.testBit 4 then 5
  else if level.toNat.testBit 3 then 4
  else if level.toNat.testBit 2 then 3
  else if level.toNat.testBit 1 then 2
  else if level.toNat.testBit 0 then 1
  else 0

def needsMbps (m : VideoMode) : Nat := max (m.width * m.height * m.fps / 6000000) 1 % 2 ^ 16

def allModes : List VideoMode :=
  [⟨1920, 1080, 60⟩, ⟨1920, 1080, 30⟩, ⟨1280, 720, 60⟩, ⟨1280, 720, 30⟩, ⟨1366, 768, 60⟩,
    ⟨1366, 768, 30⟩, ⟨1024, 768, 60⟩, ⟨1024, 768, 30⟩, ⟨960, 540, 60⟩, ⟨960, 540, 30⟩,
    ⟨640, 480, 60⟩, ⟨640, 360, 60⟩, ⟨640, 360, 30⟩]

/-- One mode is not after another: the bigger picture first, or the faster one. -/
def Preferred (mode : Mode) (left right : VideoMode) : Prop :=
  match mode with
  | .quality => right.height < left.height ∨ right.height = left.height ∧ right.fps ≤ left.fps
  | .game => right.fps < left.fps ∨ right.fps = left.fps ∧ right.height ≤ left.height

instance (mode : Mode) : DecidableRel (Preferred mode) := fun _ _ =>
  match mode with
  | .quality => inferInstanceAs (Decidable (_ ∨ _))
  | .game => inferInstanceAs (Decidable (_ ∨ _))

def ourModes (mode : Mode) (ceilingMbps : Option Nat) : List VideoMode :=
  (allModes.insertionSort (Preferred mode)).filter (fun m =>
    ceilingMbps.all (fun ceiling => needsMbps m ≤ ceiling))

def profileOf (codec : VideoCodecCaps) : UInt8 :=
  if codec.profile.toNat.testBit 0 then 0x01
  else if codec.profile.toNat.testBit 1 then 0x02
  else 0

def select (wanted : VideoMode) (required : UInt8) (codec : VideoCodecCaps) :
    Option ModeSelection :=
  if profileOf codec = 0 ∨ levelRank codec.level < levelRank required then none
  else ((tableModes codec).find? (fun entry => entry.2.2 = wanted)).map (fun entry =>
    { mode := entry.2.2, table := entry.1, bit := entry.2.1, profile := profileOf codec,
      level := required })

def chooseSelection (sink : SinkCaps) (ours : List VideoMode) :
    Except NoCommonFormat ModeSelection :=
  let choice := ours.findSome? (fun wanted =>
    (requiredLevel wanted).bind (fun required =>
      (codecFormats sink).findSome? (select wanted required)))
  match choice with
  | some selection => .ok selection
  | none => .error ⟨sinkModes sink, ours⟩

end Castr.Miracast.Source
