import Castr.Miracast.Ts

/-! The MPEG-TS multiplexer of the source: access units in, whole packets out. -/

namespace Castr.Miracast.Source

open Castr.Lib.Bytes
open Castr.Miracast.Ts (packetLen)

namespace Lpcm

def headerLen : Nat := 4
def samplesPerAuPerChannel : Nat := 80
def channels : Nat := 2
def ausPerFrame : Nat := 6
def samplesPerFrame : Nat := samplesPerAuPerChannel * channels * ausPerFrame
def substreamId : UInt8 := 0xa0
def formatByte : UInt8 := 0x11

def sampleBytes (sample : Int16) : List UInt8 := (leBytes 2 sample.toUInt16.toNat).reverse

/-- Interleaved stereo samples as one audio frame, whose number the source asserts. -/
def frame (samples : List Int16) : List UInt8 :=
  [substreamId, UInt8.ofNat ausPerFrame, 0, formatByte] ++ samples.flatMap sampleBytes

/-- The samples of a frame, without the header if it has one. -/
def payload (frame : List UInt8) : List UInt8 :=
  if frame.length < headerLen then []
  else if frame.getD 0 0 = substreamId ∧ 0 < frame.getD 1 0 then frame.drop headerLen
  else frame

end Lpcm

namespace TsMux

def pmtPid : UInt16 := 0x1000
def videoPid : UInt16 := 0x1011
def audioPid : UInt16 := 0x1100
def programNumber : Nat := 1
def streamTypeH264 : UInt8 := 0x1b
def streamTypeLpcm : UInt8 := 0x83
def streamIdVideo : UInt8 := 0xe0
def streamIdPrivate1 : UInt8 := 0xbd
def tableIntervalPackets : UInt32 := 40
def audioFrameUs : UInt64 := 10000

def beBytes (width value : Nat) : List UInt8 := (leBytes width value).reverse

/-- A 33-bit time in 90 kHz units over five bytes, with the marker bits of the format. -/
def ptsBytes (pts90k : Nat) : List UInt8 :=
  [UInt8.ofNat (0x21 ||| ((pts90k >>> 30) &&& 0x07) <<< 1),
    UInt8.ofNat ((pts90k >>> 22) &&& 0xff),
    UInt8.ofNat (((pts90k >>> 15) &&& 0x7f) <<< 1 ||| 1),
    UInt8.ofNat ((pts90k >>> 7) &&& 0xff),
    UInt8.ofNat ((pts90k &&& 0x7f) <<< 1 ||| 1)]

def pesWithStuffing (streamId : UInt8) (payload : List UInt8) (ptsUs : UInt64) (bounded : Bool)
    (stuffing : Nat) : List UInt8 :=
  let header := ptsBytes (ptsUs * 9 / 100).toNat
  let declared := if bounded then payload.length + header.length + stuffing + 3 else 0
  [0, 0, 1, streamId] ++ beBytes 2 (declared % 2 ^ 16) ++
    [0x80, 0x80, UInt8.ofNat (header.length + stuffing)] ++ header ++
    List.replicate stuffing 0xff ++ payload

def pes (streamId : UInt8) (payload : List UInt8) (ptsUs : UInt64) (bounded : Bool) : List UInt8 :=
  pesWithStuffing streamId payload ptsUs bounded 0

def crcBits : Nat → UInt32 → UInt32
  | 0, crc => crc
  | count + 1, crc =>
      crcBits count (if crc &&& 0x80000000 ≠ 0 then (crc <<< 1) ^^^ 0x04c11db7 else crc <<< 1)

def crcByte (crc : UInt32) (byte : UInt8) : UInt32 := crcBits 8 (crc ^^^ (byte.toUInt32 <<< 24))

def crc32 (data : List UInt8) : UInt32 := data.foldl crcByte 0xffffffff

def tableSection (tableId : UInt8) (body : List UInt8) : List UInt8 :=
  let s := tableId :: beBytes 2 (0xb000 ||| (body.length + 4)) ++ body
  s ++ beBytes 4 (crc32 s).toNat

def patSection : List UInt8 :=
  tableSection 0x00 (beBytes 2 programNumber ++ [0xc1, 0x00, 0x00] ++ beBytes 2 programNumber ++
    beBytes 2 (0xe000 ||| pmtPid.toNat))

def profileBytes (profileBitmap : UInt8) : List UInt8 :=
  if profileBitmap = 0x02 then [100, 0x0c] else [66, 0xc0]

def levelByte (levelBitmap : UInt8) : UInt8 :=
  if levelBitmap = 0x02 then 32
  else if levelBitmap = 0x04 then 40
  else if levelBitmap = 0x08 then 41
  else if levelBitmap = 0x10 then 42
  else 31

def streamEntry (streamType : UInt8) (pid : UInt16) (descriptors : List UInt8) : List UInt8 :=
  streamType :: beBytes 2 (0xe000 ||| pid.toNat) ++ beBytes 2 (0xf000 ||| descriptors.length) ++
    descriptors

def pmtSection (profileBitmap levelBitmap : UInt8) : List UInt8 :=
  tableSection 0x02 (beBytes 2 programNumber ++ [0xc1, 0x00, 0x00] ++
    beBytes 2 (0xe000 ||| videoPid.toNat) ++ beBytes 2 0xf000 ++
    streamEntry streamTypeH264 videoPid ([0x28, 0x04] ++ profileBytes profileBitmap ++
      [levelByte levelBitmap, 0x3f, 0x2a, 0x02, 0x7e, 0x1f]) ++
    streamEntry streamTypeLpcm audioPid [0x83, 0x02, 0x46, 0x2f])

def resize (bytes : List UInt8) (len : Nat) : List UInt8 :=
  bytes.take len ++ List.replicate (len - bytes.length) 0xff

/-- The first bytes of a packet: its sync byte, its PID and its counter. -/
def header (start : Bool) (pid : UInt16) (adapted : Bool) (cc : UInt8) : List UInt8 :=
  [0x47, (if start then (0x40 : UInt8) else 0x00) ||| ((pid >>> 8).toUInt8 &&& 0x1f),
    (pid &&& 0xff).toUInt8,
    (if adapted then (0x30 : UInt8) else 0x10) ||| (cc &&& 0x0f)]

def sectionPacket (pid : UInt16) (sectionBytes : List UInt8) (cc : UInt8) : List UInt8 :=
  resize (header true pid false cc ++ [0x00] ++ sectionBytes) packetLen

def pcrBytes (pcr90k : Nat) : List UInt8 :=
  [UInt8.ofNat ((pcr90k >>> 25) &&& 0xff), UInt8.ofNat ((pcr90k >>> 17) &&& 0xff),
    UInt8.ofNat ((pcr90k >>> 9) &&& 0xff), UInt8.ofNat ((pcr90k >>> 1) &&& 0xff),
    UInt8.ofNat ((pcr90k &&& 1) <<< 7 ||| 0x7e), 0x00]

def capacity (af : Option (List UInt8)) : Nat :=
  packetLen - 4 - (af.map (fun v => 1 + v.length)).getD 0

/-- A short packet is filled up through its adaptation field: a flags byte and stuffing, and for
one byte of slack a length of zero. -/
def padded (af : Option (List UInt8)) (remaining : Nat) : Option (List UInt8) :=
  if remaining < capacity af then
    let want := packetLen - 5 - remaining
    let v := af.getD []
    let v := if v = [] ∧ 0 < want then [0x00] else v
    some (resize v want)
  else af

structure Muxer where
  cc : List (UInt16 × UInt8)
  sinceTables : UInt32
  audioPending : List Int16
  nextAudioPtsUs : Option UInt64
  h264Profile : UInt8
  h264Level : UInt8
  deriving DecidableEq, Repr

namespace Muxer

def new : Muxer where
  cc := []
  sinceTables := 0
  audioPending := []
  nextAudioPtsUs := none
  h264Profile := 0x01
  h264Level := 0x01

def setH264Format (m : Muxer) (profile level : UInt8) : Muxer :=
  { m with
    h264Profile := profile
    h264Level := level
    sinceTables := 0 }

def nextCc (m : Muxer) (pid : UInt16) : Muxer × UInt8 :=
  let c := ((m.cc.lookup pid).getD 0x0f + 1) &&& 0x0f
  ({ m with cc := (pid, c) :: m.cc.filter (fun entry => entry.1 ≠ pid) }, c)

def tablesIfDue (m : Muxer) : Muxer × List UInt8 :=
  if m.sinceTables ≠ 0 ∧ m.sinceTables < tableIntervalPackets then (m, [])
  else
    let pat := { m with sinceTables := 0 }.nextCc 0
    let pmt := pat.1.nextCc pmtPid
    (pmt.1, sectionPacket 0 patSection pat.2 ++
      sectionPacket pmtPid (pmtSection m.h264Profile m.h264Level) pmt.2)

def packetizeFrom (pid : UInt16) (pcr90k : Option Nat) :
    Nat → Muxer → Bool → List UInt8 → Muxer × List UInt8
  | 0, m, _, _ => (m, [])
  | fuel + 1, m, first, rest =>
      if rest = [] then (m, [])
      else
        let clock := if first then pcr90k.map (fun pcr => 0x10 :: pcrBytes pcr) else none
        let af := padded clock rest.length
        let taken := min rest.length (capacity af)
        let counted := m.nextCc pid
        let packet := header first pid af.isSome counted.2 ++
          (af.map (fun v => UInt8.ofNat v.length :: v)).getD [] ++ rest.take taken
        let later := packetizeFrom pid pcr90k fuel
          { counted.1 with sinceTables := counted.1.sinceTables + 1 } false (rest.drop taken)
        (later.1, packet ++ later.2)

def packetize (m : Muxer) (pid : UInt16) (pes : List UInt8) (pcr90k : Option Nat) :
    Muxer × List UInt8 :=
  packetizeFrom pid pcr90k pes.length m true pes

def pushVideo (m : Muxer) (au : List UInt8) (ptsUs : UInt64) : Muxer × List UInt8 :=
  let tables := m.tablesIfDue
  let sent := tables.1.packetize videoPid (pes streamIdVideo au ptsUs false)
    (some (ptsUs * 9 / 100).toNat)
  (sent.1, tables.2 ++ sent.2)

/-- A frame is taken from the samples, and the time of the next follows by its length. -/
def drained (m : Muxer) (framePts : UInt64) : Muxer :=
  { m with
    audioPending := m.audioPending.drop Lpcm.samplesPerFrame
    nextAudioPtsUs := some (UInt64.ofNat (min (framePts.toNat + audioFrameUs.toNat) (2 ^ 64 - 1))) }

def pushFrame (m : Muxer) (ptsUs : UInt64) : Muxer × List UInt8 :=
  let samples := m.audioPending.take Lpcm.samplesPerFrame
  let framePts := m.nextAudioPtsUs.getD ptsUs
  let tables := (m.drained framePts).tablesIfDue
  let sent := tables.1.packetize audioPid
    (pesWithStuffing streamIdPrivate1 (Lpcm.frame samples) framePts true 2) none
  (sent.1, tables.2 ++ sent.2)

def pushFrames (ptsUs : UInt64) : Nat → Muxer → Muxer × List UInt8
  | 0, m => (m, [])
  | fuel + 1, m =>
      if m.audioPending.length < Lpcm.samplesPerFrame then (m, [])
      else
        let first := m.pushFrame ptsUs
        let later := pushFrames ptsUs fuel first.1
        (later.1, first.2 ++ later.2)

def pushAudio (m : Muxer) (samples : List Int16) (ptsUs : UInt64) : Muxer × List UInt8 :=
  let begun := if m.audioPending = [] then { m with nextAudioPtsUs := some ptsUs } else m
  let pending := { begun with audioPending := begun.audioPending ++ samples }
  pushFrames ptsUs pending.audioPending.length pending

inductive Op where
  | video (au : List UInt8) (ptsUs : UInt64)
  | audio (samples : List Int16) (ptsUs : UInt64)
  | format (profile level : UInt8)
  deriving DecidableEq, Repr

def step (m : Muxer) : Op → Muxer × List UInt8
  | .video au ptsUs => m.pushVideo au ptsUs
  | .audio samples ptsUs => m.pushAudio samples ptsUs
  | .format profile level => (m.setH264Format profile level, [])

end Muxer

end TsMux

end Castr.Miracast.Source
