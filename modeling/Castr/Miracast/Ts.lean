import Castr.Lib.Bytes

/-! The MPEG-TS demultiplexer of the sink: whole packets in, access units out. -/

namespace Castr.Miracast.Ts

open Castr.Lib.Bytes

def packetLen : Nat := 188
def sync : UInt8 := 0x47
def streamTypeH264 : UInt8 := 0x1b
def streamTypeLpcm : UInt8 := 0x83

inductive AccessUnit where
  | video (data : List UInt8) (ptsUs : Option Nat)
  | audio (data : List UInt8) (ptsUs : Option Nat)
  deriving DecidableEq, Repr

inductive Track where
  | video
  | audio
  deriving DecidableEq, Repr

def Track.unit : Track → List UInt8 → Option Nat → AccessUnit
  | .video => .video
  | .audio => .audio

/-- An access unit on its way; a header may say how long it will be. -/
structure Assembly where
  data : List UInt8
  ptsUs : Option Nat
  damaged : Bool
  isOpen : Bool
  expected : Option Nat
  deriving DecidableEq, Repr

namespace Assembly

def new : Assembly := ⟨[], none, false, false, none⟩

def append (asm : Assembly) (bytes : List UInt8) : Assembly :=
  match asm.expected with
  | some want => { asm with data := asm.data ++ bytes.take (want - asm.data.length) }
  | none => { asm with data := asm.data ++ bytes }

def complete (asm : Assembly) : Bool := asm.expected.any (fun want => want ≤ asm.data.length)

end Assembly

structure Pes where
  ptsUs : Option Nat
  payloadLen : Option Nat
  body : List UInt8
  deriving DecidableEq, Repr

/-- The five bytes of a timestamp in 90 kHz, as microseconds. -/
def readPts (b : List UInt8) : Nat :=
  let at_ := fun index => (b.getD index 0).toNat
  (((at_ 0 / 2) % 8) * 2 ^ 30 + at_ 1 * 2 ^ 22 + ((at_ 2 / 2) % 128) * 2 ^ 15 + at_ 3 * 2 ^ 7 +
    at_ 4 / 2) * 1000000 / 90000

def parsePes (p : List UInt8) : Option Pes :=
  if p.length < 9 ∨ p.take 3 ≠ [0, 0, 1] then none
  else
    let packetLen := readBe ((p.drop 4).take 2)
    let headerLen := (p.getD 8 0).toNat
    if p.length < 9 + headerLen then none
    else some {
      ptsUs := if p.getD 7 0 &&& 0x80 ≠ 0 ∧ 5 ≤ headerLen then some (readPts ((p.drop 9).take 5))
        else none
      payloadLen := if 3 + headerLen ≤ packetLen then some (packetLen - (3 + headerLen)) else none
      body := p.drop (9 + headerLen) }

/-- A new unit starts: the one before it is done, if it is whole. -/
def Assembly.restart (asm : Assembly) (payload : List UInt8) :
    Assembly × Option (List UInt8 × Option Nat) :=
  let done :=
    if asm.isOpen ∧ !asm.damaged ∧ asm.data ≠ [] then some (asm.data, asm.ptsUs) else none
  let next :=
    match parsePes payload with
    | some pes =>
        { asm with
          data := []
          damaged := false
          isOpen := true
          ptsUs := pes.ptsUs
          expected := pes.payloadLen }.append pes.body
    | none => { asm with data := [], damaged := true, isOpen := false, expected := none }
  (next, done)

def Assembly.finish (asm : Assembly) : Assembly × Option (List UInt8 × Option Nat) :=
  if asm.isOpen ∧ asm.complete ∧ !asm.damaged then
    ({ asm with data := [], isOpen := false, expected := none }, some (asm.data, asm.ptsUs))
  else (asm, none)

def Assembly.take (asm : Assembly) (payload : List UInt8) (start : Bool) :
    Assembly × List (List UInt8 × Option Nat) :=
  let fed :=
    if start then asm.restart payload
    else (if asm.isOpen then asm.append payload else asm, none)
  let done := fed.1.finish
  (done.1, fed.2.toList ++ done.2.toList)

structure Demux where
  pmtPid : Option UInt16
  videoPid : Option UInt16
  audioPid : Option UInt16
  video : Assembly
  audio : Assembly
  lastCc : List (UInt16 × UInt8)
  continuityErrors : Nat
  deriving DecidableEq, Repr

/-- A table id, a PID or a length: the low bits of two bytes. -/
def low (bits : Nat) (hi lo : UInt8) : Nat := readBe [hi, lo] % 2 ^ bits

def pidOf (hi lo : UInt8) : UInt16 := UInt16.ofNat (low 13 hi lo)

namespace Demux

def new : Demux where
  pmtPid := none
  videoPid := none
  audioPid := none
  video := .new
  audio := .new
  lastCc := []
  continuityErrors := 0

def assembly (d : Demux) : Track → Assembly
  | .video => d.video
  | .audio => d.audio

def setAssembly (d : Demux) (track : Track) (asm : Assembly) : Demux :=
  match track with
  | .video => { d with video := asm }
  | .audio => { d with audio := asm }

def trackOf (d : Demux) (pid : UInt16) : Option Track :=
  if d.videoPid = some pid then some .video
  else if d.audioPid = some pid then some .audio
  else none

def sectionOf (payload : List UInt8) (start : Bool) (tableId : UInt8) : Option (List UInt8) :=
  if start = false ∨ payload = [] ∨ payload.length < 1 + (payload.getD 0 0).toNat then none
  else
    let s := payload.drop (1 + (payload.getD 0 0).toNat)
    if s.length < 12 ∨ s.getD 0 0 ≠ tableId then none else some s

def readPat (d : Demux) (payload : List UInt8) (start : Bool) : Demux :=
  match sectionOf payload start 0x00 with
  | none => d
  | some s =>
      let pid := pidOf (s.getD 10 0) (s.getD 11 0)
      if pid ≠ 0 then { d with pmtPid := some pid } else d

def readStreams (d : Demux) (s : List UInt8) (stop : Nat) : Nat → Nat → Demux
  | 0, _ => d
  | fuel + 1, i =>
      if i + 5 ≤ stop then
        let pid := pidOf (s.getD (i + 1) 0) (s.getD (i + 2) 0)
        let named :=
          if s.getD i 0 = streamTypeH264 then { d with videoPid := some pid }
          else if s.getD i 0 = streamTypeLpcm then { d with audioPid := some pid }
          else d
        readStreams named s stop fuel (i + 5 + low 12 (s.getD (i + 3) 0) (s.getD (i + 4) 0))
      else d

def readPmt (d : Demux) (payload : List UInt8) (start : Bool) : Demux :=
  match sectionOf payload start 0x02 with
  | none => d
  | some s =>
      let sectionLen := low 12 (s.getD 1 0) (s.getD 2 0) + 3
      if sectionLen < 16 then d
      else readStreams d s (min (sectionLen - 4) s.length) s.length
        (12 + low 12 (s.getD 10 0) (s.getD 11 0))

def countContinuity (d : Demux) (pid : UInt16) (cc : UInt8) : Demux :=
  let broken := (d.lastCc.lookup pid).any (fun last => cc ≠ (last + 1) &&& 0x0f)
  let seen := { d with lastCc := (pid, cc) :: d.lastCc.filter (fun entry => entry.1 ≠ pid) }
  if broken then
    let counted := { seen with continuityErrors := d.continuityErrors + 1 }
    match d.trackOf pid with
    | some track => counted.setAssembly track { d.assembly track with damaged := true }
    | none => counted
  else seen

end Demux

def payloadOf (packet : List UInt8) : Option (List UInt8) :=
  let flags := packet.getD 3 0
  let off := if flags &&& 0x20 ≠ 0 then 5 + (packet.getD 4 0).toNat else 4
  if flags &&& 0x10 = 0 ∨ packetLen ≤ off then none else some (packet.drop off)

def Demux.push (d : Demux) (packet : List UInt8) : Demux × List AccessUnit :=
  if packet.length ≠ packetLen ∨ packet.getD 0 0 ≠ sync then (d, [])
  else
    match payloadOf packet with
    | none => (d, [])
    | some payload =>
        let pid := pidOf (packet.getD 1 0) (packet.getD 2 0)
        let start : Bool := packet.getD 1 0 &&& 0x40 ≠ 0
        let d := d.countContinuity pid (packet.getD 3 0 &&& 0x0f)
        if pid = 0 then (d.readPat payload start, [])
        else if d.pmtPid = some pid then (d.readPmt payload start, [])
        else
          match d.trackOf pid with
          | none => (d, [])
          | some track =>
              let fed := (d.assembly track).take payload start
              (d.setAssembly track fed.1, fed.2.map (fun unit => track.unit unit.1 unit.2))

end Castr.Miracast.Ts
