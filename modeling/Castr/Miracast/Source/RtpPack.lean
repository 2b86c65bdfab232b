import Castr.Miracast.Rtp

/-! RTP packetization at the source: transport packets, seven to a datagram. -/

namespace Castr.Miracast.Source.RtpPack

open Castr.Lib.Bytes

def payloadType : UInt8 := 33
def packetsPerDatagram : Nat := 7
def packetLen : Nat := 188

structure Packetizer where
  ssrc : UInt32
  sequence : UInt16
  deriving DecidableEq, Repr

namespace Packetizer

def new (ssrc : UInt32) : Packetizer := ⟨ssrc, 0⟩

def datagram (p : Packetizer) (timestamp90k : UInt32) (group : List UInt8) : List UInt8 :=
  0x80 :: payloadType :: ((leBytes 2 p.sequence.toNat).reverse ++
    (leBytes 4 timestamp90k.toNat).reverse ++ (leBytes 4 p.ssrc.toNat).reverse ++ group)

def pushGroups (p : Packetizer) (timestamp90k : UInt32) :
    List (List UInt8) → Packetizer × List (List UInt8)
  | [] => (p, [])
  | group :: groups =>
      let rest := { p with sequence := p.sequence + 1 }.pushGroups timestamp90k groups
      (rest.1, p.datagram timestamp90k group :: rest.2)

def push (p : Packetizer) (tsPackets : List UInt8) (timestamp90k : UInt32) :
    Packetizer × List (List UInt8) :=
  p.pushGroups timestamp90k (chunks (packetsPerDatagram * packetLen) tsPackets)

def pushAll (p : Packetizer) : List (List UInt8 × UInt32) → Packetizer × List (List UInt8)
  | [] => (p, [])
  | sent :: later =>
      let first := p.push sent.1 sent.2
      let rest := first.1.pushAll later
      (rest.1, first.2 ++ rest.2)

end Packetizer

end Castr.Miracast.Source.RtpPack
