import Castr.Lib.Bytes

/-! RTP packets, and the short window in which late ones are waited for. -/

namespace Castr.Miracast.Rtp

open Castr.Lib.Bytes

structure Packet where
  sequence : UInt16
  timestamp : UInt32
  payloadType : UInt8
  payload : List UInt8
  deriving DecidableEq, Repr

def payloadStart (buf : List UInt8) : Option Nat :=
  let off := 12 + (buf.getD 0 0 &&& 0x0f).toNat * 4
  if buf.getD 0 0 &&& 0x10 ≠ 0 then
    if buf.length < off + 4 then none
    else some (off + 4 + readBe [buf.getD (off + 2) 0, buf.getD (off + 3) 0] * 4)
  else some off

def parse (buf : List UInt8) : Option Packet :=
  if buf.length < 12 ∨ buf.getD 0 0 >>> 6 ≠ 2 then none
  else
    match payloadStart buf with
    | none => none
    | some off =>
        if buf.length < off then none
        else some {
          sequence := UInt16.ofNat (readBe ((buf.drop 2).take 2))
          timestamp := UInt32.ofNat (readBe ((buf.drop 4).take 4))
          payloadType := buf.getD 1 0 &&& 0x7f
          payload := buf.drop off }

def seqGe (a b : UInt16) : Bool := a - b < 0x8000

structure Reorder where
  window : Nat
  held : List Packet
  next : Option UInt16
  lost : Nat
  deriving DecidableEq, Repr

namespace Reorder

def new (window : Nat) : Reorder := ⟨window, [], none, 0⟩

def stale (r : Reorder) (seq : UInt16) : Bool :=
  r.next.any (fun next => !seqGe seq next) || r.held.any (fun h => h.sequence = seq)

def insert (r : Reorder) (p : Packet) : List Packet :=
  r.held.insertIdx (r.held.findIdx (fun h => seqGe h.sequence p.sequence)) p

def release (window : Nat) (next : Option UInt16) (lost : Nat) :
    List Packet → Reorder × List Packet
  | [] => (⟨window, [], next, lost⟩, [])
  | head :: rest =>
      match next with
      | none =>
          let later := release window (some (head.sequence + 1)) lost rest
          (later.1, head :: later.2)
      | some seq =>
          if head.sequence = seq then
            let later := release window (some (head.sequence + 1)) lost rest
            (later.1, head :: later.2)
          else if window < (head :: rest).length then
            let later := release window (some (head.sequence + 1))
              (lost + max (head.sequence - seq).toNat 1) rest
            (later.1, head :: later.2)
          else (⟨window, head :: rest, some seq, lost⟩, [])

def push (r : Reorder) (p : Packet) : Reorder × List Packet :=
  if r.stale p.sequence then (r, []) else release r.window r.next r.lost (r.insert p)

end Reorder

end Castr.Miracast.Rtp
