import Castr.Lib.Serial
import Castr.Proto.Header

/-! `Packetizer::packetize`, and what its datagrams are to the receiving end. -/

namespace Castr.Proto

open Castr.Lib
open Castr.Lib.Bytes (chunks chunks_flatten chunks_ne_nil)

structure CompleteFrame where
  stream : UInt8
  frameNumber : UInt32
  timestampUs : UInt64
  keyframe : Bool
  data : Bytes
  deriving DecidableEq, Repr

structure Packetizer where
  nextFrame : UInt32
  deriving DecidableEq, Repr

namespace Packetizer

def new : Packetizer := ⟨0⟩

def lastFrameNumber (p : Packetizer) : UInt32 := p.nextFrame - 1

/-- `none` is the failed assertion on the fragment count. -/
def packetize (p : Packetizer) (stream : UInt8) (keyframe : Bool) (timestampUs : UInt64)
    (data : Bytes) (maxDatagram : Nat) : Option (List Bytes × Packetizer) :=
  if data = [] then some ([], p)
  else
    let budget := max (maxDatagram - headerLen) 1
    let frameNumber := p.nextFrame
    let next : Packetizer := ⟨p.nextFrame + 1⟩
    let count := (chunks budget data).length
    if count ≤ UInt16.size - 1 then
      let out := (chunks budget data).mapIdx (fun i chunk =>
        let flags := (if keyframe then flagKeyframe else 0) |||
          (if i + 1 = count then flagEndOfFrame else 0)
        let h : DatagramHeader := {
          stream := stream
          flags := flags
          fragmentIndex := UInt16.ofNat i
          fragmentCount := UInt16.ofNat count
          frameNumber := frameNumber
          timestampUs := timestampUs }
        h.encode ++ chunk)
      some (out, next)
    else none

structure Call where
  stream : UInt8
  keyframe : Bool
  timestampUs : UInt64
  data : Bytes
  maxDatagram : Nat

/-- Every frame a list of calls puts on the wire, with its datagrams. A call with no
data sends nothing and uses no frame number. -/
def produce (p : Packetizer) : List Call → Option (List (CompleteFrame × List Bytes))
  | [] => some []
  | call :: calls => do
      let (datagrams, next) ←
        p.packetize call.stream call.keyframe call.timestampUs call.data call.maxDatagram
      let sent ← next.produce calls
      if datagrams = [] then some sent
      else
        let frame : CompleteFrame := {
          stream := call.stream
          frameNumber := next.lastFrameNumber
          timestampUs := call.timestampUs
          keyframe := call.keyframe
          data := call.data }
        some ((frame, datagrams) :: sent)

end Packetizer

structure Fragmented where
  frame : CompleteFrame
  payloads : List Bytes
  nonempty : payloads ≠ []
  countable : payloads.length ≤ UInt16.size - 1
  whole : payloads.flatten = frame.data

namespace Fragmented

variable (f : Fragmented)

def count : Nat := f.payloads.length

def payload (index : Nat) : Bytes := f.payloads.getD index []

def header (index : Nat) : DatagramHeader where
  stream := f.frame.stream
  flags := (if f.frame.keyframe then flagKeyframe else 0) |||
    (if index + 1 = f.count then flagEndOfFrame else 0)
  fragmentIndex := UInt16.ofNat index
  fragmentCount := UInt16.ofNat f.count
  frameNumber := f.frame.frameNumber
  timestampUs := f.frame.timestampUs

def datagram (index : Nat) : Bytes := (f.header index).encode ++ f.payload index

def datagrams : List Bytes := (List.range f.count).map f.datagram

theorem count_pos : 0 < f.count := List.length_pos_of_ne_nil f.nonempty

theorem count_lt : f.count < UInt16.size := by
  have bound := f.countable
  unfold count UInt16.size at *
  omega

@[simp] theorem header_keyframe (index : Nat) : (f.header index).isKeyframe = f.frame.keyframe := by
  simp only [DatagramHeader.isKeyframe, header]
  by_cases last : index + 1 = f.count
  · rw [if_pos last]
    cases f.frame.keyframe <;> rfl
  · rw [if_neg last]
    cases f.frame.keyframe <;> rfl

@[simp] theorem header_count (index : Nat) : (f.header index).fragmentCount.toNat = f.count := by
  simp only [header, UInt16.toNat_ofNat']
  exact Nat.mod_eq_of_lt f.count_lt

theorem header_index (index : Nat) (inside : index < f.count) :
    (f.header index).fragmentIndex.toNat = index := by
  simp only [header, UInt16.toNat_ofNat']
  exact Nat.mod_eq_of_lt (Nat.lt_trans inside f.count_lt)

theorem mem_datagrams (datagram : Bytes) :
    datagram ∈ f.datagrams ↔ ∃ index < f.count, f.datagram index = datagram := by
  simp [datagrams]

theorem decode_datagram (index : Nat) (known : KnownStream f.frame.stream) :
    DatagramHeader.decode (f.datagram index) = .ok (f.header index, f.payload index) :=
  DatagramHeader.decode_encode (f.header index) (f.payload index) known

theorem payloads_eq : f.payloads = (List.range f.count).map f.payload := by
  apply List.ext_getElem
  · simp [count]
  · intro index inside _
    simp [payload, inside]

end Fragmented

theorem packetize_fragmented (p next : Packetizer) (stream : UInt8) (keyframe : Bool)
    (timestampUs : UInt64) (data : Bytes) (maxDatagram : Nat) (datagrams : List Bytes)
    (some : data ≠ [])
    (sent : p.packetize stream keyframe timestampUs data maxDatagram = .some (datagrams, next)) :
    next.nextFrame = p.nextFrame + 1 ∧ ∃ f : Fragmented,
      f.frame = ⟨stream, p.nextFrame, timestampUs, keyframe, data⟩ ∧ f.datagrams = datagrams := by
  simp only [Packetizer.packetize, if_neg some] at sent
  split at sent
  · rename_i countable
    cases sent
    have positive : 0 < max (maxDatagram - headerLen) 1 := by omega
    refine ⟨rfl, ⟨⟨stream, p.nextFrame, timestampUs, keyframe, data⟩,
      chunks (max (maxDatagram - headerLen) 1) data, chunks_ne_nil _ data positive some,
      countable, chunks_flatten _ data positive⟩, rfl, ?_⟩
    apply List.ext_getElem
    · simp [Fragmented.datagrams, Fragmented.count]
    · intro index _ inside
      have bound : index < (chunks (max (maxDatagram - headerLen) 1) data).length := by
        simpa using inside
      simp [Fragmented.datagrams, Fragmented.datagram, Fragmented.header, Fragmented.payload,
        Fragmented.count, bound]
  · cases sent

/-- The frames of one packetizer: consecutive numbers from the one it starts at. -/
structure FrameStream where
  start : UInt32
  frames : List Fragmented
  numbered : ∀ index (inside : index < frames.length),
    frames[index].frame.frameNumber = start + UInt32.ofNat index

theorem produce_stream (p : Packetizer) (calls : List Packetizer.Call)
    (sent : List (CompleteFrame × List Bytes)) (produced : p.produce calls = some sent) :
    ∃ stream : FrameStream, stream.start = p.nextFrame ∧
      sent = stream.frames.map (fun f => (f.frame, f.datagrams)) := by
  induction calls generalizing p sent with
  | nil =>
      cases produced
      exact ⟨⟨p.nextFrame, [], by simp⟩, rfl, rfl⟩
  | cons call calls ih =>
      simp only [Packetizer.produce, Option.bind_eq_bind, Option.bind_eq_some_iff] at produced
      obtain ⟨⟨datagrams, next⟩, packetized, rest, tail, result⟩ := produced
      obtain ⟨later, laterStart, rfl⟩ := ih next rest tail
      by_cases empty : call.data = []
      · simp only [Packetizer.packetize, empty, if_true, Option.some.injEq, Prod.mk.injEq]
          at packetized
        obtain ⟨rfl, rfl⟩ := packetized
        simp only [if_true, Option.some.injEq] at result
        exact ⟨later, laterStart, result.symm⟩
      · obtain ⟨advanced, f, frame, rfl⟩ :=
          packetize_fragmented p next call.stream call.keyframe call.timestampUs call.data
            call.maxDatagram datagrams empty packetized
        have some : f.datagrams ≠ [] := by
          have positive := f.count_pos
          simp only [Fragmented.datagrams, ne_eq, List.map_eq_nil_iff, List.range_eq_nil]
          omega
        have number : next.lastFrameNumber = p.nextFrame := by
          rw [Packetizer.lastFrameNumber, advanced, UInt32.add_sub_cancel]
        simp only [if_neg some, Option.some.injEq, number] at result
        refine ⟨⟨p.nextFrame, f :: later.frames, ?_⟩, rfl, ?_⟩
        · intro index inside
          cases index with
          | zero => simp [frame]
          | succ index =>
              rw [List.getElem_cons_succ, later.numbered, laterStart, advanced,
                UInt32.ofNat_add, UInt32.add_assoc, UInt32.add_comm 1]
              rfl
        · rw [← result, List.map_cons, frame]

end Castr.Proto
