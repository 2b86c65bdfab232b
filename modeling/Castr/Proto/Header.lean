import Castr.Lib.Bytes

/-! The datagram header of `castr-proto`: twenty bytes in front of every fragment. -/

namespace Castr.Proto

open Castr.Lib.Bytes

abbrev Bytes := List UInt8

def headerLen : Nat := 20
def streamVideo : UInt8 := 0
def streamAudio : UInt8 := 1
def flagKeyframe : UInt8 := 0b01
def flagEndOfFrame : UInt8 := 0b10

structure DatagramHeader where
  stream : UInt8
  flags : UInt8
  fragmentIndex : UInt16
  fragmentCount : UInt16
  frameNumber : UInt32
  timestampUs : UInt64
  deriving DecidableEq, Repr

inductive HeaderError where
  | tooShort
  | unknownStream (stream : UInt8)
  deriving DecidableEq, Repr

/-- The stream ids that `decode` lets through. -/
def KnownStream (stream : UInt8) : Prop := stream = streamVideo ∨ stream = streamAudio

instance (stream : UInt8) : Decidable (KnownStream stream) :=
  inferInstanceAs (Decidable (_ ∨ _))

namespace DatagramHeader

def encode (h : DatagramHeader) : Bytes :=
  [h.stream, h.flags] ++ leBytes 2 h.fragmentIndex.toNat ++ leBytes 2 h.fragmentCount.toNat ++
    [0, 0] ++ leBytes 4 h.frameNumber.toNat ++ leBytes 8 h.timestampUs.toNat

def field (buf : Bytes) (low high : Nat) : Nat := readLe ((buf.drop low).take (high - low))

def decode (buf : Bytes) : Except HeaderError (DatagramHeader × Bytes) :=
  if buf.length < headerLen then .error .tooShort
  else
    let stream := buf.getD 0 0
    if stream ≠ streamVideo ∧ stream ≠ streamAudio then .error (.unknownStream stream)
    else
      let h : DatagramHeader := {
        stream := stream
        flags := buf.getD 1 0
        fragmentIndex := UInt16.ofNat (field buf 2 4)
        fragmentCount := UInt16.ofNat (field buf 4 6)
        frameNumber := UInt32.ofNat (field buf 8 12)
        timestampUs := UInt64.ofNat (field buf 12 20) }
      .ok (h, buf.drop headerLen)

def isKeyframe (h : DatagramHeader) : Bool := h.flags &&& flagKeyframe != 0

@[simp] theorem encode_length (h : DatagramHeader) : h.encode.length = headerLen := by
  simp [encode, headerLen]

private theorem field_at (front value back : Bytes) (low high : Nat)
    (start : front.length = low) (width : value.length = high - low) :
    field (front ++ value ++ back) low high = readLe value := by
  rw [field, List.append_assoc, List.drop_left' start, List.take_left' width]

theorem decode_encode (h : DatagramHeader) (payload : Bytes) (known : KnownStream h.stream) :
    decode (h.encode ++ payload) = .ok (h, payload) := by
  have long : ¬ (h.encode ++ payload).length < headerLen := by simp
  have stream : (h.encode ++ payload).getD 0 0 = h.stream := rfl
  have flags : (h.encode ++ payload).getD 1 0 = h.flags := rfl
  have index : field (h.encode ++ payload) 2 4 = h.fragmentIndex.toNat := by
    rw [show h.encode ++ payload = [h.stream, h.flags] ++ leBytes 2 h.fragmentIndex.toNat ++
      (leBytes 2 h.fragmentCount.toNat ++ [0, 0] ++ leBytes 4 h.frameNumber.toNat ++
        leBytes 8 h.timestampUs.toNat ++ payload) by simp [encode],
      field_at _ _ _ 2 4 rfl (by simp), readLe_leBytes _ _ h.fragmentIndex.toNat_lt]
  have count : field (h.encode ++ payload) 4 6 = h.fragmentCount.toNat := by
    rw [show h.encode ++ payload = ([h.stream, h.flags] ++ leBytes 2 h.fragmentIndex.toNat) ++
      leBytes 2 h.fragmentCount.toNat ++ ([0, 0] ++ leBytes 4 h.frameNumber.toNat ++
        leBytes 8 h.timestampUs.toNat ++ payload) by simp [encode],
      field_at _ _ _ 4 6 (by simp) (by simp), readLe_leBytes _ _ h.fragmentCount.toNat_lt]
  have number : field (h.encode ++ payload) 8 12 = h.frameNumber.toNat := by
    rw [show h.encode ++ payload = ([h.stream, h.flags] ++ leBytes 2 h.fragmentIndex.toNat ++
      leBytes 2 h.fragmentCount.toNat ++ [0, 0]) ++ leBytes 4 h.frameNumber.toNat ++
        (leBytes 8 h.timestampUs.toNat ++ payload) by simp [encode],
      field_at _ _ _ 8 12 (by simp) (by simp), readLe_leBytes _ _ h.frameNumber.toNat_lt]
  have timestamp : field (h.encode ++ payload) 12 20 = h.timestampUs.toNat := by
    rw [show h.encode ++ payload = ([h.stream, h.flags] ++ leBytes 2 h.fragmentIndex.toNat ++
      leBytes 2 h.fragmentCount.toNat ++ [0, 0] ++ leBytes 4 h.frameNumber.toNat) ++
        leBytes 8 h.timestampUs.toNat ++ payload by simp [encode],
      field_at _ _ _ 12 20 (by simp) (by simp), readLe_leBytes _ _ h.timestampUs.toNat_lt]
  have known' : ¬ (h.stream ≠ streamVideo ∧ h.stream ≠ streamAudio) := by
    rcases known with video | audio
    · exact fun both => both.1 video
    · exact fun both => both.2 audio
  unfold decode
  rw [if_neg long, stream, if_neg known', flags, index, count, number, timestamp]
  simp [List.drop_left' (encode_length h)]

theorem decode_unknown (h : DatagramHeader) (payload : Bytes) (unknown : ¬ KnownStream h.stream) :
    decode (h.encode ++ payload) = .error (.unknownStream h.stream) := by
  have long : ¬ (h.encode ++ payload).length < headerLen := by simp
  have stream : (h.encode ++ payload).getD 0 0 = h.stream := rfl
  unfold decode
  rw [if_neg long, stream, if_pos (not_or.mp unknown)]

end DatagramHeader

end Castr.Proto
