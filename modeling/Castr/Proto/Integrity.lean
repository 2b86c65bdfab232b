import Castr.Proto.Gathering

/-! What a reassembler returns is what was packetized, and at most once. -/

namespace Castr.Proto.Reassembler

open Castr.Lib
open Castr.Lib.Run

theorem drawn_of_sent (s : FrameStream) (datagram : Bytes)
    (member : ∃ frame ∈ s.frames.map (fun f => (f.frame, f.datagrams)), datagram ∈ frame.2) :
    Drawn s datagram := by
  obtain ⟨frame, present, inside⟩ := member
  obtain ⟨f, here, rfl⟩ := List.mem_map.mp present
  obtain ⟨index, bound, rfl⟩ := List.mem_iff_getElem.mp here
  obtain ⟨piece, within, rfl⟩ := (Fragmented.mem_datagrams _ _).mp inside
  exact ⟨index, bound, piece, within, rfl⟩

theorem frame_unique (s : FrameStream) (short : s.Short) (first second : Nat) (c d : CompleteFrame)
    (firstFound : s.frame first = some c) (secondFound : s.frame second = some d)
    (same : c.frameNumber = d.frameNumber) : first = second := by
  obtain ⟨firstInside, firstNumber⟩ := s.frame_number first c firstFound
  obtain ⟨secondInside, secondNumber⟩ := s.frame_number second d secondFound
  exact FrameStream.number_injective short first second firstInside secondInside
    (firstNumber.symm.trans (same.trans secondNumber))

/-- Under any loss, duplication, reordering and delay, every frame a run returns is exactly
one of those packetized, and no frame number is returned twice. -/
theorem reassembly_integrity (p : Packetizer) (calls : List Packetizer.Call)
    (sent : List (CompleteFrame × List Bytes)) (produced : p.produce calls = some sent)
    (few : sent.length < 2 ^ 31) (maxAgeUs : UInt64) (ops : List Op)
    (drawn : ∀ datagram nowUs, Op.push datagram nowUs ∈ ops →
      ∃ frame ∈ sent, datagram ∈ frame.2) :
    (∀ c ∈ (new maxAgeUs).returned ops, ∃! index : Fin sent.length, sent[index].1 = c) ∧
      (((new maxAgeUs).returned ops).map CompleteFrame.frameNumber).Nodup := by
  obtain ⟨s, _, rfl⟩ := produce_stream p calls sent produced
  have short : s.Short := by simpa [FrameStream.Short] using few
  obtain ⟨_, same⟩ := simulated short (refines_init s maxAgeUs) ops
    (fun datagram nowUs fed => drawn_of_sent s datagram (drawn datagram nowUs fed))
  rw [same]
  constructor
  · intro c member
    obtain ⟨message, _, found⟩ := List.mem_filterMap.mp member
    obtain ⟨inside, _⟩ := s.frame_number message c found
    refine ⟨⟨message, by simpa using inside⟩, ?_, ?_⟩
    · simpa [FrameStream.frame_of, inside] using found
    · intro other equal
      have here : (other : Nat) < s.frames.length := by simpa using other.isLt
      have known : s.frame other = some c := by
        rw [s.frame_of other here, ← equal]
        simp
      exact Fin.ext (frame_unique s short other message c c known found rfl)
  · have once := (Gather.finished_once s.size (trace s (new maxAgeUs) ops)).1
    rw [List.map_filterMap]
    refine once.filterMap ?_
    intro first second number firstFound secondFound
    obtain ⟨c, firstFrame, firstNumber⟩ := Option.map_eq_some_iff.mp firstFound
    obtain ⟨d, secondFrame, secondNumber⟩ := Option.map_eq_some_iff.mp secondFound
    exact frame_unique s short first second c d firstFrame secondFrame
      (firstNumber.trans secondNumber.symm)

/-- Two frames across the wrap of the frame number, the first one in two fragments. -/
def wrappingCalls : List Packetizer.Call :=
  [⟨streamVideo, true, 5, [1, 2], 21⟩, ⟨streamAudio, false, 9, [3], 21⟩]

def wrappingFragment (flags index : UInt8) (payload : UInt8) : Bytes :=
  [0, flags, index, 0, 2, 0, 0, 0, 255, 255, 255, 255, 5, 0, 0, 0, 0, 0, 0, 0, payload]

def wrappingSent : List (CompleteFrame × List Bytes) :=
  [(⟨0, 4294967295, 5, true, [1, 2]⟩, [wrappingFragment 1 0 1, wrappingFragment 3 1 2]),
    (⟨1, 0, 9, false, [3]⟩, [[1, 2, 0, 0, 1, 0, 0, 0, 0, 0, 0, 0, 9, 0, 0, 0, 0, 0, 0, 0, 3]])]

/-- Half a frame, the newer one, a duplicate of it, a tick, and the late other half. -/
def wrappingOps : List Op :=
  [.push (wrappingFragment 3 1 2) 10,
    .push [1, 2, 0, 0, 1, 0, 0, 0, 0, 0, 0, 0, 9, 0, 0, 0, 0, 0, 0, 0, 3] 20,
    .push [1, 2, 0, 0, 1, 0, 0, 0, 0, 0, 0, 0, 9, 0, 0, 0, 0, 0, 0, 0, 3] 30,
    .tick 40 5 150000,
    .push (wrappingFragment 1 0 1) 50]

theorem wrapping_drawn (datagram : Bytes) (nowUs : UInt64)
    (fed : Op.push datagram nowUs ∈ wrappingOps) : ∃ frame ∈ wrappingSent, datagram ∈ frame.2 := by
  simp only [wrappingOps, wrappingSent, List.mem_cons, List.not_mem_nil, Op.push.injEq] at fed ⊢
  rcases fed with ⟨rfl, _⟩ | ⟨rfl, _⟩ | ⟨rfl, _⟩ | tick | ⟨rfl, _⟩ | absent <;> simp at *

theorem reassembly_integrity_wrapping :
    (new 500000).returned wrappingOps =
      [⟨1, 0, 9, false, [3]⟩, ⟨0, 4294967295, 5, true, [1, 2]⟩] ∧
    (∀ c ∈ (new 500000).returned wrappingOps,
      ∃! index : Fin wrappingSent.length, wrappingSent[index].1 = c) ∧
    (((new 500000).returned wrappingOps).map CompleteFrame.frameNumber).Nodup :=
  ⟨by decide +kernel, reassembly_integrity ⟨4294967295⟩ wrappingCalls wrappingSent (by decide)
    (by decide) 500000 wrappingOps wrapping_drawn⟩

end Castr.Proto.Reassembler
