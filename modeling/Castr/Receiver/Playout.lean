import Castr.Media.Order
import Castr.Proto.Integrity

/-! The video path of the receiver: a reassembler in front of the jitter buffer.

The network loop feeds the reassembler and queues each video frame it completes; the decode
thread pops. -/

namespace Castr.Receiver

open Castr.Lib.Run
open Castr.Proto
open Castr.Media

structure Playout where
  reassembler : Reassembler
  jitter : JitterBuffer

inductive PlayoutEvent where
  /-- The clock is read again when a completed frame is queued. -/
  | datagram (d : Bytes) (nowUs queuedUs : UInt64)
  | tick (nowUs rttUs : UInt64)
  | pop (nowUs : UInt64)

namespace PlayoutEvent

def nowUs : PlayoutEvent → UInt64
  | .datagram _ nowUs _ => nowUs
  | .tick nowUs _ => nowUs
  | .pop nowUs => nowUs

def datagram? : PlayoutEvent → Option Bytes
  | .datagram d _ _ => some d
  | _ => none

def op? : PlayoutEvent → Option Reassembler.Op
  | .datagram d nowUs _ => if d.head? = some streamVideo then some (.push d nowUs) else none
  | .tick nowUs rttUs => some (.tick nowUs rttUs gapWaitUs)
  | .pop _ => none

end PlayoutEvent

inductive PlayoutAnswer where
  | received (completed : Option CompleteFrame)
  | nacks (nacks : List Nack)
  | popped (exit : PopExit) (frame : Option CompleteFrame)

namespace Playout

def new (maxAgeUs : UInt64) (mode : Mode) (intervalUs : UInt64) : Playout where
  reassembler := Reassembler.new maxAgeUs
  jitter := JitterBuffer.new mode intervalUs

/-- Datagrams of other streams go to the audio reassembler. -/
def step (p : Playout) : PlayoutEvent → Playout × PlayoutAnswer
  | .datagram d nowUs queuedUs =>
      if d.head? = some streamVideo then
        match p.reassembler.push d nowUs with
        | (.ok (some f), reassembler) =>
            if f.stream = streamVideo then
              ({ reassembler := reassembler, jitter := p.jitter.push f queuedUs },
                .received (some f))
            else ({ p with reassembler := reassembler }, .received none)
        | (_, reassembler) => ({ p with reassembler := reassembler }, .received none)
      else (p, .received none)
  | .tick nowUs rttUs =>
      ({ p with reassembler := (p.reassembler.tick nowUs rttUs gapWaitUs).2 },
        .nacks (p.reassembler.tick nowUs rttUs gapWaitUs).1)
  | .pop nowUs =>
      ({ p with jitter := (p.jitter.pop nowUs).buffer },
        .popped (p.jitter.pop nowUs).exit (p.jitter.pop nowUs).frame)

end Playout

def PlayoutAnswer.completed : PlayoutAnswer → Option CompleteFrame
  | .received f => f
  | _ => none

/-- The datagrams that a list of events brings. -/
def received (events : List PlayoutEvent) : List Bytes := events.filterMap PlayoutEvent.datagram?

/-- The frames completed and queued in the course of a list of events. -/
def completed (p : Playout) (events : List PlayoutEvent) : List CompleteFrame :=
  (outputs Playout.step p events).filterMap PlayoutAnswer.completed

theorem completed_snoc (p : Playout) (events : List PlayoutEvent) (event : PlayoutEvent) :
    completed p (events ++ [event]) =
      completed p events ++ ((final Playout.step p events).step event).2.completed.toList := by
  unfold completed
  rw [outputs_snoc, List.filterMap_append]
  cases frame : ((final Playout.step p events).step event).2.completed <;> simp [frame]

theorem received_snoc (events : List PlayoutEvent) (event : PlayoutEvent) :
    received (events ++ [event]) = received events ++ event.datagram?.toList := by
  unfold received
  rw [List.filterMap_append]
  cases frame : event.datagram? <;> simp [frame]

theorem received_prefix (front back : List PlayoutEvent) (d : Bytes) (member : d ∈ received front) :
    d ∈ received (front ++ back) := by
  unfold received at member ⊢
  rw [List.filterMap_append]
  exact List.mem_append_left _ member

theorem step_reassembler (p : Playout) (event : PlayoutEvent) :
    (p.step event).1.reassembler = final Reassembler.step p.reassembler event.op?.toList := by
  cases event with
  | datagram d nowUs queuedUs =>
      simp only [Playout.step, PlayoutEvent.op?]
      split
      · simp only [Option.toList_some, final_cons, final_nil, Reassembler.step]
        split
        · rename_i f reassembler pushed
          split <;> simp [pushed]
        · rename_i answer reassembler other pushed
          simp [pushed]
      · rfl
  | tick nowUs rttUs => rfl
  | pop nowUs => rfl

section Stream

variable {s : FrameStream} (short : s.Short)
  (video : ∀ f ∈ s.frames, f.frame.stream = streamVideo)
include video

theorem datagram_video (index piece : Nat) (inside : index < s.frames.length) :
    (s.frames[index].datagram piece).head? = some streamVideo := by
  rw [← video _ (List.getElem_mem inside)]
  rfl

include short

theorem datagram_cases (p : Playout) (g : Castr.Lib.Gather.State)
    (refines : Reassembler.Refines s p.reassembler g) (index piece : Nat)
    (inside : index < s.frames.length) (within : piece < s.frames[index].count)
    (nowUs queuedUs : UInt64) :
    ((p.step (.datagram (s.frames[index].datagram piece) nowUs queuedUs)).1.jitter = p.jitter ∧
      (p.step (.datagram (s.frames[index].datagram piece) nowUs queuedUs)).2.completed = none) ∨
    ((p.step (.datagram (s.frames[index].datagram piece) nowUs queuedUs)).1.jitter =
        p.jitter.push s.frames[index].frame queuedUs ∧
      (p.step (.datagram (s.frames[index].datagram piece) nowUs queuedUs)).2.completed =
        some s.frames[index].frame) := by
  have stream := video _ (List.getElem_mem inside)
  have known : KnownStream s.frames[index].frame.stream := Or.inl stream
  obtain ⟨_, answer⟩ :=
    Reassembler.refines_piece short refines index piece nowUs inside within known
  have head := datagram_video video index piece inside
  generalize pushed : p.reassembler.push (s.frames[index].datagram piece) nowUs = result at answer
  obtain ⟨outcome, reassembler⟩ := result
  simp only at answer
  simp only [Playout.step, head, if_true, pushed]
  obtain ⟨_, _, stepped⟩ | ⟨_, _, stepped⟩ | ⟨_, _, stepped⟩ :=
    Castr.Lib.Gather.piece_cases s.size g index piece
  · rw [stepped] at answer
    subst answer
    exact Or.inl ⟨rfl, rfl⟩
  · rw [stepped, Option.bind_some, s.frame_of index inside] at answer
    subst answer
    right
    simp [stream, PlayoutAnswer.completed]
  · rw [stepped] at answer
    subst answer
    exact Or.inl ⟨rfl, rfl⟩

end Stream

end Castr.Receiver
