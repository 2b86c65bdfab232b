import Castr.Lib.Serial
import Castr.Media.Jitter

/-! Queues whose frame numbers lie on one half of the circle, in the order of their distances from
its start. -/

namespace Castr.Media

open Castr.Lib
open Castr.Proto (CompleteFrame frameNewerOrEq)

/-- How far a frame number lies ahead of a base. -/
def reach (base number : UInt32) : Nat := Serial.ahead base.toBitVec number.toBitVec

def halfCircle : Nat := 2 ^ 31 - 1

theorem newer_reach (first second : UInt32) :
    frameNewerOrEq first second = decide (reach second first < halfCircle) := by
  rw [frameNewerOrEq, decide_eq_decide]
  exact UInt32.lt_iff_toNat_lt

theorem reach_injective (base first second : UInt32) (same : reach base first = reach base second) :
    first = second := UInt32.toBitVec_inj.mp (Serial.ahead_injective _ _ _ same)

theorem reach_self_lt (number : UInt32) : reach number number < halfCircle := by
  simp [reach, Serial.ahead, halfCircle]

theorem newer_on_arc (base first second : UInt32) (firstNear : reach base first < halfCircle)
    (secondNear : reach base second < halfCircle) :
    frameNewerOrEq first second = decide (reach base second ≤ reach base first) := by
  rw [newer_reach, decide_eq_decide]
  exact Serial.ahead_lt_half_iff base.toBitVec second.toBitVec first.toBitVec halfCircle
    (by decide) secondNear firstNear

theorem reach_from (base first second : UInt32) (order : reach base first ≤ reach base second) :
    reach first second = reach base second - reach base first :=
  (Serial.ahead_from base.toBitVec first.toBitVec second.toBitVec).trans (if_pos order)

structure Arc (base : UInt32) (frames : List CompleteFrame) : Prop where
  near : ∀ f ∈ frames, reach base f.frameNumber < halfCircle
  sorted : frames.Pairwise (fun f g => reach base f.frameNumber < reach base g.frameNumber)

theorem arc_nil (base : UInt32) : Arc base [] := ⟨by simp, List.Pairwise.nil⟩

theorem Arc.sublist {base : UInt32} {frames fewer : List CompleteFrame} (arc : Arc base frames)
    (part : fewer.Sublist frames) : Arc base fewer :=
  ⟨fun f present => arc.near f (part.subset present), arc.sorted.sublist part⟩

theorem Arc.insert {base : UInt32} {frames : List CompleteFrame} (arc : Arc base frames)
    (frame : CompleteFrame) (near : reach base frame.frameNumber < halfCircle) :
    Arc base (JitterBuffer.insertFrame frames frame) := by
  refine ⟨?_, ?_⟩
  · intro f present
    rcases JitterBuffer.mem_insertFrame frames frame f present with rfl | before
    · exact near
    · exact arc.near f before
  · exact JitterBuffer.insertFrame_sorted (reach_injective base) frames frame
      (fun f present => newer_on_arc base _ _ (arc.near f present) near) arc.sorted

theorem Arc.rebase {base : UInt32} {front back : List CompleteFrame} {frame : CompleteFrame}
    (arc : Arc base (front ++ frame :: back)) : Arc frame.frameNumber (frame :: back) := by
  have arc := arc.sublist (List.sublist_append_right front (frame :: back))
  have first := (List.pairwise_cons.mp arc.sorted).1
  have ahead (f : CompleteFrame) (present : f ∈ frame :: back) :
      reach base frame.frameNumber ≤ reach base f.frameNumber := by
    rcases List.mem_cons.mp present with rfl | later
    · exact Nat.le_refl _
    · exact Nat.le_of_lt (first f later)
  have shift (f : CompleteFrame) (present : f ∈ frame :: back) :
      reach frame.frameNumber f.frameNumber =
        reach base f.frameNumber - reach base frame.frameNumber :=
    reach_from base _ _ (ahead f present)
  refine ⟨?_, ?_⟩
  · intro f present
    rw [shift f present]
    have near := arc.near f present
    omega
  · apply arc.sorted.imp_of_mem
    intro f g inside other less
    rw [shift f inside, shift g other]
    have least := ahead f inside
    omega

theorem Arc.newer {base : UInt32} {front back : List CompleteFrame} {frame : CompleteFrame}
    (arc : Arc base (front ++ frame :: back)) (f : CompleteFrame) (present : f ∈ front) :
    frameNewerOrEq frame.frameNumber f.frameNumber = true := by
  have less := (List.pairwise_append.mp arc.sorted).2.2 f present frame List.mem_cons_self
  rw [newer_on_arc base _ _ (arc.near _ (by simp)) (arc.near f (by simp [present]))]
  exact decide_eq_true (Nat.le_of_lt less)

end Castr.Media
