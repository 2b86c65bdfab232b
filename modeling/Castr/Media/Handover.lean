import Castr.Media.Decodable

/-! What a flush leaves behind for the next session's first keyframe. -/

namespace Castr.Media.JitterBuffer

open Castr.Lib.Run
open Castr.Proto (CompleteFrame Mode frameNewerOrEq)

def lastOut (seen : List Answer) : Option CompleteFrame := (seen.filterMap Answer.frame).getLast?

theorem lastOut_snoc (seen : List Answer) (answer : Answer) :
    lastOut (seen ++ [answer]) = answer.frame.or (lastOut seen) := by
  unfold lastOut
  cases frame : answer.frame <;> simp [List.filterMap_append, frame]

theorem step_lastPopped (b : JitterBuffer) (op : Op) :
    (step b op).1.lastPopped =
      ((step b op).2.frame.map CompleteFrame.frameNumber).or b.lastPopped := by
  cases op with
  | push frame nowUs => exact push_lastPopped b frame nowUs
  | pop nowUs =>
      have possible := pops b nowUs
      simp only [step, Answer.frame]
      generalize b.pop nowUs = result at possible ⊢
      cases possible <;> simp [after, giveUpOnGop]
  | _ => rfl

theorem lastPopped_eq (mode : Mode) (intervalUs : UInt64) (ops : List Op) :
    (final step (new mode intervalUs) ops).lastPopped =
      (lastOut (outputs step (new mode intervalUs) ops)).map CompleteFrame.frameNumber := by
  apply final_induction step (new mode intervalUs) ops (fun front b => b.lastPopped =
    (lastOut (outputs step (new mode intervalUs) front)).map CompleteFrame.frameNumber) rfl
  intro front op back _ same
  rw [step_lastPopped, outputs_snoc, lastOut_snoc, same]
  cases (step (final step (new mode intervalUs) front) op).2.frame <;> rfl

/-- A buffer that still waits for the keyframe `k`, with `last` the last number out. -/
structure Waits (k : CompleteFrame) (last : Option UInt32) (b : JitterBuffer) : Prop where
  needed : b.needKeyframe = true
  last : b.lastPopped = last
  deltas : ∀ f ∈ b.frames, f.keyframe = false ∧ f.frameNumber ≠ k.frameNumber

theorem waits_fewer {k : CompleteFrame} {last : Option UInt32} {b next : JitterBuffer}
    (waits : Waits k last b) (needed : next.needKeyframe = true)
    (same : next.lastPopped = b.lastPopped) (fewer : ∀ f ∈ next.frames, f ∈ b.frames) :
    Waits k last next :=
  ⟨needed, same.trans waits.last, fun f member => waits.deltas f (fewer f member)⟩

theorem waits_step (k : CompleteFrame) (last : Option UInt32) (b : JitterBuffer) (op : Op)
    (waits : Waits k last b)
    (delta : ∀ frame nowUs, op = .push frame nowUs →
      frame.keyframe = false ∧ frame.frameNumber ≠ k.frameNumber) :
    Waits k last (step b op).1 := by
  cases op with
  | push frame nowUs =>
      refine ⟨(push_needKeyframe b frame nowUs).trans waits.needed,
        (push_lastPopped b frame nowUs).trans waits.last, ?_⟩
      intro f member
      rcases mem_push b frame nowUs f member with rfl | before
      · exact delta f nowUs rfl
      · exact waits.deltas f before
  | pop nowUs =>
      have possible := pops b nowUs
      have needed := waits.needed
      simp only [step]
      generalize b.pop nowUs = result at possible ⊢
      cases possible with
      | empty nothing => exact waits
      | hold needed deltas =>
          refine waits_fewer waits (by simpa using needed) (by simp) ?_
          intro f member
          rw [trimWaiting_frames] at member
          exact List.mem_of_mem_drop member
      | jump exit idx frame found keyframe jumps newest =>
          have delta := (waits.deltas frame (List.mem_of_getElem? found)).1
          rw [keyframe] at delta
          cases delta
      | _ =>
          have started : b.needKeyframe = false := by assumption
          rw [needed] at started
          cases started
  | requireKeyframe => exact waits_fewer waits rfl rfl (fun f member => member)
  | setMode mode => exact waits_fewer waits rfl rfl (fun f member => by cases member)
  | flush => exact waits_fewer waits rfl rfl (fun f member => by cases member)
  | dropped => exact waits_fewer waits waits.needed rfl (fun f member => member)

/-- The keyframe such a buffer waits for comes out next, unless it is stale on arrival. -/
theorem waits_pop (k : CompleteFrame) (keyframe : k.keyframe = true) (last : Option UInt32)
    (b : JitterBuffer) (waits : Waits k last b) (pushUs popUs : UInt64) :
    ((b.push k pushUs).pop popUs).frame = some k ↔ b.stale k.frameNumber = false := by
  have possible := pops (b.push k pushUs) popUs
  have needed : (b.push k pushUs).needKeyframe = true :=
    (push_needKeyframe b k pushUs).trans waits.needed
  cases old : b.stale k.frameNumber with
  | true =>
      have frames : (b.push k pushUs).frames = b.frames := by simp [push, old]
      generalize (b.push k pushUs).pop popUs = result at possible ⊢
      cases possible with
      | jump exit idx frame found keyframe jumps newest =>
          rw [frames] at found
          have delta := (waits.deltas frame (List.mem_of_getElem? found)).1
          rw [keyframe] at delta
          cases delta
      | inOrder head rest found started follows =>
          rw [needed] at started
          cases started
      | _ => simp
  | false =>
      have frames : (b.push k pushUs).frames = insertFrame b.frames k := by simp [push, old]
      have inside : k ∈ (b.push k pushUs).frames := by
        rw [frames]
        exact insertFrame_self b.frames k (fun g member => (waits.deltas g member).2)
      generalize (b.push k pushUs).pop popUs = result at possible ⊢
      cases possible with
      | empty nothing => simp [nothing] at inside
      | hold needed deltas =>
          have delta := deltas k inside
          rw [keyframe] at delta
          cases delta
      | jump exit idx frame found key jumps newest =>
          have member := List.mem_of_getElem? found
          rw [frames] at member
          rcases mem_insertFrame b.frames k frame member with rfl | before
          · simp
          · have delta := (waits.deltas frame before).1
            rw [key] at delta
            cases delta
      | _ =>
          have started : (b.push k pushUs).needKeyframe = false := by assumption
          rw [needed] at started
          cases started

/-- After a flush the next session's first keyframe comes out at the next pop exactly when
nothing was handed out before, or the keyframe's number is newer than the last one out. -/
theorem first_keyframe_out_iff (mode : Mode) (intervalUs : UInt64) (history waiting : List Op)
    (k : CompleteFrame) (keyframe : k.keyframe = true)
    (deltas : ∀ frame nowUs, Op.push frame nowUs ∈ waiting →
      frame.keyframe = false ∧ frame.frameNumber ≠ k.frameNumber)
    (pushUs popUs : UInt64) :
    ((final step (new mode intervalUs) (history ++ .flush :: waiting ++ [.push k pushUs])).pop
        popUs).frame = some k ↔
      ∀ last, lastOut (outputs step (new mode intervalUs) history) = some last →
        frameNewerOrEq k.frameNumber last.frameNumber = true ∧
          k.frameNumber ≠ last.frameNumber := by
  have waits : Waits k (final step (new mode intervalUs) history).lastPopped
      (final step (new mode intervalUs) (history ++ .flush :: waiting)) := by
    rw [final_append, final_cons]
    apply final_invariant step _ waiting (Waits k _)
    · exact ⟨rfl, rfl, fun f member => by cases member⟩
    · intro b op member waits
      exact waits_step k _ b op waits (fun frame nowUs same => deltas frame nowUs (same ▸ member))
  rw [final_snoc]
  simp only [step]
  rw [waits_pop k keyframe _ _ waits, stale, waits.last, lastPopped_eq]
  cases lastOut (outputs step (new mode intervalUs) history) with
  | none => simp
  | some last =>
      simp only [Option.map_some, Option.any_some, Option.some.injEq, forall_eq',
        Bool.or_eq_false_iff,
        Bool.not_eq_false', beq_eq_false_iff_ne]

def twoOut : List Op := [.push firstFrame 0, .push secondFrame 10, .pop 20, .pop 30]

def nextKeyframe (frameNumber : UInt32) : CompleteFrame := ⟨0, frameNumber, 50, true, [20]⟩

theorem first_keyframe_out_newer :
    ((final step (new .game 33333)
      (twoOut ++ .flush :: [.push ⟨0, 6, 40, false, [19]⟩ 90, .pop 95] ++
        [.push (nextKeyframe 7) 100])).pop 110).frame = some (nextKeyframe 7) ↔
      ∀ last, lastOut (outputs step (new .game 33333) twoOut) = some last →
        frameNewerOrEq (nextKeyframe 7).frameNumber last.frameNumber = true ∧
          (nextKeyframe 7).frameNumber ≠ last.frameNumber :=
  first_keyframe_out_iff .game 33333 twoOut [.push ⟨0, 6, 40, false, [19]⟩ 90, .pop 95]
    (nextKeyframe 7) rfl (by
      intro frame nowUs member
      simp only [List.mem_cons, List.not_mem_nil, Op.push.injEq] at member
      rcases member with ⟨rfl, _⟩ | absent | absent
      · decide
      · cases absent
      · exact absurd absent id) 100 110

/-- The next session numbers from zero again, and its keyframe is dropped as stale. -/
theorem renumbered_keyframe_dropped :
    ((final step (new .game 33333)
      (twoOut ++ .flush :: [] ++ [.push (nextKeyframe 0) 100])).pop 110).frame ≠
        some (nextKeyframe 0) := by
  decide

end Castr.Media.JitterBuffer
