import Castr.Media.Showing

/-! What becomes of the frames pushed: each is shown, dropped and counted, still queued, or was not
taken in because the queue has its number. -/

namespace Castr.Media.JitterBuffer

open Castr.Lib.Run
open Castr.Proto (CompleteFrame Mode frameNewerOrEq)

/-- A step that keeps the queue across a change of mode or a flush. -/
def Op.resets : Op → Bool
  | .setMode _ | .flush => true
  | _ => false

def drops (b : JitterBuffer) : Op → Nat
  | .push frame _ => (b.stale frame.frameNumber).toNat
  | .pop nowUs => b.depth - (b.pop nowUs).buffer.depth - (b.pop nowUs).frame.toList.length
  | _ => 0

/-- The first queued frame that is not older has the number of the frame. -/
def placed (frames : List CompleteFrame) (frame : CompleteFrame) : Bool :=
  (frames.find? (fun f => frameNewerOrEq f.frameNumber frame.frameNumber)).any
    (fun f => f.frameNumber == frame.frameNumber)

/-- A push that is not dropped and leaves the queue as it is. -/
def ignored (b : JitterBuffer) : Op → Nat
  | .push frame _ => (!b.stale frame.frameNumber && placed b.frames frame).toNat
  | _ => 0

def repeats (b : JitterBuffer) : Op → Nat
  | .push frame _ => (b.frames.any (fun f => f.frameNumber == frame.frameNumber)).toNat
  | _ => 0

def Answer.taken : Answer → Nat
  | .dropped count => count.toNat
  | _ => 0

def taken (answers : List Answer) : Nat := (answers.map Answer.taken).sum

theorem insertFrame_length (frames : List CompleteFrame) (frame : CompleteFrame) :
    (insertFrame frames frame).length + (placed frames frame).toNat = frames.length + 1 := by
  unfold insertFrame placed
  rw [List.find?_eq_bind_findIdx?_getElem?]
  cases place : frames.findIdx? (fun f => frameNewerOrEq f.frameNumber frame.frameNumber) with
  | none => simp
  | some i =>
      have inside := (List.findIdx?_eq_some_iff_findIdx_eq.mp place).1
      by_cases same : (frames[i]?).any (fun f => f.frameNumber == frame.frameNumber) = true
      · simp [same]
      · simp [same, List.length_insertIdx, Nat.le_of_lt inside]

theorem pop_counts (b : JitterBuffer) (nowUs : UInt64) :
    b.depth = (b.pop nowUs).frame.toList.length + drops b (.pop nowUs) +
      (b.pop nowUs).buffer.depth := by
  have possible := pops b nowUs
  simp only [drops]
  generalize b.pop nowUs = result at possible ⊢
  cases possible with
  | jump exit idx frame found keyframe jumps newest =>
      have inside := (List.getElem?_eq_some_iff.mp found).1
      simp only [depth, after, List.length_drop, Option.toList_some, List.length_singleton]
      omega
  | inOrder head rest found started follows => simp [depth, after, found, Nat.add_comm]
  | hold needed deltas =>
      simp only [depth, trimWaiting_frames, List.length_drop, Option.toList_none, List.length_nil]
      omega
  | gapWait head rest found started gap deltas early =>
      simp only [depth, trimWaiting_frames, List.length_drop, Option.toList_none, List.length_nil]
      omega
  | _ => simp [depth, giveUpOnGop]

theorem pop_dropped (b : JitterBuffer) (nowUs : UInt64) :
    (b.pop nowUs).buffer.dropped = b.dropped + UInt32.ofNat (drops b (.pop nowUs)) := by
  have possible := pops b nowUs
  simp only [drops]
  generalize b.pop nowUs = result at possible ⊢
  cases possible with
  | jump exit idx frame found keyframe jumps newest =>
      have inside := (List.getElem?_eq_some_iff.mp found).1
      have passed : b.frames.length - (b.frames.length - (idx + 1)) - 1 = idx := by omega
      simp [depth, after, passed]
  | inOrder head rest found started follows => simp [depth, after, found]
  | hold needed deltas =>
      have trimmed : b.frames.length - (b.frames.length - (b.frames.length - waitMaxDepth)) =
          b.frames.length - waitMaxDepth := by omega
      simp [depth, trimWaiting, trimmed]
  | gapWait head rest found started gap deltas early =>
      have trimmed : b.frames.length - (b.frames.length - (b.frames.length - waitMaxDepth)) =
          b.frames.length - waitMaxDepth := by omega
      simp [depth, trimWaiting, trimmed]
  | _ => simp [depth, giveUpOnGop]

theorem step_counts (b : JitterBuffer) (op : Op) (keeps : op.resets = false) :
    (pushed [op]).length + b.depth = (shown [(b.step op).2]).length + drops b op +
      (b.step op).1.depth + ignored b op := by
  cases op with
  | push frame nowUs =>
      have length := insertFrame_length b.frames frame
      cases old : b.stale frame.frameNumber with
      | true => simp [pushed, shown, step, Answer.frame, push, drops, ignored, depth, old]
      | false =>
          simp [pushed, shown, step, Answer.frame, push, drops, ignored, depth, old]
          omega
  | pop nowUs =>
      have counts := pop_counts b nowUs
      have out : (shown [(b.step (.pop nowUs)).2]).length = (b.pop nowUs).frame.toList.length := by
        cases popped : (b.pop nowUs).frame <;> simp [shown, step, Answer.frame, popped]
      rw [out]
      simpa [pushed, ignored, step] using counts
  | requireKeyframe => simp [pushed, shown, step, Answer.frame, drops, ignored, depth,
      requireKeyframe]
  | setMode mode => cases keeps
  | flush => cases keeps
  | dropped => simp [pushed, shown, step, Answer.frame, drops, ignored, depth, takeDropped]

theorem step_dropped (b : JitterBuffer) (op : Op) :
    (b.step op).2.taken + (b.step op).1.dropped.toNat =
      (b.dropped.toNat + drops b op) % 2 ^ 32 := by
  have small : b.dropped.toNat < 2 ^ 32 := b.dropped.toNat_lt
  cases op with
  | push frame nowUs =>
      cases old : b.stale frame.frameNumber with
      | true => simp [step, Answer.taken, push, drops, old]
      | false => simp [step, Answer.taken, push, drops, old]
  | pop nowUs =>
      simp only [step, Answer.taken, pop_dropped, UInt32.toNat_add, UInt32.toNat_ofNat']
      omega
  | _ => simp [step, Answer.taken, drops, requireKeyframe, setMode, flush, takeDropped]

theorem taken_snoc (answers : List Answer) (answer : Answer) :
    taken (answers ++ [answer]) = taken answers + answer.taken := by
  simp [taken]

theorem shown_length_snoc (answers : List Answer) (answer : Answer) :
    (shown (answers ++ [answer])).length = (shown answers).length + (shown [answer]).length := by
  rw [← List.length_append, shown, List.filterMap_append]
  rfl

theorem counted_run (b : JitterBuffer) (fresh : b.dropped = 0) (ops : List Op)
    (few : tally step drops b ops < 2 ^ 32) :
    taken (outputs step b ops) + (final step b ops).dropped.toNat = tally step drops b ops := by
  apply final_induction step b ops (fun front next =>
    taken (outputs step b front) + next.dropped.toNat = tally step drops b front)
  · simp [fresh, taken, tally]
  · intro front op back split counted
    have part : tally step drops b (front ++ [op]) < 2 ^ 32 := by
      have whole : tally step drops b ops =
          tally step drops b (front ++ [op]) +
            tally step drops (final step b (front ++ [op])) back := by
        rw [split, List.append_cons, tally_append]
      omega
    rw [tally_snoc] at part ⊢
    have one := step_dropped (final step b front) op
    rw [Nat.mod_eq_of_lt (by omega)] at one
    rw [outputs_snoc, taken_snoc]
    omega

theorem counts_run (b : JitterBuffer) (empty : b.frames = []) (ops : List Op)
    (keeps : ∀ op ∈ ops, op.resets = false) :
    (pushed ops).length = (shown (outputs step b ops)).length + tally step drops b ops +
      (final step b ops).depth + tally step ignored b ops := by
  apply final_induction step b ops (fun front next =>
    (pushed front).length = (shown (outputs step b front)).length + tally step drops b front +
      next.depth + tally step ignored b front)
  · simp [pushed, shown, tally, depth, empty]
  · intro front op back split counts
    have one := step_counts (final step b front) op (keeps op (by simp [split]))
    rw [pushed_snoc, List.length_append, outputs_snoc, shown_length_snoc, tally_snoc, tally_snoc]
    omega

/-- In a queue that is in order before and after, a push is ignored where it repeats a number. -/
theorem ignored_repeats (b : JitterBuffer) (op : Op) (ordered : InOrder b)
    (next : InOrder (b.step op).1) : ignored b op = repeats b op := by
  cases op with
  | push frame nowUs =>
      cases old : b.stale frame.frameNumber with
      | true =>
          have apart (f : CompleteFrame) (queued : f ∈ b.frames) :
              f.frameNumber ≠ frame.frameNumber := by
            intro same
            obtain ⟨last, popped, behind⟩ := (Option.any_eq_true _ _).mp old
            have newer := ordered.ahead last popped f queued
            rw [same] at newer
            simp [newer.1, newer.2] at behind
          have unseen : b.frames.any (fun f => f.frameNumber == frame.frameNumber) = false := by
            simpa using apart
          simp [ignored, repeats, old, unseen]
      | false =>
          have length := insertFrame_length b.frames frame
          have sorted := next.sorted
          simp only [step, push, old, Bool.false_eq_true, if_false] at sorted
          rcases insertFrame_cases b.frames frame with
            ⟨g, queued, same, kept⟩ | ⟨front, back, whole, inserted, _⟩
          · have seen : b.frames.any (fun f => f.frameNumber == frame.frameNumber) = true :=
              List.any_eq_true.mpr ⟨g, queued, by simp [same]⟩
            rw [kept] at length
            have found : placed b.frames frame = true := by
              cases found : placed b.frames frame with
              | true => rfl
              | false => simp [found] at length
            simp [ignored, repeats, old, seen, found]
          · rw [inserted] at length sorted
            obtain ⟨_, behind, across⟩ := List.pairwise_append.mp sorted
            have unseen : b.frames.any (fun f => f.frameNumber == frame.frameNumber) = false := by
              rw [List.any_eq_false]
              intro f queued
              rw [whole] at queued
              rw [beq_iff_eq]
              rcases List.mem_append.mp queued with before | after
              · exact fun same => (across f before frame (by simp)).2 same.symm
              · exact ((List.pairwise_cons.mp behind).1 f after).2
            have found : placed b.frames frame = false := by
              cases found : placed b.frames frame with
              | true =>
                  rw [found, whole, List.length_append, List.length_append] at length
                  simp at length
              | false => rfl
            simp [ignored, repeats, old, unseen, found]
  | _ => rfl

theorem waiting_bounded (b : JitterBuffer) (nowUs : UInt64) (unfed : (b.pop nowUs).frame = none)
    (waits : b.needKeyframe = true ∨ ∃ head, b.frames.head? = some head ∧ b.gapBefore head = true) :
    (b.pop nowUs).buffer.depth ≤ waitMaxDepth := by
  have trimmed (c : JitterBuffer) : c.trimWaiting.depth ≤ waitMaxDepth := by
    simp only [depth, trimWaiting_frames, List.length_drop]
    omega
  have jumps (c : JitterBuffer) (exit : PopExit) (k idx : Nat)
      (newest : newestKeyframe c.frames k = some idx) : (c.take exit idx).frame ≠ none := by
    obtain ⟨frame, found, _⟩ := (newest_some c.frames k idx newest).1
    simp [take_found c exit idx frame found]
  unfold pop at unfed ⊢
  cases found : b.frames with
  | nil => simp [depth, found]
  | cons head rest =>
      simp only [found] at unfed waits ⊢
      cases needed : b.needKeyframe with
      | true =>
          simp only [needed, if_true] at unfed ⊢
          rw [← found] at unfed ⊢
          split at unfed
          · next i newest =>
              exact absurd unfed (jumps { b with needKeyframe := false } _ _ i newest)
          · exact trimmed b
      | false =>
          have gap : b.gapBefore head = true := by simpa [needed] using waits
          simp only [needed, Bool.false_eq_true, if_false, gap, if_true] at unfed ⊢
          unfold popGap at unfed ⊢
          split at unfed
          · next i newest => exact absurd unfed (jumps b _ _ i newest)
          · dsimp only
            split
            · exact Nat.zero_le _
            · exact trimmed _

theorem trimmed_deltas (b : JitterBuffer) (nowUs : UInt64)
    (trims : (b.pop nowUs).exit = .holdDeltas ∨ (b.pop nowUs).exit = .gapWait) :
    ∀ f ∈ b.frames, f ∉ (b.pop nowUs).buffer.frames → f.keyframe = false := by
  have possible := pops b nowUs
  generalize b.pop nowUs = result at possible trims ⊢
  intro f queued _
  cases possible with
  | hold needed deltas => exact deltas f queued
  | gapWait head rest found started gap deltas early => exact deltas f queued
  | jump exit idx frame found keyframe jumps newest =>
      rcases jumps with ⟨rfl, _⟩ | ⟨member, _⟩
      · simp at trims
      · rcases trims with rfl | rfl <;> simp at member
  | abandoned exit started behind => rcases trims with rfl | rfl <;> simp at behind
  | _ => simp at trims

/-- A frame is accounted for whatever the order of the numbers; a repeated number is what is ignored
while they lie in a window. The cut of a waiting queue takes deltas only and leaves it bounded. -/
theorem frames_accounted (mode : Mode) (intervalUs : UInt64) (ops : List Op)
    (keeps : ∀ op ∈ ops, op.resets = false)
    (few : tally step drops (new mode intervalUs) ops < 2 ^ 32) :
    (pushed ops).length = (shown (outputs step (new mode intervalUs) ops)).length +
      (taken (outputs step (new mode intervalUs) ops) +
        (final step (new mode intervalUs) ops).dropped.toNat) +
      (final step (new mode intervalUs) ops).depth +
      tally step ignored (new mode intervalUs) ops ∧
    (Windowed (new mode intervalUs) ops →
      tally step ignored (new mode intervalUs) ops =
        tally step repeats (new mode intervalUs) ops) ∧
    ∀ front back nowUs, ops = front ++ .pop nowUs :: back →
      let b := final step (new mode intervalUs) front
      ((b.pop nowUs).exit = .holdDeltas ∨ (b.pop nowUs).exit = .gapWait →
        ∀ f ∈ b.frames, f.keyframe = true → f ∈ (b.pop nowUs).buffer.frames) ∧
      ((b.pop nowUs).frame = none →
        (b.needKeyframe = true ∨ ∃ head, b.frames.head? = some head ∧ b.gapBefore head = true) →
        (b.pop nowUs).buffer.depth ≤ waitMaxDepth) := by
  have counted := counted_run (new mode intervalUs) rfl ops few
  have counts := counts_run (new mode intervalUs) rfl ops keeps
  refine ⟨by omega, ?_, ?_⟩
  · intro windowed
    apply tally_congr
    intro front op back split
    have before := shows_run mode intervalUs ops windowed front (op :: back) split
    have behind := shows_run mode intervalUs ops windowed (front ++ [op]) back (by simp [split])
    rw [final_snoc] at behind
    exact ignored_repeats _ op before.ordered behind.ordered
  · intro front back nowUs split b
    refine ⟨?_, waiting_bounded b nowUs⟩
    intro trims f queued keyframe
    by_contra gone
    rw [trimmed_deltas b nowUs trims f queued gone] at keyframe
    cases keyframe

theorem frames_accounted_orderly : (pushed orderly).length = 2 + (0 + 0) + 0 + 0 :=
  (frames_accounted .game 33333 orderly (by decide) (by decide)).1

def numbered (frameNumber : UInt32) : CompleteFrame := ⟨0, frameNumber, 0, false, []⟩

/-- Three numbers that go round the circle, each newer than the one before it, and the second again.
-/
def around : List Op :=
  [.push (numbered 0) 0, .push (numbered 0x50000000) 0, .push (numbered 0xa0000000) 0,
    .push (numbered 0x50000000) 0]

/-- Round the circle a number can be queued twice. -/
theorem repeated_queued : (∀ op ∈ around, op.resets = false) ∧
    tally step drops (new .game 33333) around < 2 ^ 32 ∧
    (pushed around).length ≠ (shown (outputs step (new .game 33333) around)).length +
      (taken (outputs step (new .game 33333) around) +
        (final step (new .game 33333) around).dropped.toNat) +
      (final step (new .game 33333) around).depth +
      tally step repeats (new .game 33333) around := by
  decide

end Castr.Media.JitterBuffer
