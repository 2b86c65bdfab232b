import Castr.Media.Decodable

/-! The jitter buffer's pop once more, with every index it asks for written down and every unwrap
checked. In a buffer that was run from the start none of them fails. -/

namespace Castr.Media

open Castr.Lib.Run
open Castr.Lib.Word (saturatingSub)
open Castr.Proto (CompleteFrame Mode)

/-- The indices that `take` and `newest_keyframe` were given, and the result, `none` after a
panic. -/
structure Tried (α : Type) where
  asked : List Nat
  result : Option α
  deriving DecidableEq, Repr

namespace Tried

variable {α β : Type}

def after (first : Tried α) (next : α → Tried β) : Tried β :=
  match first.result with
  | some value => ⟨first.asked ++ (next value).asked, (next value).result⟩
  | none => ⟨first.asked, none⟩

instance : Monad Tried where
  pure value := ⟨[], some value⟩
  bind := after

def expect (value : Option α) : Tried α := ⟨[], value⟩

/-- It gives a value and asked for nothing outside. -/
def Safe (size : Nat) (tried : Tried α) (value : α) : Prop :=
  tried.result = some value ∧ ∀ idx ∈ tried.asked, idx < size

theorem safe_pure (size : Nat) (value : α) : Safe size (pure value) value :=
  ⟨rfl, fun _ member => absurd member List.not_mem_nil⟩

theorem safe_bind {size : Nat} {first : Tried α} {next : α → Tried β} {value : α} {last : β}
    (safe : Safe size first value) (then' : Safe size (next value) last) :
    Safe size (first >>= next) last := by
  obtain ⟨asked, result⟩ := first
  obtain ⟨rfl, inside⟩ := safe
  refine ⟨then'.1, ?_⟩
  intro idx member
  rcases List.mem_append.mp member with early | late
  · exact inside idx early
  · exact then'.2 idx late

end Tried

namespace JitterBuffer

open Tried

/-- `(0..=idx).rev().find(|&i| frames[i].keyframe)`; an index past the end panics. -/
def findKeyframe (frames : List CompleteFrame) : Nat → Option (Option Nat)
  | 0 => (frames[0]?).map (fun frame => if frame.keyframe then some 0 else none)
  | idx + 1 => (frames[idx + 1]?).bind (fun frame =>
      if frame.keyframe then some (some (idx + 1)) else findKeyframe frames idx)

def newestTried (frames : List CompleteFrame) (idx : Nat) : Tried (Option Nat) :=
  ⟨[idx], findKeyframe frames idx⟩

/-- The frames before `idx` go one by one, whether there are as many or not; the one after them
must be there. -/
def takeTried (b : JitterBuffer) (exit : PopExit) (idx : Nat) : Tried Popped :=
  ⟨[idx], (b.frames.drop idx).head?.map (fun frame =>
    ⟨exit, some frame,
      { b with
        dropped := b.dropped + UInt32.ofNat idx
        frames := (b.frames.drop idx).tail
        lastPopped := some frame.frameNumber
        gapSince := none }⟩)⟩

def popGameTried (b : JitterBuffer) : Tried Popped := do
  match ← newestTried b.frames (b.frames.length - 1) with
  | some k => b.takeTried .gameJump k
  | none =>
      if b.frames.length > gameMaxDepth then pure ⟨.gameAbandoned, none, b.giveUpOnGop⟩
      else b.takeTried .inOrder 0

def popQualityTried (b : JitterBuffer) (head : CompleteFrame) (nowUs : UInt64) : Tried Popped := do
  let base ← expect b.baseUs
  if dueAt base head > nowUs.toInt64 then pure ⟨.notDue, none, b⟩
  else
    let lastDue := b.lastDue base nowUs
    let lateness := nowUs.toInt64 - dueAt base head
    if lastDue > 0 ∧ lateness > b.intervalUs.toInt64 then
      match ← newestTried b.frames lastDue with
      | some k => b.takeTried .lateJump k
      | none =>
          if lateness > qualityMaxLateUs then pure ⟨.lateAbandoned, none, b.giveUpOnGop⟩
          else b.takeTried .inOrder 0
    else b.takeTried .inOrder 0

def popGapTried (b : JitterBuffer) (nowUs : UInt64) : Tried Popped := do
  match ← newestTried b.frames (b.frames.length - 1) with
  | some k => b.takeTried .gapJump k
  | none =>
      let since := b.gapSince.getD nowUs
      let b := { b with gapSince := some since }
      if saturatingSub nowUs since > gapWaitUs then pure ⟨.gapAbandoned, none, b.giveUpOnGop⟩
      else pure ⟨.gapWait, none, b.trimWaiting⟩

def popTried (b : JitterBuffer) (nowUs : UInt64) : Tried Popped :=
  match b.frames with
  | [] => pure ⟨.empty, none, b⟩
  | head :: _ =>
      if b.needKeyframe then do
        match ← newestTried b.frames (b.frames.length - 1) with
        | some i => takeTried { b with needKeyframe := false } .keyframe i
        | none => pure ⟨.holdDeltas, none, b.trimWaiting⟩
      else if b.gapBefore head then b.popGapTried nowUs
      else
        match b.mode with
        | .game => b.popGameTried
        | .quality => b.popQualityTried head nowUs

section Safe

variable {b : JitterBuffer} {idx : Nat}

theorem findKeyframe_eq (frames : List CompleteFrame) (inside : idx < frames.length) :
    findKeyframe frames idx = some (newestKeyframe frames idx) := by
  induction idx with
  | zero =>
      rw [findKeyframe, newestKeyframe, List.getElem?_eq_getElem inside]
      rfl
  | succ idx ih =>
      rw [findKeyframe, newestKeyframe, List.getElem?_eq_getElem inside, Option.bind_some,
        Option.any_some]
      split
      · rfl
      · exact ih (Nat.lt_of_succ_lt inside)

theorem safe_newest (frames : List CompleteFrame) (inside : idx < frames.length) :
    Safe frames.length (newestTried frames idx) (newestKeyframe frames idx) := by
  refine ⟨findKeyframe_eq frames inside, ?_⟩
  intro other member
  exact List.mem_singleton.mp member ▸ inside

theorem safe_take (exit : PopExit) (inside : idx < b.frames.length) :
    Safe b.frames.length (b.takeTried exit idx) (b.take exit idx) := by
  refine ⟨?_, ?_⟩
  · rw [takeTried, List.head?_drop, List.getElem?_eq_getElem inside, take_found b exit idx _
      (List.getElem?_eq_getElem inside), List.tail_drop]
    rfl
  · intro other member
    exact List.mem_singleton.mp member ▸ inside

theorem newest_inside {frames : List CompleteFrame} {k : Nat}
    (newest : newestKeyframe frames idx = some k) : k < frames.length := by
  obtain ⟨frame, found, _⟩ := (newest_some frames idx k newest).1
  exact (List.getElem?_eq_some_iff.mp found).1

variable (queued : b.frames ≠ [])

include queued

theorem last_inside : b.frames.length - 1 < b.frames.length := by
  have some := List.length_pos_iff.mpr queued
  omega

theorem due_inside (base : Int64) (nowUs : UInt64) : b.lastDue base nowUs < b.frames.length := by
  have some := List.length_pos_iff.mpr queued
  have fewer := (List.takeWhile_prefix (fun f => decide (dueAt base f ≤ nowUs.toInt64))
    (l := b.frames.tail)).length_le
  rw [List.length_tail] at fewer
  unfold lastDue
  omega

theorem safe_game : Safe b.frames.length b.popGameTried b.popGame := by
  refine safe_bind (safe_newest b.frames (last_inside queued)) ?_
  unfold popGame
  cases newest : newestKeyframe b.frames (b.frames.length - 1) with
  | some k => exact safe_take .gameJump (newest_inside newest)
  | none =>
      dsimp only
      split
      · exact safe_pure _ _
      · exact safe_take .inOrder (List.length_pos_iff.mpr queued)

theorem safe_gap (nowUs : UInt64) :
    Safe b.frames.length (b.popGapTried nowUs) (b.popGap nowUs) := by
  refine safe_bind (safe_newest b.frames (last_inside queued)) ?_
  unfold popGap
  cases newest : newestKeyframe b.frames (b.frames.length - 1) with
  | some k => exact safe_take .gapJump (newest_inside newest)
  | none =>
      dsimp only
      split
      · exact safe_pure _ _
      · exact safe_pure _ _

theorem safe_quality (based : Based b) (head : CompleteFrame) (nowUs : UInt64) :
    Safe b.frames.length (b.popQualityTried head nowUs) (b.popQuality head nowUs) := by
  obtain ⟨base, set⟩ := Option.ne_none_iff_exists'.mp (based queued)
  have head0 : 0 < b.frames.length := List.length_pos_iff.mpr queued
  have known : Safe b.frames.length (expect b.baseUs) base :=
    ⟨set, fun _ member => absurd member List.not_mem_nil⟩
  refine safe_bind known ?_
  unfold popQuality
  rw [set]
  dsimp only
  split
  · exact safe_pure _ _
  · split
    · refine safe_bind (safe_newest b.frames (due_inside queued base nowUs)) ?_
      cases newest : newestKeyframe b.frames (b.lastDue base nowUs) with
      | some k => exact safe_take .lateJump (newest_inside newest)
      | none =>
          dsimp only
          split
          · exact safe_pure _ _
          · exact safe_take .inOrder head0
    · exact safe_take .inOrder head0

end Safe

theorem safe_pop {b : JitterBuffer} (based : Based b) (nowUs : UInt64) :
    Safe b.frames.length (b.popTried nowUs) (b.pop nowUs) := by
  unfold popTried pop
  cases found : b.frames with
  | nil => exact safe_pure _ _
  | cons head rest =>
      have queued : b.frames ≠ [] := found ▸ List.cons_ne_nil head rest
      dsimp only
      rw [← found]
      split
      · refine safe_bind (safe_newest b.frames (last_inside queued)) ?_
        cases newest : newestKeyframe b.frames (b.frames.length - 1) with
        | some i =>
            exact safe_take (b := { b with needKeyframe := false }) .keyframe (newest_inside newest)
        | none => exact safe_pure _ _
      · split
        · exact safe_gap queued nowUs
        · cases b.mode with
          | game => exact safe_game queued
          | quality => exact safe_quality queued based head nowUs

/-- In every run a queue with a frame has a base, a buffer that wants no keyframe has a last frame,
and a pop asks for nothing outside the queue and unwraps nothing that is not there. -/
theorem unwraps_unreachable (mode : Mode) (intervalUs : UInt64) (ops : List Op) :
    ((final step (new mode intervalUs) ops).frames ≠ [] →
        (final step (new mode intervalUs) ops).baseUs.isSome = true) ∧
      ((final step (new mode intervalUs) ops).needKeyframe = false →
        (final step (new mode intervalUs) ops).lastPopped.isSome = true) ∧
      ∀ nowUs,
        ((final step (new mode intervalUs) ops).popTried nowUs).result =
          some ((final step (new mode intervalUs) ops).pop nowUs) ∧
        ∀ idx ∈ ((final step (new mode intervalUs) ops).popTried nowUs).asked,
          idx < (final step (new mode intervalUs) ops).frames.length := by
  have based := based_run mode intervalUs ops
  have chained := chained_run mode intervalUs ops
  refine ⟨?_, ?_, fun nowUs => safe_pop based nowUs⟩
  · intro queued
    exact Option.isSome_iff_ne_none.mpr (based queued)
  · intro started
    obtain ⟨_, _, g, _, _, last, _⟩ := chained started
    rw [last]
    rfl

end JitterBuffer

end Castr.Media
