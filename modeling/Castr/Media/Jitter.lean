import Castr.Lib.Run
import Castr.Proto.Control
import Castr.Proto.Reassemble

/-! The receiver's `JitterBuffer`. A pop also says which of its exits it took. -/

namespace Castr.Media

open Castr.Lib
open Castr.Lib.Word (saturatingSub)
open Castr.Proto (CompleteFrame Mode frameNewerOrEq)

def qualityDelayUs : Int64 := 150000
def gameMaxDepth : Nat := 30
def qualityMaxLateUs : Int64 := 500000
def gapWaitUs : UInt64 := 150000
def waitMaxDepth : Nat := 120

structure JitterBuffer where
  mode : Mode
  intervalUs : UInt64
  frames : List CompleteFrame
  lastPopped : Option UInt32
  baseUs : Option Int64
  dropped : UInt32
  needKeyframe : Bool
  gapSince : Option UInt64
  deriving DecidableEq, Repr

inductive PopExit where
  | empty
  | keyframe
  | holdDeltas
  | gapJump
  | gapWait
  | gapAbandoned
  | gameJump
  | gameAbandoned
  | notDue
  | lateJump
  | lateAbandoned
  | inOrder
  | panic
  deriving DecidableEq, Repr

def PopExit.abandoned : PopExit → Bool
  | .gapAbandoned | .gameAbandoned | .lateAbandoned => true
  | _ => false

structure Popped where
  exit : PopExit
  frame : Option CompleteFrame
  buffer : JitterBuffer
  deriving DecidableEq, Repr

namespace JitterBuffer

def new (mode : Mode) (intervalUs : UInt64) : JitterBuffer where
  mode := mode
  intervalUs := intervalUs
  frames := []
  lastPopped := none
  baseUs := none
  dropped := 0
  needKeyframe := true
  gapSince := none

def requireKeyframe (b : JitterBuffer) : JitterBuffer := { b with needKeyframe := true }

def flush (b : JitterBuffer) : JitterBuffer :=
  { b with frames := [], baseUs := none, needKeyframe := true, gapSince := none }

def setMode (b : JitterBuffer) (mode : Mode) : JitterBuffer := flush { b with mode := mode }

def depth (b : JitterBuffer) : Nat := b.frames.length

def takeDropped (b : JitterBuffer) : UInt32 × JitterBuffer := (b.dropped, { b with dropped := 0 })

def stale (b : JitterBuffer) (frameNumber : UInt32) : Bool :=
  b.lastPopped.any (fun last => !frameNewerOrEq frameNumber last || frameNumber == last)

/-- The base of a buffer whose first frame since a flush is `frame`. -/
def baseFor (frame : CompleteFrame) (nowUs : UInt64) : Int64 :=
  nowUs.toInt64 - frame.timestampUs.toInt64 + qualityDelayUs

/-- The frame's place in the queue: in front of the first frame that is not older. -/
def insertFrame (frames : List CompleteFrame) (frame : CompleteFrame) : List CompleteFrame :=
  match frames.findIdx? (fun f => frameNewerOrEq f.frameNumber frame.frameNumber) with
  | some i =>
      if (frames[i]?).any (fun f => f.frameNumber == frame.frameNumber) then frames
      else frames.insertIdx i frame
  | none => frames ++ [frame]

def push (b : JitterBuffer) (frame : CompleteFrame) (nowUs : UInt64) : JitterBuffer :=
  if b.stale frame.frameNumber then { b with dropped := b.dropped + 1 }
  else
    { b with
      baseUs := some (b.baseUs.getD (baseFor frame nowUs))
      frames := insertFrame b.frames frame }

/-- The index of the newest keyframe among `frames[0..=idx]`. -/
def newestKeyframe (frames : List CompleteFrame) : Nat → Option Nat
  | 0 => if (frames[0]?).any CompleteFrame.keyframe then some 0 else none
  | idx + 1 =>
      if (frames[idx + 1]?).any CompleteFrame.keyframe then some (idx + 1)
      else newestKeyframe frames idx

def giveUpOnGop (b : JitterBuffer) : JitterBuffer :=
  { b with
    dropped := b.dropped + UInt32.ofNat b.frames.length
    frames := []
    needKeyframe := true }

/-- The state after `frames[idx]` is popped and all before it are dropped. -/
def after (b : JitterBuffer) (idx : Nat) (frame : CompleteFrame) : JitterBuffer :=
  { b with
    dropped := b.dropped + UInt32.ofNat idx
    frames := b.frames.drop (idx + 1)
    lastPopped := some frame.frameNumber
    gapSince := none }

def take (b : JitterBuffer) (exit : PopExit) (idx : Nat) : Popped :=
  match b.frames[idx]? with
  | some frame => ⟨exit, some frame, b.after idx frame⟩
  | none => ⟨.panic, none, b⟩

def trimWaiting (b : JitterBuffer) : JitterBuffer :=
  { b with
    dropped := b.dropped + UInt32.ofNat (b.frames.length - waitMaxDepth)
    frames := b.frames.drop (b.frames.length - waitMaxDepth) }

/-- The head of the queue is a delta that does not follow the last frame out. -/
def gapBefore (b : JitterBuffer) (head : CompleteFrame) : Bool :=
  b.lastPopped.any (fun last => !head.keyframe && head.frameNumber != last + 1)

def dueAt (base : Int64) (frame : CompleteFrame) : Int64 := frame.timestampUs.toInt64 + base

def lastDue (b : JitterBuffer) (base : Int64) (nowUs : UInt64) : Nat :=
  (b.frames.tail.takeWhile (fun f => dueAt base f ≤ nowUs.toInt64)).length

def popGame (b : JitterBuffer) : Popped :=
  match newestKeyframe b.frames (b.frames.length - 1) with
  | some k => b.take .gameJump k
  | none =>
      if b.frames.length > gameMaxDepth then ⟨.gameAbandoned, none, b.giveUpOnGop⟩
      else b.take .inOrder 0

def popQuality (b : JitterBuffer) (head : CompleteFrame) (nowUs : UInt64) : Popped :=
  match b.baseUs with
  | none => ⟨.panic, none, b⟩
  | some base =>
      if dueAt base head > nowUs.toInt64 then ⟨.notDue, none, b⟩
      else
        let lastDue := b.lastDue base nowUs
        let lateness := nowUs.toInt64 - dueAt base head
        if lastDue > 0 ∧ lateness > b.intervalUs.toInt64 then
          match newestKeyframe b.frames lastDue with
          | some k => b.take .lateJump k
          | none =>
              if lateness > qualityMaxLateUs then ⟨.lateAbandoned, none, b.giveUpOnGop⟩
              else b.take .inOrder 0
        else b.take .inOrder 0

/-- The queue waits behind a gap, since now if it did not already. -/
def popGap (b : JitterBuffer) (nowUs : UInt64) : Popped :=
  match newestKeyframe b.frames (b.frames.length - 1) with
  | some k => b.take .gapJump k
  | none =>
      let since := b.gapSince.getD nowUs
      let b := { b with gapSince := some since }
      if saturatingSub nowUs since > gapWaitUs then ⟨.gapAbandoned, none, b.giveUpOnGop⟩
      else ⟨.gapWait, none, b.trimWaiting⟩

def pop (b : JitterBuffer) (nowUs : UInt64) : Popped :=
  match b.frames with
  | [] => ⟨.empty, none, b⟩
  | head :: _ =>
      if b.needKeyframe then
        match newestKeyframe b.frames (b.frames.length - 1) with
        | some i => take { b with needKeyframe := false } .keyframe i
        | none => ⟨.holdDeltas, none, b.trimWaiting⟩
      else if b.gapBefore head then b.popGap nowUs
      else
        match b.mode with
        | .game => b.popGame
        | .quality => b.popQuality head nowUs

inductive Op where
  | push (frame : CompleteFrame) (nowUs : UInt64)
  | pop (nowUs : UInt64)
  | requireKeyframe
  | setMode (mode : Mode)
  | flush
  | dropped

inductive Answer where
  | popped (exit : PopExit) (frame : Option CompleteFrame)
  | dropped (count : UInt32)
  | queued
  | reset
  deriving DecidableEq, Repr

def step (b : JitterBuffer) : Op → JitterBuffer × Answer
  | .push frame nowUs => (b.push frame nowUs, .queued)
  | .pop nowUs => ((b.pop nowUs).buffer, .popped (b.pop nowUs).exit (b.pop nowUs).frame)
  | .requireKeyframe => (b.requireKeyframe, .reset)
  | .setMode mode => (b.setMode mode, .reset)
  | .flush => (b.flush, .reset)
  | .dropped => (b.takeDropped.2, .dropped b.takeDropped.1)

@[simp] theorem push_needKeyframe (b : JitterBuffer) (frame : CompleteFrame) (nowUs : UInt64) :
    (b.push frame nowUs).needKeyframe = b.needKeyframe := by
  unfold push
  split <;> rfl

@[simp] theorem push_lastPopped (b : JitterBuffer) (frame : CompleteFrame) (nowUs : UInt64) :
    (b.push frame nowUs).lastPopped = b.lastPopped := by
  unfold push
  split <;> rfl

private theorem insertIdx_split (frames : List CompleteFrame) (frame : CompleteFrame) (i : Nat)
    (inside : i ≤ frames.length) :
    frames.insertIdx i frame = frames.take i ++ frame :: frames.drop i := by
  induction frames generalizing i with
  | nil =>
      obtain rfl : i = 0 := by simpa using inside
      rfl
  | cons head tail ih =>
      cases i with
      | zero => rfl
      | succ i => simp [ih i (by simpa using inside)]

@[simp] theorem push_gapSince (b : JitterBuffer) (frame : CompleteFrame) (nowUs : UInt64) :
    (b.push frame nowUs).gapSince = b.gapSince := by
  unfold push
  split <;> rfl

theorem insertFrame_cases (frames : List CompleteFrame) (frame : CompleteFrame) :
    (∃ g ∈ frames, g.frameNumber = frame.frameNumber ∧ insertFrame frames frame = frames) ∨
      ∃ front back, frames = front ++ back ∧ insertFrame frames frame = front ++ frame :: back ∧
        (∀ f ∈ front, frameNewerOrEq f.frameNumber frame.frameNumber = false) ∧
        ∀ head ∈ back.head?, frameNewerOrEq head.frameNumber frame.frameNumber = true ∧
          head.frameNumber ≠ frame.frameNumber := by
  unfold insertFrame
  cases place : frames.findIdx? (fun f => frameNewerOrEq f.frameNumber frame.frameNumber) with
  | none =>
      have older := List.findIdx?_eq_none_iff.mp place
      exact Or.inr ⟨frames, [], by simp, rfl, older, by simp⟩
  | some i =>
      obtain ⟨inside, newer, older⟩ := List.findIdx?_eq_some_iff_getElem.mp place
      have present : frames[i]? = some frames[i] := List.getElem?_eq_getElem inside
      by_cases same : frames[i].frameNumber = frame.frameNumber
      · exact Or.inl ⟨frames[i], List.getElem_mem inside, same, by simp [present, same]⟩
      · refine Or.inr ⟨frames.take i, frames.drop i, by simp, ?_, ?_, ?_⟩
        · simp [present, same, insertIdx_split frames frame i (Nat.le_of_lt inside)]
        · intro f member
          obtain ⟨j, below, rfl⟩ := List.mem_take_iff_getElem.mp member
          simpa using older j (by omega)
        · intro head first
          rw [List.head?_drop, present] at first
          cases first
          exact ⟨newer, same⟩

theorem insertFrame_sorted {rank : UInt32 → Nat}
    (injective : ∀ first second, rank first = rank second → first = second)
    (frames : List CompleteFrame) (frame : CompleteFrame)
    (order : ∀ f ∈ frames, frameNewerOrEq f.frameNumber frame.frameNumber =
      decide (rank frame.frameNumber ≤ rank f.frameNumber))
    (sorted : frames.Pairwise (fun f g => rank f.frameNumber < rank g.frameNumber)) :
    (insertFrame frames frame).Pairwise
      (fun f g => rank f.frameNumber < rank g.frameNumber) := by
  rcases insertFrame_cases frames frame with ⟨_, _, _, same⟩ | ⟨front, back, rfl, same,
    older, newer⟩
  · rwa [same]
  · rw [same]
    obtain ⟨frontSorted, backSorted, across⟩ := List.pairwise_append.mp sorted
    have below (f : CompleteFrame) (present : f ∈ front) :
        rank f.frameNumber < rank frame.frameNumber := by
      have not := older f present
      rw [order f (List.mem_append_left back present)] at not
      simpa using not
    have above (g : CompleteFrame) (present : g ∈ back) :
        rank frame.frameNumber < rank g.frameNumber := by
      cases back with
      | nil => cases present
      | cons head tail =>
          obtain ⟨ahead, apart⟩ := newer head rfl
          rw [order head (List.mem_append_right front List.mem_cons_self)] at ahead
          have first : rank frame.frameNumber < rank head.frameNumber := by
            rcases Nat.lt_or_eq_of_le (of_decide_eq_true ahead) with less | same
            · exact less
            · exact absurd (injective _ _ same).symm apart
          rcases List.mem_cons.mp present with rfl | later
          · exact first
          · exact Nat.lt_trans first ((List.pairwise_cons.mp backSorted).1 g later)
    rw [List.pairwise_append]
    refine ⟨frontSorted, List.pairwise_cons.mpr ⟨above, backSorted⟩, ?_⟩
    intro f present g after
    rcases List.mem_cons.mp after with rfl | later
    · exact below f present
    · exact across f present g later

theorem mem_insertFrame (frames : List CompleteFrame) (frame f : CompleteFrame)
    (member : f ∈ insertFrame frames frame) : f = frame ∨ f ∈ frames := by
  rcases insertFrame_cases frames frame with ⟨_, _, _, same⟩ | ⟨front, back, rfl, same, _⟩
  · rw [same] at member
    exact Or.inr member
  · rw [same] at member
    simp only [List.mem_append, List.mem_cons] at member ⊢
    tauto

theorem insertFrame_keeps (frames : List CompleteFrame) (frame f : CompleteFrame)
    (member : f ∈ frames) : f ∈ insertFrame frames frame := by
  rcases insertFrame_cases frames frame with ⟨_, _, _, same⟩ | ⟨front, back, rfl, same, _⟩
  · rwa [same]
  · rw [same]
    simp only [List.mem_append, List.mem_cons] at member ⊢
    tauto

theorem mem_push (b : JitterBuffer) (frame : CompleteFrame) (nowUs : UInt64) (f : CompleteFrame)
    (member : f ∈ (b.push frame nowUs).frames) : f = frame ∨ f ∈ b.frames := by
  simp only [push] at member
  split at member
  · exact Or.inr member
  · exact mem_insertFrame _ _ f member

theorem push_keeps (b : JitterBuffer) (frame : CompleteFrame) (nowUs : UInt64) (f : CompleteFrame)
    (member : f ∈ b.frames) : f ∈ (b.push frame nowUs).frames := by
  simp only [push]
  split
  · exact member
  · exact insertFrame_keeps _ _ f member

theorem insertFrame_self (frames : List CompleteFrame) (frame : CompleteFrame)
    (fresh : ∀ g ∈ frames, g.frameNumber ≠ frame.frameNumber) :
    frame ∈ insertFrame frames frame := by
  rcases insertFrame_cases frames frame with ⟨g, present, same, _⟩ | ⟨front, back, _, same, _⟩
  · exact absurd same (fresh g present)
  · simp [same]

@[simp] theorem trimWaiting_frames (b : JitterBuffer) :
    b.trimWaiting.frames = b.frames.drop (b.frames.length - waitMaxDepth) := by
  simp only [trimWaiting]

@[simp] theorem trimWaiting_baseUs (b : JitterBuffer) : b.trimWaiting.baseUs = b.baseUs := by
  simp only [trimWaiting]

@[simp] theorem trimWaiting_lastPopped (b : JitterBuffer) :
    b.trimWaiting.lastPopped = b.lastPopped := by
  simp only [trimWaiting]

@[simp] theorem trimWaiting_gapSince (b : JitterBuffer) : b.trimWaiting.gapSince = b.gapSince := by
  simp only [trimWaiting]

@[simp] theorem trimWaiting_needKeyframe (b : JitterBuffer) :
    b.trimWaiting.needKeyframe = b.needKeyframe := by
  simp only [trimWaiting]

inductive Pops (b : JitterBuffer) (nowUs : UInt64) : Popped → Prop
  | empty (nothing : b.frames = []) : Pops b nowUs ⟨.empty, none, b⟩
  | hold (needed : b.needKeyframe = true) (deltas : ∀ f ∈ b.frames, f.keyframe = false) :
      Pops b nowUs ⟨.holdDeltas, none, b.trimWaiting⟩
  | jump (exit : PopExit) (idx : Nat) (frame : CompleteFrame)
      (found : b.frames[idx]? = some frame) (keyframe : frame.keyframe = true)
      (jumps : exit = .keyframe ∧ b.needKeyframe = true ∨
        exit ∈ [.gapJump, .gameJump, .lateJump] ∧ b.needKeyframe = false)
      (newest : exit = .lateJump ∨
        ∀ j f, idx < j → b.frames[j]? = some f → f.keyframe = false) :
      Pops b nowUs ⟨exit, some frame, { b.after idx frame with needKeyframe := false }⟩
  | inOrder (head : CompleteFrame) (rest : List CompleteFrame) (found : b.frames = head :: rest)
      (started : b.needKeyframe = false) (follows : b.gapBefore head = false) :
      Pops b nowUs ⟨.inOrder, some head, b.after 0 head⟩
  | gapWait (head : CompleteFrame) (rest : List CompleteFrame) (found : b.frames = head :: rest)
      (started : b.needKeyframe = false) (gap : b.gapBefore head = true)
      (deltas : ∀ f ∈ b.frames, f.keyframe = false)
      (early : saturatingSub nowUs (b.gapSince.getD nowUs) ≤ gapWaitUs) :
      Pops b nowUs ⟨.gapWait, none,
        { b with gapSince := some (b.gapSince.getD nowUs) }.trimWaiting⟩
  | gapAbandoned (head : CompleteFrame) (rest : List CompleteFrame)
      (found : b.frames = head :: rest)
      (started : b.needKeyframe = false) (gap : b.gapBefore head = true)
      (deltas : ∀ f ∈ b.frames, f.keyframe = false)
      (late : gapWaitUs < saturatingSub nowUs (b.gapSince.getD nowUs)) :
      Pops b nowUs ⟨.gapAbandoned, none,
        { b with gapSince := some (b.gapSince.getD nowUs) }.giveUpOnGop⟩
  | abandoned (exit : PopExit) (started : b.needKeyframe = false)
      (behind : exit ∈ [.gameAbandoned, .lateAbandoned]) :
      Pops b nowUs ⟨exit, none, b.giveUpOnGop⟩
  | notDue (started : b.needKeyframe = false) : Pops b nowUs ⟨.notDue, none, b⟩
  | panic (some : b.frames ≠ []) (started : b.needKeyframe = false) (unset : b.baseUs = none) :
      Pops b nowUs ⟨.panic, none, b⟩

theorem newest_some (frames : List CompleteFrame) (idx k : Nat)
    (newest : newestKeyframe frames idx = some k) :
    (∃ frame, frames[k]? = some frame ∧ frame.keyframe = true) ∧
      ∀ j f, k < j → j ≤ idx → frames[j]? = some f → f.keyframe = false := by
  induction idx with
  | zero =>
      rw [newestKeyframe] at newest
      split at newest
      · rename_i here
        cases newest
        exact ⟨(Option.any_eq_true _ _).mp here, fun j f above below => by omega⟩
      · cases newest
  | succ idx ih =>
      rw [newestKeyframe] at newest
      split at newest
      · rename_i here
        cases newest
        exact ⟨(Option.any_eq_true _ _).mp here, fun j f above below => by omega⟩
      · rename_i not
        obtain ⟨found, later⟩ := ih newest
        refine ⟨found, fun j f above below present => ?_⟩
        by_cases last : j = idx + 1
        · subst last
          simpa [present] using not
        · exact later j f above (by omega) present

theorem newest_none (frames : List CompleteFrame) (idx : Nat)
    (newest : newestKeyframe frames idx = none) (j : Nat) (f : CompleteFrame) (below : j ≤ idx)
    (present : frames[j]? = some f) : f.keyframe = false := by
  induction idx with
  | zero =>
      obtain rfl : j = 0 := by omega
      rw [newestKeyframe] at newest
      split at newest
      · cases newest
      · rename_i not
        simpa [present] using not
  | succ idx ih =>
      rw [newestKeyframe] at newest
      split at newest
      · cases newest
      · rename_i not
        by_cases last : j = idx + 1
        · subst last
          simpa [present] using not
        · exact ih newest (by omega)

theorem newest_all (frames : List CompleteFrame)
    (newest : newestKeyframe frames (frames.length - 1) = none) :
    ∀ f ∈ frames, f.keyframe = false := by
  intro f member
  obtain ⟨j, inside, rfl⟩ := List.mem_iff_getElem.mp member
  exact newest_none frames _ newest j _ (by omega) (List.getElem?_eq_getElem inside)

theorem newest_last (frames : List CompleteFrame) (k : Nat)
    (newest : newestKeyframe frames (frames.length - 1) = some k) :
    ∀ j f, k < j → frames[j]? = some f → f.keyframe = false := by
  intro j f above present
  have inside := (List.getElem?_eq_some_iff.mp present).1
  exact (newest_some frames _ k newest).2 j f above (by omega) present

theorem take_found (b : JitterBuffer) (exit : PopExit) (idx : Nat) (frame : CompleteFrame)
    (found : b.frames[idx]? = some frame) :
      b.take exit idx = ⟨exit, some frame, b.after idx frame⟩ := by
  simp only [take, found]

section Pops

variable (b : JitterBuffer) (nowUs : UInt64)

theorem pops_jump (exit : PopExit) (idx bound : Nat)
    (newest : newestKeyframe b.frames bound = some idx) (started : b.needKeyframe = false)
    (jumps : exit ∈ [.gapJump, .gameJump, .lateJump])
    (whole : exit = .lateJump ∨ bound = b.frames.length - 1) :
    Pops b nowUs (b.take exit idx) := by
  obtain ⟨frame, found, keyframe⟩ := (newest_some b.frames bound idx newest).1
  have same : b.after idx frame = { b.after idx frame with needKeyframe := false } := by
    simp [after, started]
  rw [take_found b exit idx frame found, same]
  refine .jump exit idx frame found keyframe (Or.inr ⟨jumps, started⟩) ?_
  rcases whole with late | all
  · exact Or.inl late
  · subst all
    exact Or.inr (newest_last b.frames idx newest)

theorem pops_head (head : CompleteFrame) (rest : List CompleteFrame)
    (found : b.frames = head :: rest) (started : b.needKeyframe = false)
    (follows : b.gapBefore head = false) : Pops b nowUs (b.take .inOrder 0) := by
  rw [take_found b .inOrder 0 head (by simp [found])]
  exact .inOrder head rest found started follows

theorem pops_gap (head : CompleteFrame) (rest : List CompleteFrame)
    (found : b.frames = head :: rest) (started : b.needKeyframe = false)
    (gap : b.gapBefore head = true) : Pops b nowUs (b.popGap nowUs) := by
  unfold popGap
  cases newest : newestKeyframe b.frames (b.frames.length - 1) with
  | some k => exact pops_jump b nowUs .gapJump k _ newest started (by simp) (Or.inr rfl)
  | none =>
      have deltas := newest_all b.frames newest
      dsimp only
      split
      · rename_i late
        exact .gapAbandoned head rest found started gap deltas late
      · rename_i early
        exact .gapWait head rest found started gap deltas (UInt64.not_lt.mp early)

theorem pops_game (head : CompleteFrame) (rest : List CompleteFrame)
    (found : b.frames = head :: rest) (started : b.needKeyframe = false)
    (follows : b.gapBefore head = false) : Pops b nowUs b.popGame := by
  unfold popGame
  cases newest : newestKeyframe b.frames (b.frames.length - 1) with
  | some k => exact pops_jump b nowUs .gameJump k _ newest started (by simp) (Or.inr rfl)
  | none =>
      dsimp only
      split
      · exact .abandoned .gameAbandoned started (by simp)
      · exact pops_head b nowUs head rest found started follows

theorem pops_quality (head : CompleteFrame) (rest : List CompleteFrame)
    (found : b.frames = head :: rest) (started : b.needKeyframe = false)
    (follows : b.gapBefore head = false) : Pops b nowUs (b.popQuality head nowUs) := by
  unfold popQuality
  cases unset : b.baseUs with
  | none => exact .panic (by simp [found]) started unset
  | some base =>
      dsimp only
      split
      · exact .notDue started
      · split
        · cases newest : newestKeyframe b.frames (b.lastDue base nowUs) with
          | some k => exact pops_jump b nowUs .lateJump k _ newest started (by simp) (Or.inl rfl)
          | none =>
              dsimp only
              split
              · exact .abandoned .lateAbandoned started (by simp)
              · exact pops_head b nowUs head rest found started follows
        · exact pops_head b nowUs head rest found started follows

theorem pops : Pops b nowUs (b.pop nowUs) := by
  unfold pop
  split
  · rename_i nothing
    exact .empty nothing
  · rename_i head rest found
    split
    · rename_i needed
      cases newest : newestKeyframe b.frames (b.frames.length - 1) with
      | some k =>
          obtain ⟨frame, present, keyframe⟩ := (newest_some b.frames _ k newest).1
          dsimp only
          rw [take_found { b with needKeyframe := false } .keyframe k frame present]
          exact .jump .keyframe k frame present keyframe (Or.inl ⟨rfl, needed⟩)
            (Or.inr (newest_last b.frames k newest))
      | none => exact .hold needed (newest_all b.frames newest)
    · rename_i started
      rw [Bool.not_eq_true] at started
      split
      · rename_i gap
        exact pops_gap b nowUs head rest found started gap
      · rename_i follows
        rw [Bool.not_eq_true] at follows
        split
        · exact pops_game b nowUs head rest found started follows
        · exact pops_quality b nowUs head rest found started follows

end Pops

end JitterBuffer

end Castr.Media
