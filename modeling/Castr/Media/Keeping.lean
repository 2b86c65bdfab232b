import Castr.Media.Arc

/-! The keyframes of the queue. A pop that finds the head too late, and no keyframe among the frames
that are due, throws the queue away with whatever keyframe is not due yet. -/

namespace Castr.Media.JitterBuffer

open Castr.Lib.Run
open Castr.Proto (CompleteFrame Mode frameNewerOrEq)

/-- A keyframe in the queue stays there, or goes out, or is passed by a newer frame that does. -/
def Keeps (b : JitterBuffer) (nowUs : UInt64) : Prop :=
  ∀ k ∈ b.frames, k.keyframe = true → k ∈ (b.pop nowUs).buffer.frames ∨
    ∃ f, (b.pop nowUs).frame = some f ∧ frameNewerOrEq f.frameNumber k.frameNumber = true

/-- The head is more than half a second late and more frames than it are due, none of them a
keyframe: the queue is given up. -/
def quitsLate (b : JitterBuffer) (nowUs : UInt64) : Bool :=
  match b.frames, b.baseUs with
  | head :: _, some base =>
      !b.needKeyframe && !b.gapBefore head && decide (b.mode = .quality) &&
        decide (dueAt base head ≤ nowUs.toInt64) && decide (0 < b.lastDue base nowUs) &&
        decide (b.intervalUs.toInt64 < nowUs.toInt64 - dueAt base head) &&
        decide (qualityMaxLateUs < nowUs.toInt64 - dueAt base head) &&
        (newestKeyframe b.frames (b.lastDue base nowUs)).isNone
  | _, _ => false

/-- The queue that would be given up has a keyframe in it. -/
def quitsKeyframe (b : JitterBuffer) (nowUs : UInt64) : Bool :=
  b.quitsLate nowUs && b.frames.any CompleteFrame.keyframe

def OnArc (b : JitterBuffer) : Prop :=
  ∃ base, Arc base b.frames ∧ ∀ last, b.lastPopped = some last → base = last

/-- Before anything is out, the number of a frame is not on an arc with those of the queue. -/
def strays (b : JitterBuffer) : Op → Bool
  | .push frame _ =>
      b.lastPopped.isNone &&
        !(b.frames.head?.all (fun head => frameNewerOrEq frame.frameNumber head.frameNumber) ||
          b.frames.all (fun f => frameNewerOrEq f.frameNumber frame.frameNumber))
  | _ => false

theorem onArc_empty (b : JitterBuffer) (empty : b.frames = []) : OnArc b := by
  refine ⟨b.lastPopped.getD 0, ?_, ?_⟩
  · rw [empty]
    exact arc_nil _
  · intro last popped
    rw [popped, Option.getD_some]

theorem onArc_fewer {b next : JitterBuffer} (arc : OnArc b)
    (same : next.lastPopped = b.lastPopped) (fewer : next.frames.Sublist b.frames) :
    OnArc next := by
  obtain ⟨base, onArc, last⟩ := arc
  exact ⟨base, onArc.sublist fewer, fun n popped => last n (same ▸ popped)⟩

theorem onArc_after {b next : JitterBuffer} (arc : OnArc b) (idx : Nat) (frame : CompleteFrame)
    (found : b.frames[idx]? = some frame) (last : next.lastPopped = some frame.frameNumber)
    (frames : next.frames = b.frames.drop (idx + 1)) : OnArc next := by
  obtain ⟨base, onArc, _⟩ := arc
  obtain ⟨inside, rfl⟩ := List.getElem?_eq_some_iff.mp found
  have split : b.frames = b.frames.take idx ++ b.frames[idx] :: b.frames.drop (idx + 1) := by
    rw [List.getElem_cons_drop, List.take_append_drop]
  rw [split] at onArc
  refine ⟨b.frames[idx].frameNumber, ?_, fun n popped => ?_⟩
  · rw [frames]
    exact onArc.rebase.sublist (List.sublist_cons_self _ _)
  · rw [last] at popped
    exact Option.some.inj popped

theorem onArc_pop (b : JitterBuffer) (arc : OnArc b) (nowUs : UInt64) :
    OnArc (b.pop nowUs).buffer := by
  have possible := pops b nowUs
  generalize b.pop nowUs = result at possible ⊢
  cases possible with
  | empty nothing => exact arc
  | hold needed deltas =>
      refine onArc_fewer arc (by simp) ?_
      rw [trimWaiting_frames]
      exact List.drop_sublist _ _
  | jump exit idx frame found keyframe jumps newest =>
      exact onArc_after arc idx frame found rfl rfl
  | inOrder head rest found started follows =>
      exact onArc_after arc 0 head (by simp [found]) rfl rfl
  | gapWait head rest found started gap deltas early =>
      refine onArc_fewer arc (by simp) ?_
      rw [trimWaiting_frames]
      exact List.drop_sublist _ _
  | gapAbandoned head rest found started gap deltas late => exact onArc_empty _ rfl
  | abandoned exit started behind => exact onArc_empty _ rfl
  | notDue started => exact arc
  | panic some started unset => exact arc

theorem arc_front (frames : List CompleteFrame) (base : UInt32) (arc : Arc base frames)
    (frame : CompleteFrame)
    (fits : (frames.head?.all (fun head => frameNewerOrEq frame.frameNumber head.frameNumber) ||
      frames.all (fun f => frameNewerOrEq f.frameNumber frame.frameNumber)) = true) :
    ∃ start, Arc start frames ∧ reach start frame.frameNumber < halfCircle := by
  rcases (Bool.or_eq_true _ _).mp fits with after | before
  · cases frames with
    | nil => exact ⟨frame.frameNumber, arc_nil _, reach_self_lt frame.frameNumber⟩
    | cons head rest =>
        rw [List.head?_cons, Option.all_some, newer_reach] at after
        have whole : Arc base ([] ++ head :: rest) := arc
        exact ⟨head.frameNumber, whole.rebase, of_decide_eq_true after⟩
  · have near (f : CompleteFrame) (present : f ∈ frames) :
        reach frame.frameNumber f.frameNumber < halfCircle := by
      have newer := List.all_eq_true.mp before f present
      rw [newer_reach] at newer
      exact of_decide_eq_true newer
    refine ⟨frame.frameNumber, ⟨near, ?_⟩, reach_self_lt frame.frameNumber⟩
    apply arc.sorted.imp_of_mem
    intro f g inside other less
    have newer := newer_on_arc base g.frameNumber f.frameNumber (arc.near g other)
      (arc.near f inside)
    rw [decide_eq_true (Nat.le_of_lt less),
      newer_on_arc frame.frameNumber _ _ (near g other) (near f inside)] at newer
    rcases Nat.lt_or_eq_of_le (of_decide_eq_true newer) with nearer | same
    · exact nearer
    · rw [reach_injective frame.frameNumber _ _ same] at less
      exact absurd less (Nat.lt_irrefl _)

theorem onArc_push (b : JitterBuffer) (arc : OnArc b) (frame : CompleteFrame) (nowUs : UInt64)
    (fits : b.strays (.push frame nowUs) = false) : OnArc (b.push frame nowUs) := by
  obtain ⟨base, onArc, first⟩ := arc
  unfold push
  split
  · exact ⟨base, onArc, first⟩
  · next fresh =>
      cases popped : b.lastPopped with
      | none =>
          have placed : (b.frames.head?.all
                (fun head => frameNewerOrEq frame.frameNumber head.frameNumber) ||
              b.frames.all (fun f => frameNewerOrEq f.frameNumber frame.frameNumber)) = true := by
            simpa only [strays, popped, Option.isNone_none, Bool.true_and, Bool.not_eq_false']
              using fits
          obtain ⟨start, around, near⟩ := arc_front b.frames base onArc frame placed
          exact ⟨start, around.insert frame near, fun last same => by cases same⟩
      | some last =>
          have newer : frameNewerOrEq frame.frameNumber last = true := by
            by_contra older
            simp [stale, popped, older] at fresh
          obtain rfl := first last popped
          rw [newer_reach] at newer
          exact ⟨base, onArc.insert frame (of_decide_eq_true newer), fun n same => by
            rw [Option.some.inj same]⟩

theorem onArc_step (b : JitterBuffer) (op : Op) (arc : OnArc b) (fits : b.strays op = false) :
    OnArc (b.step op).1 := by
  cases op with
  | push frame nowUs => exact onArc_push b arc frame nowUs fits
  | pop nowUs => exact onArc_pop b arc nowUs
  | requireKeyframe => exact arc
  | setMode mode => exact onArc_empty _ rfl
  | flush => exact onArc_empty _ rfl
  | dropped => exact arc

theorem keeps_take (b : JitterBuffer) (arc : OnArc b) (idx : Nat) (frame k : CompleteFrame)
    (found : b.frames[idx]? = some frame) (present : k ∈ b.frames) :
    k ∈ b.frames.drop (idx + 1) ∨ frameNewerOrEq frame.frameNumber k.frameNumber = true := by
  obtain ⟨base, onArc, _⟩ := arc
  obtain ⟨inside, rfl⟩ := List.getElem?_eq_some_iff.mp found
  have split : b.frames = b.frames.take idx ++ b.frames[idx] :: b.frames.drop (idx + 1) := by
    rw [List.getElem_cons_drop, List.take_append_drop]
  rw [split] at onArc present
  rcases List.mem_append.mp present with before | now
  · exact Or.inr (onArc.newer k before)
  · rcases List.mem_cons.mp now with same | later
    · right
      rw [same, newer_reach]
      exact decide_eq_true (reach_self_lt _)
    · exact Or.inl later

theorem take_exit (b : JitterBuffer) (exit : PopExit) (idx : Nat) :
    (b.take exit idx).exit = exit ∨ (b.take exit idx).exit = .panic := by
  unfold take
  split
  · exact Or.inl rfl
  · exact Or.inr rfl

theorem popGap_exit (b : JitterBuffer) (nowUs : UInt64) :
    (b.popGap nowUs).exit ≠ .lateAbandoned ∧ (b.popGap nowUs).exit ≠ .gameAbandoned := by
  unfold popGap
  split
  · next k _ => rcases b.take_exit .gapJump k with same | same <;> simp [same]
  · dsimp only
    split <;> simp

theorem popGame_exit (b : JitterBuffer) :
    b.popGame.exit ≠ .lateAbandoned ∧
      (b.popGame.exit = .gameAbandoned → ∀ f ∈ b.frames, f.keyframe = false) := by
  unfold popGame
  split
  · next k _ => rcases b.take_exit .gameJump k with same | same <;> simp [same]
  · next newest =>
      split
      · exact ⟨by simp, fun _ => newest_all b.frames newest⟩
      · rcases b.take_exit .inOrder 0 with same | same <;> simp [same]

theorem popQuality_exit (b : JitterBuffer) (head : CompleteFrame) (nowUs : UInt64) :
    (b.popQuality head nowUs).exit ≠ .gameAbandoned ∧
      ((b.popQuality head nowUs).exit = .lateAbandoned ↔ ∃ base, b.baseUs = some base ∧
        dueAt base head ≤ nowUs.toInt64 ∧ 0 < b.lastDue base nowUs ∧
        b.intervalUs.toInt64 < nowUs.toInt64 - dueAt base head ∧
        qualityMaxLateUs < nowUs.toInt64 - dueAt base head ∧
        newestKeyframe b.frames (b.lastDue base nowUs) = none) := by
  have inOrder := b.take_exit .inOrder 0
  unfold popQuality
  cases b.baseUs with
  | none => simp
  | some base =>
      simp only [Option.some.injEq, exists_eq_left']
      split
      · next early => simp [Int64.not_le.mpr early]
      · next due =>
          have due := Int64.not_lt.mp due
          split
          · next behind =>
              split
              · next k newest =>
                  rcases b.take_exit .lateJump k with same | same <;> simp [same, newest]
              · next newest =>
                  split
                  · next late => simp [due, behind.1, behind.2, late, newest]
                  · next soon => rcases inOrder with same | same <;> simp [same, soon]
          · next level =>
              have apart : ¬ (0 < b.lastDue base nowUs ∧
                  b.intervalUs.toInt64 < nowUs.toInt64 - dueAt base head) := level
              apply And.intro
              · rcases inOrder with same | same <;> simp [same]
              · apply iff_of_false
                · rcases inOrder with same | same <;> simp [same]
                · exact fun late => apart ⟨late.2.1, late.2.2.1⟩

theorem quitsLate_eq (b : JitterBuffer) (nowUs : UInt64) (head : CompleteFrame)
    (rest : List CompleteFrame) (found : b.frames = head :: rest) :
    b.quitsLate nowUs = true ↔ b.needKeyframe = false ∧ b.gapBefore head = false ∧
      b.mode = .quality ∧ ∃ base, b.baseUs = some base ∧
        dueAt base head ≤ nowUs.toInt64 ∧ 0 < b.lastDue base nowUs ∧
        b.intervalUs.toInt64 < nowUs.toInt64 - dueAt base head ∧
        qualityMaxLateUs < nowUs.toInt64 - dueAt base head ∧
        newestKeyframe b.frames (b.lastDue base nowUs) = none := by
  unfold quitsLate
  rw [found]
  cases b.baseUs with
  | none => simp
  | some base => simp [and_assoc]

theorem pop_exit (b : JitterBuffer) (nowUs : UInt64) :
    ((b.pop nowUs).exit = .lateAbandoned ↔ b.quitsLate nowUs = true) ∧
      ((b.pop nowUs).exit = .gameAbandoned → ∀ f ∈ b.frames, f.keyframe = false) := by
  cases found : b.frames with
  | nil => simp [pop, quitsLate, found]
  | cons head rest =>
      rw [quitsLate_eq b nowUs head rest found, ← found]
      unfold pop
      rw [found]
      dsimp only
      rw [← found]
      cases needed : b.needKeyframe with
      | true =>
          simp only [if_true]
          split
          · next i _ =>
              rcases take_exit { b with needKeyframe := false } .keyframe i with same | same <;>
                simp [same]
          · simp
      | false =>
          cases gap : b.gapBefore head with
          | true =>
              obtain ⟨late, game⟩ := b.popGap_exit nowUs
              simp [late, game]
          | false =>
              cases mode : b.mode with
              | game =>
                  obtain ⟨late, game⟩ := b.popGame_exit
                  simpa [late] using game
              | quality =>
                  obtain ⟨game, late⟩ := b.popQuality_exit head nowUs
                  simpa [game] using late

theorem pops_keep (b : JitterBuffer) (arc : OnArc b) (nowUs : UInt64) (result : Popped)
    (possible : Pops b nowUs result) (game : result.exit ≠ .gameAbandoned)
    (late : result.exit ≠ .lateAbandoned) (k : CompleteFrame) (present : k ∈ b.frames)
    (keyframe : k.keyframe = true) :
    k ∈ result.buffer.frames ∨
      ∃ f, result.frame = some f ∧ frameNewerOrEq f.frameNumber k.frameNumber = true := by
  have delta (deltas : ∀ f ∈ b.frames, f.keyframe = false) : False := by
    rw [deltas k present] at keyframe
    cases keyframe
  cases possible with
  | jump exit idx frame found _ _ _ =>
      rcases keeps_take b arc idx frame k found present with later | newer
      · exact Or.inl later
      · exact Or.inr ⟨frame, rfl, newer⟩
  | inOrder head rest found _ _ =>
      rcases keeps_take b arc 0 head k (by simp [found]) present with later | newer
      · exact Or.inl later
      · exact Or.inr ⟨head, rfl, newer⟩
  | hold _ deltas => exact (delta deltas).elim
  | gapWait _ _ _ _ _ deltas => exact (delta deltas).elim
  | gapAbandoned _ _ _ _ _ deltas => exact (delta deltas).elim
  | abandoned exit _ behind =>
      simp only [List.mem_cons, List.not_mem_nil, or_false] at behind
      exact (behind.elim game late).elim
  | empty => exact Or.inl present
  | notDue => exact Or.inl present
  | panic => exact Or.inl present

theorem keeps_pop (b : JitterBuffer) (arc : OnArc b) (nowUs : UInt64) :
    Keeps b nowUs ↔ b.quitsKeyframe nowUs = false := by
  obtain ⟨quits, deltas⟩ := b.pop_exit nowUs
  have possible := pops b nowUs
  unfold Keeps quitsKeyframe
  generalize b.pop nowUs = result at possible quits deltas ⊢
  by_cases late : result.exit = .lateAbandoned
  · have gone : result.frame = none ∧ result.buffer.frames = [] := by
      cases possible <;> simp_all [giveUpOnGop]
    rw [quits.mp late, Bool.true_and, List.any_eq_false]
    simp [gone]
  · have stays : b.quitsLate nowUs = false := Bool.eq_false_iff.mpr (fun quit =>
      late (quits.mpr quit))
    rw [stays, Bool.false_and]
    refine iff_of_true ?_ rfl
    intro k present keyframe
    by_cases game : result.exit = .gameAbandoned
    · rw [deltas game k present] at keyframe
      cases keyframe
    · exact pops_keep b arc nowUs result possible game late k present keyframe

/-- Wherever the frame numbers lie on an arc, a pop loses a keyframe exactly if it gives the queue
up as too late with a keyframe behind the frames that are due. -/
theorem keyframe_kept_iff (mode : Mode) (intervalUs : UInt64) (ops : List Op)
    (fits : ever step strays (new mode intervalUs) ops = false) (front back : List Op)
    (split : ops = front ++ back) (nowUs : UInt64) :
    Keeps (final step (new mode intervalUs) front) nowUs ↔
      (final step (new mode intervalUs) front).quitsKeyframe nowUs = false := by
  apply keeps_pop
  apply prefix_induction step (new mode intervalUs) ops (fun _ b => OnArc b)
    (onArc_empty _ rfl) _ front back split
  intro before op after place arc
  exact onArc_step _ op arc (never_at step _ strays ops before after op place fits)

/-- A film that has begun, and a keyframe that is a second away. -/
def filmBegun : List Op :=
  [.push ⟨0, 0, 0, true, []⟩ 0, .pop 0, .push ⟨0, 1, 33333, false, []⟩ 33333,
    .push ⟨0, 2, 66666, false, []⟩ 66666, .push ⟨0, 3, 1000000, true, []⟩ 700000]

theorem keyframe_kept_in_time : Keeps (final step (new .quality 33333) filmBegun) 200000 :=
  (keyframe_kept_iff .quality 33333 filmBegun (by decide +kernel) filmBegun [] (by simp)
    200000).mpr (by decide +kernel)

/-- The frame after the first is six tenths of a second late, and the keyframe goes with it. -/
theorem keyframe_thrown_away :
    ¬ ∀ mode intervalUs ops nowUs, Keeps (final step (new mode intervalUs) ops) nowUs := by
  intro keeps
  have kept := keeps .quality 33333 filmBegun 783333 ⟨0, 3, 1000000, true, []⟩ (by decide +kernel)
    rfl
  have gone : ((final step (new .quality 33333) filmBegun).pop 783333).frame = none ∧
      ((final step (new .quality 33333) filmBegun).pop 783333).buffer.frames = [] := by
    decide +kernel
  simp [gone] at kept

end Castr.Media.JitterBuffer
