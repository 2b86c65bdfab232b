import Mathlib.Data.List.Chain
import Castr.Media.Arc
import Castr.Media.Decodable
import Castr.Media.Order

/-! What is shown. While the numbers that can still be shown lie within less than half the circle,
the queue is in order and every frame out is newer than the one before it. -/

namespace Castr.Media

open Castr.Lib
open Castr.Proto (CompleteFrame Mode frameNewerOrEq)

def Newer (first second : UInt32) : Prop := frameNewerOrEq first second = true ∧ first ≠ second

/-- How far the numbers of a list go, each counted forward from the one before it. -/
def travelled : List UInt32 → Nat
  | first :: second :: rest => reach first second + travelled (second :: rest)
  | _ => 0

theorem reach_self (number : UInt32) : reach number number = 0 := by simp [reach, Serial.ahead]

theorem Newer.reach_pos {first second : UInt32} (newer : Newer second first) :
    0 < reach first second := by
  apply Nat.pos_of_ne_zero
  intro zero
  exact newer.2 (reach_injective first second first (zero.trans (reach_self first).symm))

theorem reach_mod (first second third : UInt32) :
    reach first third = (reach first second + reach second third) % 2 ^ 32 :=
  Serial.ahead_mod first.toBitVec second.toBitVec third.toBitVec

theorem reach_travelled (first last : UInt32) (between : List UInt32) :
    reach first last = travelled (first :: between ++ [last]) % 2 ^ 32 := by
  induction between generalizing first with
  | nil =>
      have inside : reach first last < 2 ^ 32 := Serial.ahead_lt _ _
      simp only [List.cons_append, List.nil_append, travelled, Nat.add_zero,
        Nat.mod_eq_of_lt inside]
  | cons second rest ih =>
      calc
        reach first last = (reach first second + reach second last) % 2 ^ 32 := reach_mod _ _ _
        _ = (reach first second + travelled (second :: rest ++ [last])) % 2 ^ 32 := by
          rw [ih second, Nat.add_mod_mod]
        _ = travelled (first :: second :: rest ++ [last]) % 2 ^ 32 := rfl

theorem travelled_pos (first last : UInt32) (between : List UInt32)
    (forward : List.IsChain (fun n m => Newer m n) (first :: between ++ [last])) :
    0 < travelled (first :: between ++ [last]) := by
  cases between with
  | nil => exact Nat.add_pos_left (List.isChain_cons_cons.mp forward).1.reach_pos _
  | cons second rest => exact Nat.add_pos_left (List.isChain_cons_cons.mp forward).1.reach_pos _

theorem Arc.newer_sorted {base : UInt32} {frames : List CompleteFrame} (arc : Arc base frames) :
    frames.Pairwise (fun f g => Newer g.frameNumber f.frameNumber) := by
  apply arc.sorted.imp_of_mem
  intro f g inside other less
  refine ⟨?_, ?_⟩
  · rw [newer_on_arc base _ _ (arc.near g other) (arc.near f inside)]
    exact decide_eq_true (Nat.le_of_lt less)
  · intro same
    rw [same] at less
    exact absurd less (Nat.lt_irrefl _)

theorem arc_of_newer (base : UInt32) (frames : List CompleteFrame)
    (near : ∀ f ∈ frames, reach base f.frameNumber < halfCircle)
    (sorted : frames.Pairwise (fun f g => Newer g.frameNumber f.frameNumber)) :
    Arc base frames := by
  refine ⟨near, sorted.imp_of_mem ?_⟩
  intro f g inside other newer
  have ahead := newer.1
  rw [newer_on_arc base _ _ (near g other) (near f inside)] at ahead
  rcases Nat.lt_or_eq_of_le (of_decide_eq_true ahead) with less | same
  · exact less
  · exact absurd (reach_injective base _ _ same).symm newer.2

namespace JitterBuffer

open Castr.Lib.Run

def pushed (ops : List Op) : List UInt32 :=
  ops.filterMap (fun op =>
    match op with
    | .push frame _ => some frame.frameNumber
    | _ => none)

def shown (answers : List Answer) : List UInt32 :=
  answers.filterMap (fun answer => answer.frame.map CompleteFrame.frameNumber)

/-- At every moment the numbers pushed so far that are not older than the last one out lie within
a window of fewer than half of all numbers. -/
def Windowed (b : JitterBuffer) (ops : List Op) : Prop :=
  ∀ front back, ops = front ++ back → ∃ start size, size < halfCircle ∧
    ∀ n ∈ pushed front,
      (∀ last, (final step b front).lastPopped = some last → frameNewerOrEq n last = true) →
      reach start n < size

structure InOrder (b : JitterBuffer) : Prop where
  sorted : b.frames.Pairwise (fun f g => Newer g.frameNumber f.frameNumber)
  ahead : ∀ last, b.lastPopped = some last → ∀ f ∈ b.frames, Newer f.frameNumber last

theorem inOrder_empty (b : JitterBuffer) (empty : b.frames = []) : InOrder b := by
  refine ⟨?_, ?_⟩
  · rw [empty]
    exact List.Pairwise.nil
  · intro last popped f present
    rw [empty] at present
    cases present

theorem inOrder_fewer {b next : JitterBuffer} (ordered : InOrder b)
    (same : next.lastPopped = b.lastPopped) (fewer : next.frames.Sublist b.frames) :
    InOrder next :=
  ⟨ordered.sorted.sublist fewer,
    fun last popped f present => ordered.ahead last (same ▸ popped) f (fewer.subset present)⟩

theorem inOrder_after {b next : JitterBuffer} (ordered : InOrder b) (idx : Nat)
    (frame : CompleteFrame) (found : b.frames[idx]? = some frame)
    (last : next.lastPopped = some frame.frameNumber)
    (frames : next.frames = b.frames.drop (idx + 1)) : InOrder next := by
  obtain ⟨inside, rfl⟩ := List.getElem?_eq_some_iff.mp found
  have sorted := ordered.sorted.sublist (List.drop_sublist idx b.frames)
  rw [List.drop_eq_getElem_cons inside] at sorted
  refine ⟨?_, ?_⟩
  · rw [frames]
    exact (List.pairwise_cons.mp sorted).2
  · intro n popped f present
    rw [last, Option.some.injEq] at popped
    rw [frames] at present
    rw [← popped]
    exact (List.pairwise_cons.mp sorted).1 f present

theorem inOrder_pop (b : JitterBuffer) (ordered : InOrder b) (nowUs : UInt64) :
    InOrder (b.pop nowUs).buffer := by
  have possible := pops b nowUs
  generalize b.pop nowUs = result at possible ⊢
  cases possible with
  | empty nothing => exact ordered
  | hold needed deltas =>
      refine inOrder_fewer ordered (by simp) ?_
      rw [trimWaiting_frames]
      exact List.drop_sublist _ _
  | jump exit idx frame found keyframe jumps newest =>
      exact inOrder_after ordered idx frame found rfl rfl
  | inOrder head rest found started follows =>
      exact inOrder_after ordered 0 head (by simp [found]) rfl rfl
  | gapWait head rest found started gap deltas early =>
      refine inOrder_fewer ordered (by simp) ?_
      rw [trimWaiting_frames]
      exact List.drop_sublist _ _
  | gapAbandoned head rest found started gap deltas late => exact inOrder_empty _ rfl
  | abandoned exit started behind => exact inOrder_empty _ rfl
  | notDue started => exact ordered
  | panic nonempty started unset => exact ordered

theorem pop_shows (b : JitterBuffer) (ordered : InOrder b) (nowUs : UInt64) :
    (∀ f, (b.pop nowUs).frame = some f → ∀ last, b.lastPopped = some last →
      Newer f.frameNumber last) ∧
    (b.pop nowUs).buffer.lastPopped =
      ((b.pop nowUs).frame.map CompleteFrame.frameNumber).or b.lastPopped := by
  have possible := pops b nowUs
  generalize b.pop nowUs = result at possible ⊢
  cases possible with
  | jump exit idx frame found keyframe jumps newest =>
      refine ⟨?_, rfl⟩
      rintro f ⟨⟩ last popped
      exact ordered.ahead last popped frame (List.mem_of_getElem? found)
  | inOrder head rest found started follows =>
      refine ⟨?_, rfl⟩
      rintro f ⟨⟩ last popped
      exact ordered.ahead last popped head (by simp [found])
  | hold needed deltas => exact ⟨by simp, by simp⟩
  | gapWait head rest found started gap deltas early => exact ⟨by simp, by simp⟩
  | _ => exact ⟨by simp, by simp [giveUpOnGop]⟩

theorem inOrder_push (b : JitterBuffer) (ordered : InOrder b) (frame : CompleteFrame)
    (nowUs : UInt64)
    (near : b.lastPopped = none → ∃ base, reach base frame.frameNumber < halfCircle ∧
      ∀ f ∈ b.frames, reach base f.frameNumber < halfCircle) :
    InOrder (b.push frame nowUs) := by
  unfold push
  split
  · exact ⟨ordered.sorted, ordered.ahead⟩
  · next fresh =>
      cases popped : b.lastPopped with
      | none =>
          obtain ⟨base, own, others⟩ := near popped
          have arc := (arc_of_newer base b.frames others ordered.sorted).insert frame own
          exact ⟨arc.newer_sorted, fun last same => by cases same⟩
      | some last =>
          have own : Newer frame.frameNumber last := by
            simpa [stale, popped, Newer] using fresh
          have before := ordered.ahead last popped
          have close (n : UInt32) (newer : Newer n last) : reach last n < halfCircle := by
            have ahead := newer.1
            rw [newer_reach] at ahead
            exact of_decide_eq_true ahead
          have arc := (arc_of_newer last b.frames (fun f present => close _ (before f present))
            ordered.sorted).insert frame (close _ own)
          refine ⟨arc.newer_sorted, ?_⟩
          intro n same f present
          obtain rfl : last = n := Option.some.inj same
          rcases mem_insertFrame b.frames frame f present with rfl | queued
          · exact own
          · exact before f queued

/-- What a run keeps: the order, where the queue came from, and what was shown. -/
structure Shows (front : List Op) (answers : List Answer) (b : JitterBuffer) : Prop where
  ordered : InOrder b
  origin : ∀ f ∈ b.frames, f.frameNumber ∈ pushed front
  forward : List.IsChain (fun n m => Newer m n) (shown answers)
  last : b.lastPopped = (shown answers).getLast?

theorem pushed_snoc (front : List Op) (op : Op) :
    pushed (front ++ [op]) = pushed front ++ pushed [op] := List.filterMap_append

theorem shown_snoc (answers : List Answer) (answer : Answer) :
    shown (answers ++ [answer]) =
      shown answers ++ (answer.frame.map CompleteFrame.frameNumber).toList := by
  rw [shown, List.filterMap_append, shown]
  cases number : answer.frame.map CompleteFrame.frameNumber <;> simp [number]

theorem shows_quiet {front : List Op} {answers : List Answer} {b next : JitterBuffer} {op : Op}
    {answer : Answer} (shows : Shows front answers b) (ordered : InOrder next)
    (origin : ∀ f ∈ next.frames, f.frameNumber ∈ pushed (front ++ [op]))
    (quiet : answer.frame = none) (last : next.lastPopped = b.lastPopped) :
    Shows (front ++ [op]) (answers ++ [answer]) next := by
  have same : shown (answers ++ [answer]) = shown answers := by
    rw [shown_snoc, quiet]
    exact List.append_nil _
  exact ⟨ordered, origin, same ▸ shows.forward, same ▸ last.trans shows.last⟩

theorem shows_pop {front : List Op} {answers : List Answer} {b : JitterBuffer}
    (shows : Shows front answers b) (nowUs : UInt64) :
    Shows (front ++ [.pop nowUs]) (answers ++ [(b.step (.pop nowUs)).2])
      (b.step (.pop nowUs)).1 := by
  obtain ⟨newer, last⟩ := pop_shows b shows.ordered nowUs
  have ordered := inOrder_pop b shows.ordered nowUs
  have origin (f : CompleteFrame) (present : f ∈ (b.pop nowUs).buffer.frames) :
      f.frameNumber ∈ pushed (front ++ [.pop nowUs]) := by
    rw [pushed_snoc]
    exact List.mem_append_left _ (shows.origin f (pop_subset b nowUs f present))
  cases popped : (b.pop nowUs).frame with
  | none =>
      rw [popped] at last
      exact shows_quiet shows ordered origin popped last
  | some f =>
      rw [popped] at last
      have out : shown (answers ++ [(b.step (.pop nowUs)).2]) =
          shown answers ++ [f.frameNumber] := by
        simp [shown_snoc, step, Answer.frame, popped]
      refine ⟨ordered, origin, ?_, ?_⟩
      · rw [out, List.isChain_append]
        refine ⟨shows.forward, List.isChain_singleton _, ?_⟩
        intro n final m same
        obtain rfl : m = f.frameNumber := by simpa using same.symm
        exact newer f popped n (shows.last.trans final)
      · rw [out, List.getLast?_concat]
        exact last

theorem shows_step {front : List Op} {answers : List Answer} {b : JitterBuffer}
    (shows : Shows front answers b) (op : Op)
    (near : ∀ frame nowUs, op = .push frame nowUs → b.lastPopped = none → ∃ base,
      reach base frame.frameNumber < halfCircle ∧
        ∀ f ∈ b.frames, reach base f.frameNumber < halfCircle) :
    Shows (front ++ [op]) (answers ++ [(b.step op).2]) (b.step op).1 := by
  have origin (f : CompleteFrame) (present : f ∈ b.frames) :
      f.frameNumber ∈ pushed (front ++ [op]) := by
    rw [pushed_snoc]
    exact List.mem_append_left _ (shows.origin f present)
  cases op with
  | push frame nowUs =>
      refine shows_quiet shows (inOrder_push b shows.ordered frame nowUs (near frame nowUs rfl))
        ?_ rfl (push_lastPopped b frame nowUs)
      intro f present
      rcases mem_push b frame nowUs f present with rfl | queued
      · rw [pushed_snoc]
        exact List.mem_append_right _ (List.mem_singleton_self _)
      · exact origin f queued
  | pop nowUs => exact shows_pop shows nowUs
  | requireKeyframe =>
      exact shows_quiet shows ⟨shows.ordered.sorted, shows.ordered.ahead⟩ origin rfl rfl
  | setMode mode =>
      exact shows_quiet shows (inOrder_empty _ rfl) (by simp [step, setMode, flush]) rfl rfl
  | flush => exact shows_quiet shows (inOrder_empty _ rfl) (by simp [step, flush]) rfl rfl
  | dropped =>
      exact shows_quiet shows ⟨shows.ordered.sorted, shows.ordered.ahead⟩ origin rfl rfl

theorem shows_run (mode : Mode) (intervalUs : UInt64) (ops : List Op)
    (windowed : Windowed (new mode intervalUs) ops) (front back : List Op)
    (split : ops = front ++ back) :
    Shows front (outputs step (new mode intervalUs) front)
      (final step (new mode intervalUs) front) := by
  apply prefix_induction step (new mode intervalUs) ops
    (fun front b => Shows front (outputs step (new mode intervalUs) front) b) _ _ front back split
  · exact ⟨inOrder_empty _ rfl, by simp [new], List.isChain_nil, rfl⟩
  · intro front op back split shows
    rw [outputs_snoc]
    refine shows_step shows op ?_
    rintro frame nowUs rfl unseen
    obtain ⟨base, size, small, near⟩ := windowed (front ++ [.push frame nowUs]) back
      (by simp [split])
    have still : (final step (new mode intervalUs) (front ++ [.push frame nowUs])).lastPopped =
        none := by
      rw [final_snoc]
      exact (push_lastPopped _ frame nowUs).trans unseen
    have close (n : UInt32) (known : n ∈ pushed (front ++ [.push frame nowUs])) :
        reach base n < halfCircle :=
      Nat.lt_trans (near n known (fun last popped => by rw [still] at popped; cases popped)) small
    rw [pushed_snoc] at close
    exact ⟨base, close _ (List.mem_append_right _ (List.mem_singleton_self _)),
      fun f present => close _ (List.mem_append_left _ (shows.origin f present))⟩

/-- The queue is in order and newer than the last frame out, and each frame out is newer than the
one before it: a number comes again only after a whole turn of the circle, and less than half a turn
on the later frame is the newer. -/
theorem shown_in_order (mode : Mode) (intervalUs : UInt64) (ops : List Op)
    (windowed : Windowed (new mode intervalUs) ops) :
    (∀ front back, ops = front ++ back →
      (final step (new mode intervalUs) front).frames.Pairwise
        (fun f g => Newer g.frameNumber f.frameNumber) ∧
      ∀ last, (final step (new mode intervalUs) front).lastPopped = some last →
        ∀ f ∈ (final step (new mode intervalUs) front).frames, Newer f.frameNumber last) ∧
    List.IsChain (fun n m => Newer m n) (shown (outputs step (new mode intervalUs) ops)) ∧
    ∀ front n between m back,
      shown (outputs step (new mode intervalUs) ops) = front ++ n :: between ++ m :: back →
      (travelled (n :: between ++ [m]) < 2 ^ 32 → n ≠ m) ∧
      (travelled (n :: between ++ [m]) < halfCircle → Newer m n) := by
  refine ⟨?_, ?_, ?_⟩
  · intro front back split
    have shows := shows_run mode intervalUs ops windowed front back split
    exact ⟨shows.ordered.sorted, shows.ordered.ahead⟩
  · exact (shows_run mode intervalUs ops windowed ops [] (List.append_nil _).symm).forward
  · intro front n between m back split
    have forward := (shows_run mode intervalUs ops windowed ops [] (List.append_nil _).symm).forward
    rw [split] at forward
    have part : List.IsChain (fun n m => Newer m n) (n :: between ++ [m]) :=
      forward.infix ⟨front, back, by simp⟩
    have positive := travelled_pos n m between part
    have distance := reach_travelled n m between
    have apart (less : travelled (n :: between ++ [m]) < 2 ^ 32) : n ≠ m := by
      rintro rfl
      rw [reach_self, Nat.mod_eq_of_lt less] at distance
      omega
    refine ⟨apart, ?_⟩
    intro less
    have whole : travelled (n :: between ++ [m]) < 2 ^ 32 := Nat.lt_trans less (by decide)
    rw [Nat.mod_eq_of_lt whole] at distance
    refine ⟨?_, (apart whole).symm⟩
    rw [newer_reach, distance]
    exact decide_eq_true less

def orderly : List Op := [.push secondFrame 0, .push firstFrame 10, .pop 20, .pop 30]

theorem orderly_windowed : Windowed (new .game 33333) orderly := by
  intro front back split
  refine ⟨0, 2, by decide, ?_⟩
  intro n known _
  have numbers : n ∈ pushed orderly := by
    rw [split, pushed, List.filterMap_append]
    exact List.mem_append_left _ known
  have named : n = 1 ∨ n = 0 := by simpa [pushed, orderly, firstFrame, secondFrame] using numbers
  rcases named with rfl | rfl <;> decide

theorem shown_in_order_orderly :
    (final step (new .game 33333) orderly).frames.Pairwise
      (fun f g => Newer g.frameNumber f.frameNumber) ∧
    List.IsChain (fun n m => Newer m n) (shown (outputs step (new .game 33333) orderly)) :=
  have shows := shown_in_order .game 33333 orderly orderly_windowed
  ⟨(shows.1 orderly [] rfl).1, shows.2.1⟩

end JitterBuffer

end Castr.Media
