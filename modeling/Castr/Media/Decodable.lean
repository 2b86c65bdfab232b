import Castr.Media.Jitter

/-! What the jitter buffer hands out can be decoded: a delta only ever comes right after
the frame it refers to. -/

namespace Castr.Media.JitterBuffer

open Castr.Lib.Run
open Castr.Proto (CompleteFrame Mode)

def Answer.frame : Answer → Option CompleteFrame
  | .popped _ frame => frame
  | _ => none

/-- What breaks the chain of references: a reset, and a pop that abandoned the GOP. -/
def Answer.breaks : Answer → Bool
  | .popped exit frame => exit.abandoned && frame.isNone
  | .reset => true
  | _ => false

def Answer.Quiet (answer : Answer) : Prop := answer.frame = none ∧ answer.breaks = false

def Chained (seen : List Answer) (b : JitterBuffer) : Prop :=
  b.needKeyframe = false → ∃ earlier exit g between,
    seen = earlier ++ .popped exit (some g) :: between ∧
      b.lastPopped = some g.frameNumber ∧ ∀ answer ∈ between, answer.Quiet

theorem chained_quiet (seen : List Answer) (b next : JitterBuffer) (answer : Answer)
    (chained : Chained seen b) (quiet : answer.Quiet)
    (wants : next.needKeyframe = b.needKeyframe) (last : next.lastPopped = b.lastPopped) :
    Chained (seen ++ [answer]) next := by
  intro started
  rw [wants] at started
  obtain ⟨earlier, exit, g, between, split, same, quiets⟩ := chained started
  refine ⟨earlier, exit, g, between ++ [answer], by simp [split], by rw [last, same], ?_⟩
  intro other member
  rcases List.mem_append.mp member with before | now
  · exact quiets other before
  · exact List.mem_singleton.mp now ▸ quiet

theorem chained_pop (seen : List Answer) (b : JitterBuffer) (nowUs : UInt64)
    (chained : Chained seen b) :
    Chained (seen ++ [.popped (b.pop nowUs).exit (b.pop nowUs).frame]) (b.pop nowUs).buffer := by
  have possible := pops b nowUs
  generalize b.pop nowUs = result at possible ⊢
  cases possible with
  | empty nothing => exact chained_quiet seen b _ _ chained ⟨rfl, rfl⟩ rfl rfl
  | hold needed deltas => exact chained_quiet seen b _ _ chained ⟨rfl, rfl⟩ rfl rfl
  | jump exit idx frame found keyframe jumps newest =>
      intro _
      exact ⟨seen, exit, frame, [], rfl, rfl, by simp⟩
  | inOrder head rest found started follows =>
      intro _
      exact ⟨seen, .inOrder, head, [], rfl, rfl, by simp⟩
  | gapWait head rest found started gap deltas early =>
      exact chained_quiet seen b _ _ chained ⟨rfl, rfl⟩ rfl rfl
  | gapAbandoned head rest found started gap deltas late =>
      intro wants
      simp [giveUpOnGop] at wants
  | abandoned exit started behind =>
      intro wants
      simp [giveUpOnGop] at wants
  | notDue started => exact chained_quiet seen b _ _ chained ⟨rfl, rfl⟩ rfl rfl
  | panic some started unset => exact chained_quiet seen b _ _ chained ⟨rfl, rfl⟩ rfl rfl

theorem chained_step (seen : List Answer) (b : JitterBuffer) (op : Op) (chained : Chained seen b) :
    Chained (seen ++ [(step b op).2]) (step b op).1 := by
  cases op with
  | push frame nowUs =>
      exact chained_quiet seen b _ _ chained ⟨rfl, rfl⟩ (push_needKeyframe b frame nowUs)
        (push_lastPopped b frame nowUs)
  | pop nowUs => exact chained_pop seen b nowUs chained
  | requireKeyframe =>
      intro wants
      cases wants
  | setMode mode =>
      intro wants
      cases wants
  | flush =>
      intro wants
      cases wants
  | dropped => exact chained_quiet seen b _ _ chained ⟨rfl, rfl⟩ rfl rfl

theorem chained_run (mode : Mode) (intervalUs : UInt64) (ops : List Op) :
    Chained (outputs step (new mode intervalUs) ops) (final step (new mode intervalUs) ops) := by
  apply final_induction step (new mode intervalUs) ops
    (fun front b => Chained (outputs step (new mode intervalUs) front) b)
  · intro wants
    cases wants
  · intro front op back _ chained
    rw [outputs_snoc]
    exact chained_step _ _ op chained

theorem popped_delta (b : JitterBuffer) (nowUs : UInt64) (f : CompleteFrame)
    (popped : (b.pop nowUs).frame = some f) (delta : f.keyframe = false) :
    b.needKeyframe = false ∧ ∀ last, b.lastPopped = some last → f.frameNumber = last + 1 := by
  have possible := pops b nowUs
  generalize b.pop nowUs = result at possible popped
  cases possible with
  | jump exit idx frame found keyframe jumps newest =>
      cases popped
      rw [keyframe] at delta
      cases delta
  | inOrder head rest found started follows =>
      cases popped
      refine ⟨started, ?_⟩
      intro last present
      simpa [gapBefore, present, delta] using follows
  | _ => cases popped

/-- Every delta out is the successor of the frame out before it, with nothing in between
that breaks the chain. So the first frame out, also after a break, is a keyframe. -/
theorem decodable (mode : Mode) (intervalUs : UInt64) (ops : List Op) (front back : List Answer)
    (exit : PopExit) (f : CompleteFrame)
    (split : outputs step (new mode intervalUs) ops = front ++ .popped exit (some f) :: back) :
    (f.keyframe = false → ∃ earlier exit' g between,
      front = earlier ++ .popped exit' (some g) :: between ∧
        f.frameNumber = g.frameNumber + 1 ∧ ∀ answer ∈ between, answer.Quiet) ∧
    ∀ earlier between, front = earlier ++ between → (∀ answer ∈ between, answer.frame = none) →
      (earlier = [] ∨ ∃ before answer, earlier = before ++ [answer] ∧ answer.breaks = true) →
      f.keyframe = true := by
  have follows (delta : f.keyframe = false) : ∃ earlier exit' g between,
      front = earlier ++ .popped exit' (some g) :: between ∧
        f.frameNumber = g.frameNumber + 1 ∧ ∀ answer ∈ between, answer.Quiet := by
    obtain ⟨before, op, after, rfl, rfl, answer⟩ := outputs_split step _ ops front back _ split
    cases op with
    | pop nowUs =>
        simp only [step, Answer.popped.injEq] at answer
        obtain ⟨started, next⟩ := popped_delta _ nowUs f answer.2 delta
        obtain ⟨earlier, exit', g, between, seen, last, quiet⟩ :=
          chained_run mode intervalUs before started
        exact ⟨earlier, exit', g, between, seen, next _ last, quiet⟩
    | _ => cases answer
  refine ⟨follows, ?_⟩
  intro earlier between same unseen start
  by_contra delta
  rw [Bool.not_eq_true] at delta
  obtain ⟨front', exit', g, between', split', _, quiet⟩ := follows delta
  rw [same] at split'
  rcases List.append_eq_append_iff.mp split' with ⟨rest, rfl, later⟩ | ⟨rest, rfl, later⟩
  · have absurd := unseen (.popped exit' (some g)) (by simp [later])
    cases absurd
  · cases rest with
    | nil =>
        have absurd := unseen (.popped exit' (some g)) (by
          rw [List.nil_append] at later
          simp [← later])
        cases absurd
    | cons first rest =>
        obtain ⟨rfl, rfl⟩ := List.cons.inj later
        rcases start with none | ⟨before, answer, ending, breaks⟩
        · simp at none
        · rcases List.eq_nil_or_concat rest with rfl | ⟨rest, final, rfl⟩
          · obtain ⟨_, last⟩ := List.append_inj' ending rfl
            obtain ⟨rfl, _⟩ := List.cons.inj last
            simp [Answer.breaks] at breaks
          · have last : final = answer := by
              rw [List.concat_eq_append, ← List.cons_append, ← List.append_assoc] at ending
              exact List.cons.inj (List.append_inj' ending rfl).2 |>.1
            have calm := quiet final (by simp)
            rw [last] at calm
            rw [calm.2] at breaks
            cases breaks

def firstFrame : CompleteFrame := ⟨0, 0, 0, true, [10]⟩

def secondFrame : CompleteFrame := ⟨0, 1, 33333, false, [11]⟩

theorem decodable_second_frame : ∃ earlier exit g between,
    [Answer.queued, .queued, .popped .keyframe (some firstFrame)] =
      earlier ++ .popped exit (some g) :: between ∧
    secondFrame.frameNumber = g.frameNumber + 1 ∧ ∀ answer ∈ between, answer.Quiet :=
  (decodable .game 33333 [.push firstFrame 0, .push secondFrame 10, .pop 20, .pop 30]
    [.queued, .queued, .popped .keyframe (some firstFrame)] [] .inOrder secondFrame
    (by decide)).1 rfl

def Based (b : JitterBuffer) : Prop := b.frames ≠ [] → b.baseUs ≠ none

theorem based_pop (b : JitterBuffer) (nowUs : UInt64) (based : Based b) :
    Based (b.pop nowUs).buffer := by
  have fewer (n : Nat) (some : b.frames.drop n ≠ []) : b.frames ≠ [] := by
    intro nothing
    simp [nothing] at some
  have possible := pops b nowUs
  generalize b.pop nowUs = result at possible ⊢
  cases possible with
  | hold needed deltas =>
      simp only [Based, trimWaiting_frames, trimWaiting_baseUs]
      exact fun some => based (fewer _ some)
  | jump exit idx frame found keyframe jumps newest => exact fun some => based (fewer _ some)
  | inOrder head rest found started follows => exact fun some => based (fewer _ some)
  | gapWait head rest found started gap deltas early =>
      simp only [Based, trimWaiting_frames, trimWaiting_baseUs]
      exact fun some => based (fewer _ some)
  | gapAbandoned head rest found started gap deltas late => exact fun some => absurd rfl some
  | abandoned exit started behind => exact fun some => absurd rfl some
  | _ => exact based

theorem based_run (mode : Mode) (intervalUs : UInt64) (ops : List Op) :
    Based (final step (new mode intervalUs) ops) := by
  apply final_invariant step (new mode intervalUs) ops Based
  · intro some
    exact absurd rfl some
  · intro b op _ based
    cases op with
    | push frame nowUs =>
        simp only [Based, step, push]
        split
        · exact based
        · simp
    | pop nowUs => exact based_pop b nowUs based
    | requireKeyframe => exact based
    | setMode mode => exact fun some => absurd rfl some
    | flush => exact fun some => absurd rfl some
    | dropped => exact based

theorem pop_never_panics (mode : Mode) (intervalUs : UInt64) (ops : List Op) (nowUs : UInt64) :
    ((final step (new mode intervalUs) ops).pop nowUs).exit ≠ .panic := by
  have based := based_run mode intervalUs ops
  intro panics
  have possible := pops (final step (new mode intervalUs) ops) nowUs
  generalize (final step (new mode intervalUs) ops).pop nowUs = result at possible panics
  cases possible with
  | panic some started unset => exact based some unset
  | jump exit idx frame found keyframe jumps newest =>
      rcases jumps with ⟨named, _⟩ | ⟨named, _⟩
      · rw [named] at panics
        cases panics
      · cases panics
        simp at named
  | abandoned exit started behind =>
      cases panics
      simp at behind
  | _ => cases panics

end Castr.Media.JitterBuffer
