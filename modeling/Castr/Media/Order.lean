import Castr.Media.Jitter
import Castr.Proto.Gathering

/-! On the frames of one stream the queue is sorted and lies ahead of the last frame out. -/

namespace Castr.Proto.FrameStream

open Castr.Lib

variable (s : FrameStream)

/-- The place in the stream that a frame number stands for. -/
def place (frameNumber : UInt32) : Nat := Serial.ahead s.start.toBitVec frameNumber.toBitVec

variable {s}

theorem place_frame (short : s.Short) (index : Nat) (c : CompleteFrame)
    (found : s.frame index = some c) :
    index < s.frames.length ∧ s.place c.frameNumber = index := by
  obtain ⟨inside, number⟩ := s.frame_number index c found
  exact ⟨inside, by rw [place, number, ahead_number short index inside]⟩

theorem place_injective (first second : UInt32) (same : s.place first = s.place second) :
    first = second := UInt32.toBitVec_inj.mp (Serial.ahead_injective _ _ _ same)

theorem newer_place (short : s.Short) (first second : UInt32)
    (firstInside : s.place first < s.frames.length)
    (secondInside : s.place second < s.frames.length) :
    frameNewerOrEq first second = decide (s.place second ≤ s.place first) := by
  have order := Serial.ahead_lt_half_iff s.start.toBitVec second.toBitVec first.toBitVec
    (2 ^ 31 - 1) (by decide)
  unfold Short at short
  unfold place at *
  rw [frameNewerOrEq, decide_eq_decide, ← order (by omega) (by omega)]
  exact UInt32.lt_iff_toNat_lt

theorem place_succ (short : s.Short) (number : UInt32)
    (inside : s.place number < s.frames.length) : s.place (number + 1) = s.place number + 1 := by
  unfold Short at short
  unfold place at *
  exact Serial.ahead_succ _ _ (by omega)

end Castr.Proto.FrameStream

namespace Castr.Media.JitterBuffer

open Castr.Proto (CompleteFrame FrameStream frameNewerOrEq)

structure Ordered (s : FrameStream) (b : JitterBuffer) : Prop where
  member : ∀ f ∈ b.frames, ∃ index, s.frame index = some f
  sorted : b.frames.Pairwise (fun f g => s.place f.frameNumber < s.place g.frameNumber)
  last : ∀ n, b.lastPopped = some n → s.place n < s.frames.length
  ahead : ∀ n, b.lastPopped = some n → ∀ f ∈ b.frames, s.place n < s.place f.frameNumber

variable {s : FrameStream}

theorem ordered_new (s : FrameStream) (mode : Castr.Proto.Mode) (intervalUs : UInt64) :
    Ordered s (new mode intervalUs) :=
  ⟨by simp [new], by simp [new], by simp [new], by simp [new]⟩

theorem Ordered.inside {b : JitterBuffer} (short : s.Short) (ordered : Ordered s b)
    (f : CompleteFrame) (present : f ∈ b.frames) : s.place f.frameNumber < s.frames.length := by
  obtain ⟨index, found⟩ := ordered.member f present
  obtain ⟨inside, same⟩ := FrameStream.place_frame short index f found
  rwa [same]

theorem Ordered.stale {b : JitterBuffer} (short : s.Short) (ordered : Ordered s b)
    (number : UInt32) (inside : s.place number < s.frames.length) :
    b.stale number = true ↔ ∃ n, b.lastPopped = some n ∧ s.place number ≤ s.place n := by
  unfold JitterBuffer.stale
  cases last : b.lastPopped with
  | none => simp
  | some n =>
      rw [Option.any_some, FrameStream.newer_place short number n inside (ordered.last n last)]
      simp only [Bool.or_eq_true, Bool.not_eq_true', decide_eq_false_iff_not, not_le, beq_iff_eq,
        Option.some.injEq, exists_eq_left']
      constructor
      · rintro (behind | rfl)
        · exact Nat.le_of_lt behind
        · exact Nat.le_refl _
      · intro behind
        rcases Nat.lt_or_eq_of_le behind with less | same
        · exact Or.inl less
        · exact Or.inr (FrameStream.place_injective _ _ same)

theorem ordered_insert (short : s.Short) (frames : List CompleteFrame) (frame : CompleteFrame)
    (member : ∀ f ∈ frames, s.place f.frameNumber < s.frames.length)
    (inside : s.place frame.frameNumber < s.frames.length)
    (sorted : frames.Pairwise (fun f g => s.place f.frameNumber < s.place g.frameNumber)) :
    (insertFrame frames frame).Pairwise
      (fun f g => s.place f.frameNumber < s.place g.frameNumber) :=
  insertFrame_sorted FrameStream.place_injective frames frame
    (fun f present => FrameStream.newer_place short _ _ (member f present) inside) sorted

theorem ordered_push (short : s.Short) (b : JitterBuffer) (ordered : Ordered s b)
    (frame : CompleteFrame) (nowUs : UInt64) (index : Nat) (drawn : s.frame index = some frame) :
    Ordered s (b.push frame nowUs) := by
  obtain ⟨bound, same⟩ := FrameStream.place_frame short index frame drawn
  have inside : s.place frame.frameNumber < s.frames.length := by rwa [same]
  unfold push
  split
  · exact ⟨ordered.member, ordered.sorted, ordered.last, ordered.ahead⟩
  · rename_i fresh
    refine ⟨?_, ordered_insert short b.frames frame (ordered.inside short) inside ordered.sorted,
      ordered.last, ?_⟩
    · intro f present
      rcases mem_insertFrame b.frames frame f present with rfl | before
      · exact ⟨index, drawn⟩
      · exact ordered.member f before
    · intro n last f present
      rcases mem_insertFrame b.frames frame f present with rfl | before
      · by_contra behind
        exact fresh ((ordered.stale short f.frameNumber inside).mpr ⟨n, last, by omega⟩)
      · exact ordered.ahead n last f before

theorem push_enters (short : s.Short) (b : JitterBuffer) (ordered : Ordered s b)
    (frame : CompleteFrame) (nowUs : UInt64) (index : Nat) (drawn : s.frame index = some frame)
    (fresh : b.stale frame.frameNumber = false) : frame ∈ (b.push frame nowUs).frames := by
  simp only [push, fresh, Bool.false_eq_true, if_false]
  rcases insertFrame_cases b.frames frame with ⟨g, present, same, unchanged⟩ | ⟨_, _, _,
    inserted, _⟩
  · obtain ⟨other, foundOther⟩ := ordered.member g present
    obtain ⟨_, place⟩ := FrameStream.place_frame short index frame drawn
    obtain ⟨_, placeOther⟩ := FrameStream.place_frame short other g foundOther
    rw [same, place] at placeOther
    subst placeOther
    rw [drawn] at foundOther
    cases foundOther
    rw [unchanged]
    exact present
  · simp [inserted]

theorem ordered_fewer {b next : JitterBuffer} (ordered : Ordered s b)
    (same : next.lastPopped = b.lastPopped) (fewer : next.frames.Sublist b.frames) :
    Ordered s next :=
  ⟨fun f present => ordered.member f (fewer.subset present), ordered.sorted.sublist fewer,
    fun n last => ordered.last n (same ▸ last),
    fun n last f present => ordered.ahead n (same ▸ last) f (fewer.subset present)⟩

theorem split_at (frames : List CompleteFrame) (idx : Nat) (frame : CompleteFrame)
    (found : frames[idx]? = some frame) :
    frames = frames.take idx ++ frame :: frames.drop (idx + 1) := by
  obtain ⟨inside, rfl⟩ := List.getElem?_eq_some_iff.mp found
  rw [List.getElem_cons_drop, List.take_append_drop]

theorem ordered_after (short : s.Short) {b next : JitterBuffer} (ordered : Ordered s b) (idx : Nat)
    (frame : CompleteFrame) (found : b.frames[idx]? = some frame)
    (last : next.lastPopped = some frame.frameNumber)
    (frames : next.frames = b.frames.drop (idx + 1)) : Ordered s next := by
  have split := split_at b.frames idx frame found
  have sorted := ordered.sorted
  rw [split, List.pairwise_append, List.pairwise_cons] at sorted
  have later (f : CompleteFrame) (present : f ∈ next.frames) : f ∈ b.frames := by
    rw [frames] at present
    exact List.mem_of_mem_drop present
  refine ⟨fun f present => ordered.member f (later f present), ?_, ?_, ?_⟩
  · rw [frames]
    exact sorted.2.1.2
  · intro n same
    rw [last] at same
    cases same
    exact ordered.inside short frame (List.mem_of_getElem? found)
  · intro n same f present
    rw [last] at same
    cases same
    rw [frames] at present
    exact sorted.2.1.1 f present

theorem ordered_pop (short : s.Short) (b : JitterBuffer) (ordered : Ordered s b) (nowUs : UInt64) :
    Ordered s (b.pop nowUs).buffer := by
  have possible := pops b nowUs
  generalize b.pop nowUs = result at possible ⊢
  cases possible with
  | empty nothing => exact ordered
  | hold needed deltas =>
      refine ordered_fewer ordered (by simp) ?_
      rw [trimWaiting_frames]
      exact List.drop_sublist _ _
  | jump exit idx frame found keyframe jumps newest =>
      exact ordered_after short ordered idx frame found rfl rfl
  | inOrder head rest found started follows =>
      exact ordered_after short ordered 0 head (by simp [found]) rfl rfl
  | gapWait head rest found started gap deltas early =>
      refine ordered_fewer ordered (by simp) ?_
      rw [trimWaiting_frames]
      exact List.drop_sublist _ _
  | gapAbandoned head rest found started gap deltas late =>
      exact ordered_fewer ordered rfl (List.nil_sublist _)
  | abandoned exit started behind => exact ordered_fewer ordered rfl (List.nil_sublist _)
  | notDue started => exact ordered
  | panic some started unset => exact ordered

theorem pop_keeps (b : JitterBuffer) (ordered : Ordered s b) (nowUs : UInt64) (f : CompleteFrame)
    (present : f ∈ b.frames) :
    f ∈ (b.pop nowUs).buffer.frames ∨
      (∃ n, (b.pop nowUs).buffer.lastPopped = some n ∧ s.place f.frameNumber ≤ s.place n) ∨
      ((b.pop nowUs).frame = none ∧ f ∉ (b.pop nowUs).buffer.frames) := by
  by_cases kept : f ∈ (b.pop nowUs).buffer.frames
  · exact Or.inl kept
  · right
    have taken (idx : Nat) (frame : CompleteFrame) (found : b.frames[idx]? = some frame)
        (gone : f ∉ b.frames.drop (idx + 1)) :
        s.place f.frameNumber ≤ s.place frame.frameNumber := by
      have split := split_at b.frames idx frame found
      have sorted := ordered.sorted
      rw [split] at present sorted
      rw [List.pairwise_append] at sorted
      rcases List.mem_append.mp present with before | now
      · exact Nat.le_of_lt (sorted.2.2 f before frame List.mem_cons_self)
      · rcases List.mem_cons.mp now with rfl | later
        · exact Nat.le_refl _
        · exact absurd later gone
    have possible := pops b nowUs
    generalize b.pop nowUs = result at possible kept ⊢
    cases possible with
    | jump exit idx frame found keyframe jumps newest =>
        exact Or.inl ⟨_, rfl, taken idx frame found kept⟩
    | inOrder head rest found started follows =>
        exact Or.inl ⟨_, rfl, taken 0 head (by simp [found]) kept⟩
    | _ => exact Or.inr ⟨rfl, kept⟩

theorem pop_subset (b : JitterBuffer) (nowUs : UInt64) (f : CompleteFrame)
    (member : f ∈ (b.pop nowUs).buffer.frames) : f ∈ b.frames := by
  have possible := pops b nowUs
  generalize b.pop nowUs = result at possible member
  cases possible with
  | hold needed deltas =>
      rw [trimWaiting_frames] at member
      exact List.mem_of_mem_drop member
  | jump exit idx frame found keyframe jumps newest => exact List.mem_of_mem_drop member
  | inOrder head rest found started follows => exact List.mem_of_mem_drop member
  | gapWait head rest found started gap deltas early =>
      rw [trimWaiting_frames] at member
      exact List.mem_of_mem_drop member
  | gapAbandoned head rest found started gap deltas late => cases member
  | abandoned exit started behind => cases member
  | _ => exact member

theorem pop_forward (b : JitterBuffer) (ordered : Ordered s b) (nowUs : UInt64) (n : UInt32)
    (last : b.lastPopped = some n) :
    ∃ m, (b.pop nowUs).buffer.lastPopped = some m ∧ s.place n ≤ s.place m := by
  have possible := pops b nowUs
  generalize b.pop nowUs = result at possible ⊢
  cases possible with
  | hold needed deltas => exact ⟨n, by simpa using last, Nat.le_refl _⟩
  | jump exit idx frame found keyframe jumps newest =>
      exact ⟨_, rfl, Nat.le_of_lt (ordered.ahead n last frame (List.mem_of_getElem? found))⟩
  | inOrder head rest found started follows =>
      exact ⟨_, rfl, Nat.le_of_lt (ordered.ahead n last head (by simp [found]))⟩
  | gapWait head rest found started gap deltas early =>
      exact ⟨n, by simpa using last, Nat.le_refl _⟩
  | gapAbandoned head rest found started gap deltas late => exact ⟨n, last, Nat.le_refl _⟩
  | abandoned exit started behind => exact ⟨n, last, Nat.le_refl _⟩
  | _ => exact ⟨n, last, Nat.le_refl _⟩

theorem gap_place (short : s.Short) (b : JitterBuffer) (ordered : Ordered s b)
    (head : CompleteFrame) (rest : List CompleteFrame) (found : b.frames = head :: rest)
    (gap : b.gapBefore head = true) :
    ∃ n, b.lastPopped = some n ∧ s.place n + 1 < s.place head.frameNumber := by
  obtain ⟨n, last, apart⟩ := (Option.any_eq_true _ _).mp gap
  simp only [Bool.and_eq_true, Bool.not_eq_true', bne_iff_ne, ne_eq] at apart
  have ahead := ordered.ahead n last head (by simp [found])
  refine ⟨n, last, Nat.lt_of_le_of_ne ahead ?_⟩
  intro same
  rw [← Nat.succ_eq_add_one, Nat.succ_eq_add_one,
    ← FrameStream.place_succ short n (ordered.last n last)] at same
  exact apart.2 (FrameStream.place_injective _ _ same).symm

end Castr.Media.JitterBuffer
