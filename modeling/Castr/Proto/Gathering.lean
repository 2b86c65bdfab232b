import Castr.Lib.Gather
import Castr.Proto.Assembly

/-! The reassembler refines the collector of numbered messages.

On the datagrams of one packetizer a frame number stands for the frame's place in the
stream. As long as the stream is shorter than half the circle of frame numbers, the
wrapping watermark is the collector's plain one, and the slots of a partial frame are
the pieces held of that message. -/

namespace Castr.Proto

open Castr.Lib
open Castr.Lib.Run

namespace FrameStream

variable (s : FrameStream)

def Short : Prop := s.frames.length < 2 ^ 31

def number (index : Nat) : UInt32 := s.start + UInt32.ofNat index

def frame (index : Nat) : Option CompleteFrame := (s.frames[index]?).map (fun f => f.frame)

def size (index : Nat) : Nat := (s.frames[index]?).elim 1 Fragmented.count

theorem size_pos (index : Nat) : 0 < s.size index := by
  unfold size
  cases s.frames[index]? with
  | none => exact Nat.one_pos
  | some f => exact f.count_pos

theorem size_of (index : Nat) (inside : index < s.frames.length) :
    s.size index = s.frames[index].count := by
  simp [size, inside]

theorem frame_of (index : Nat) (inside : index < s.frames.length) :
    s.frame index = some s.frames[index].frame := by
  simp [frame, inside]

theorem frame_number (index : Nat) (c : CompleteFrame) (found : s.frame index = some c) :
    index < s.frames.length ∧ c.frameNumber = s.number index := by
  obtain ⟨f, present, rfl⟩ := Option.map_eq_some_iff.mp found
  obtain ⟨inside, rfl⟩ := List.getElem?_eq_some_iff.mp present
  exact ⟨inside, s.numbered index inside⟩

theorem number_toBitVec (index : Nat) :
    (s.number index).toBitVec = Serial.nth s.start.toBitVec index := rfl

variable {s}

theorem ahead_number (short : s.Short) (index : Nat) (inside : index < s.frames.length) :
    Serial.ahead s.start.toBitVec (s.number index).toBitVec = index := by
  unfold Short at short
  rw [number_toBitVec, Serial.ahead_nth _ _ (by omega)]

theorem number_injective (short : s.Short) (first second : Nat)
    (firstInside : first < s.frames.length) (secondInside : second < s.frames.length)
    (same : s.number first = s.number second) : first = second := by
  rw [← ahead_number short first firstInside, same, ahead_number short second secondInside]

theorem number_newer (short : s.Short) (first second : Nat)
    (firstInside : first < s.frames.length) (secondInside : second < s.frames.length) :
    frameNewerOrEq (s.number first) (s.number second) = decide (second ≤ first) := by
  have order := Serial.ahead_lt_half_iff s.start.toBitVec (s.number second).toBitVec
    (s.number first).toBitVec (2 ^ 31 - 1) (by decide)
  rw [ahead_number short first firstInside, ahead_number short second secondInside] at order
  unfold Short at short
  rw [frameNewerOrEq, decide_eq_decide, ← order (by omega) (by omega)]
  exact UInt32.lt_iff_toNat_lt

end FrameStream

namespace Reassembler

theorem holds_congr {r next : Reassembler} {f : Fragmented} {held : Finset Nat}
    (same : next.partials[f.frame.frameNumber]? = r.partials[f.frame.frameNumber]?)
    (holds : r.Holds f held) : next.Holds f held := by
  unfold Holds at holds ⊢
  rwa [same]

structure Refines (s : FrameStream) (r : Reassembler) (g : Gather.State) : Prop where
  holds : ∀ index (inside : index < s.frames.length), r.Holds s.frames[index] (g.held index)
  newest : r.newestCompleted = g.newest.map s.number
  known : ∀ index, g.newest = some index → index < s.frames.length

def Drawn (s : FrameStream) (datagram : Bytes) : Prop :=
  ∃ (index : Nat) (inside : index < s.frames.length), ∃ piece < s.frames[index].count,
    s.frames[index].datagram piece = datagram

variable {s : FrameStream} {r : Reassembler} {g : Gather.State}

theorem refines_init (s : FrameStream) (maxAgeUs : UInt64) :
    Refines s (new maxAgeUs) Gather.init := by
  refine ⟨fun index inside => Or.inl ⟨new_partials maxAgeUs _, rfl⟩, rfl, ?_⟩
  intro index newest
  cases newest

theorem refines_past (short : s.Short) (refines : Refines s r g) (index : Nat)
    (inside : index < s.frames.length) : r.past (s.number index) = g.passed index := by
  rw [past, refines.newest, Gather.State.passed]
  cases newest : g.newest with
  | none => rfl
  | some mark =>
      have marked := refines.known mark newest
      have same : (s.number index == s.number mark) = decide (index = mark) := by
        rw [Bool.eq_iff_iff, beq_iff_eq, decide_eq_true_eq]
        exact ⟨FrameStream.number_injective short index mark inside marked, fun h => by rw [h]⟩
      simp only [Option.map_some, Option.any_some,
        FrameStream.number_newer short index mark inside marked, same]
      rw [Bool.eq_iff_iff]
      simp
      omega

theorem refines_watermark (short : s.Short) (refines : Refines s r g) (index : Nat)
    (inside : index < s.frames.length) :
    r.watermark (s.number index) = s.number (g.newest.elim index (max index)) := by
  rw [watermark, refines.newest]
  cases newest : g.newest with
  | none => rfl
  | some mark =>
      have marked := refines.known mark newest
      simp only [Option.map_some, Option.elim_some,
        FrameStream.number_newer short index mark inside marked, decide_eq_true_eq]
      split
      · rename_i order
        rw [max_eq_left order]
      · rename_i order
        rw [max_eq_right (by omega)]

/-- One datagram moves the reassembler as its piece moves the collector. -/
theorem refines_piece (short : s.Short) (refines : Refines s r g) (index piece : Nat)
    (nowUs : UInt64) (inside : index < s.frames.length) (within : piece < s.frames[index].count)
    (known : KnownStream s.frames[index].frame.stream) :
    Refines s (r.push (s.frames[index].datagram piece) nowUs).2
      (Gather.step s.size g (.piece index piece)).1 ∧
    (r.push (s.frames[index].datagram piece) nowUs).1 =
      .ok ((Gather.step s.size g (.piece index piece)).2.bind s.frame) := by
  have number : s.frames[index].frame.frameNumber = s.number index := s.numbered index inside
  have behind := refines_past short refines index inside
  have size := s.size_of index inside
  have others (other : Nat) (here : other < s.frames.length) (apart : other ≠ index) :
      (r.push (s.frames[index].datagram piece) nowUs).2.Holds s.frames[other] (g.held other) := by
    apply holds_congr _ (refines.holds other here)
    apply push_other
    intro h payload decoded same
    rw [s.frames[index].decode_datagram piece known] at decoded
    cases decoded
    rw [s.numbered other here] at same
    exact apart (FrameStream.number_injective short other index here inside
      (same.symm.trans number))
  rcases push_own r s.frames[index] (g.held index) piece nowUs known within
      (refines.holds index inside) with
    ⟨nothing, past, pushed⟩ | ⟨fresh, complete, pushed⟩ | ⟨fresh, partly, partials, pushed, grown⟩
  · rw [number, behind] at past
    have ignored : Gather.step s.size g (.piece index piece) = (g, none) :=
      if_pos ⟨nothing, past⟩
    rw [ignored, pushed]
    exact ⟨refines, rfl⟩
  · rw [number, behind] at fresh
    have finish : Gather.step s.size g (.piece index piece) = (g.finish index, some index) := by
      rw [Gather.step, if_neg fresh, if_pos (by rw [size, complete])]
    rw [finish, pushed]
    rw [pushed] at others
    refine ⟨⟨fun other here => ?_, ?_, ?_⟩, by simp [FrameStream.frame_of, inside]⟩
    · by_cases same : other = index
      · subst same
        exact Or.inl ⟨by simp [Reassembler.complete], by simp [Gather.State.finish]⟩
      · simpa [Gather.State.finish, same] using others other here same
    · simp only [Reassembler.complete, number, Gather.State.finish, Option.map_some,
        refines_watermark short refines index inside]
    · intro mark newest
      rcases Gather.finish_newest g index mark newest with same | old
      · exact same ▸ inside
      · exact refines.known mark old
  · rw [number, behind] at fresh
    have keep : Gather.step s.size g (.piece index piece) =
        (g.keep index (insert piece (g.held index)), none) := by
      rw [Gather.step, if_neg fresh, if_neg (by rwa [size])]
    rw [keep, pushed]
    rw [pushed] at others
    refine ⟨⟨fun other here => ?_, refines.newest, refines.known⟩, rfl⟩
    by_cases same : other = index
    · subst same
      simpa [Gather.State.keep] using grown
    · simpa [Gather.State.keep, same] using others other here same

theorem refines_unknown (index piece : Nat) (nowUs : UInt64) (inside : index < s.frames.length)
    (unknown : ¬ KnownStream s.frames[index].frame.stream) :
    r.push (s.frames[index].datagram piece) nowUs =
      (.error (.unknownStream s.frames[index].frame.stream), r) := by
  have decoded := DatagramHeader.decode_unknown (s.frames[index].header piece)
    (s.frames[index].payload piece) unknown
  simp only [push, Fragmented.datagram, decoded]
  rfl

/-- The messages whose partial state a tick at `nowUs` drops. -/
def dropped (s : FrameStream) (r : Reassembler) (nowUs : UInt64) (index : Nat) : Bool :=
  (r.partials[s.number index]?).any (r.expired nowUs)

theorem refines_tick (refines : Refines s r g) (nowUs rttUs repairWindowUs : UInt64) :
    Refines s (r.tick nowUs rttUs repairWindowUs).2 (g.discard (dropped s r nowUs)) := by
  refine ⟨fun index inside => ?_, refines.newest, refines.known⟩
  have number : s.frames[index].frame.frameNumber = s.number index := s.numbered index inside
  unfold Holds Gather.State.discard dropped
  rw [tick_partials, number]
  rcases refines.holds index inside with ⟨absent, nothing⟩ | ⟨p, present, rest⟩
  · rw [number] at absent
    exact Or.inl ⟨by simp [absent], by simp [absent, nothing]⟩
  · rw [number] at present
    cases old : r.expired nowUs p with
    | true => exact Or.inl ⟨by simp [present, Option.filter, old], by simp [present, old]⟩
    | false =>
        right
        exact ⟨p, by simp [present, Option.filter, old], by simpa [present, old] using rest⟩

def observed (s : FrameStream) (r : Reassembler) : Op → List Gather.Event
  | .push datagram _ =>
      match DatagramHeader.decode datagram with
      | .ok (h, _) =>
          [.piece (Serial.ahead s.start.toBitVec h.frameNumber.toBitVec) h.fragmentIndex.toNat]
      | .error _ => []
  | .tick nowUs _ _ => [.discard (dropped s r nowUs)]
  | .fragmentsLost => []

def trace (s : FrameStream) (r : Reassembler) : List Op → List Gather.Event
  | [] => []
  | op :: ops => observed s r op ++ trace s (step r op).1 ops

theorem observed_known (short : s.Short) (r : Reassembler) (index piece : Nat) (nowUs : UInt64)
    (inside : index < s.frames.length) (within : piece < s.frames[index].count)
    (known : KnownStream s.frames[index].frame.stream) :
    observed s r (.push (s.frames[index].datagram piece) nowUs) = [.piece index piece] := by
  have number : s.frames[index].frame.frameNumber = s.number index := s.numbered index inside
  simp only [observed, s.frames[index].decode_datagram piece known,
    s.frames[index].header_index piece within]
  simp only [Fragmented.header, number, FrameStream.ahead_number short index inside]

theorem observed_unknown (s : FrameStream) (r : Reassembler) (index piece : Nat) (nowUs : UInt64)
    (inside : index < s.frames.length) (unknown : ¬ KnownStream s.frames[index].frame.stream) :
    observed s r (.push (s.frames[index].datagram piece) nowUs) = [] := by
  have decoded := DatagramHeader.decode_unknown (s.frames[index].header piece)
    (s.frames[index].payload piece) unknown
  simp only [observed, Fragmented.datagram, decoded]

theorem returned_cons (r : Reassembler) (op : Op) (ops : List Op) :
    r.returned (op :: ops) = (step r op).2.frame.toList ++ (step r op).1.returned ops := by
  cases frame : (step r op).2.frame <;> simp [returned, frame]

theorem simulated_step (short : s.Short) (refines : Refines s r g) (op : Op)
    (drawn : ∀ datagram nowUs, op = .push datagram nowUs → Drawn s datagram) :
    Refines s (step r op).1 (final (Gather.step s.size) g (observed s r op)) ∧
      (step r op).2.frame.toList =
        ((outputs (Gather.step s.size) g (observed s r op)).filterMap id).filterMap s.frame := by
  cases op with
  | push datagram nowUs =>
      obtain ⟨index, inside, piece, within, rfl⟩ := drawn datagram nowUs rfl
      by_cases known : KnownStream s.frames[index].frame.stream
      · obtain ⟨next, answer⟩ := refines_piece short refines index piece nowUs inside within known
        rw [observed_known short r index piece nowUs inside within known]
        refine ⟨next, ?_⟩
        simp only [step, answer, Answer.frame, outputs_cons, outputs_nil]
        cases (Gather.step s.size g (.piece index piece)).2 with
        | none => rfl
        | some message => cases found : s.frame message <;> simp [found]
      · rw [observed_unknown s r index piece nowUs inside known]
        simp only [step, refines_unknown index piece nowUs inside known]
        exact ⟨refines, rfl⟩
  | tick nowUs rttUs repairWindowUs => exact ⟨refines_tick refines nowUs rttUs repairWindowUs, rfl⟩
  | fragmentsLost => exact ⟨⟨refines.holds, refines.newest, refines.known⟩, rfl⟩

theorem simulated (short : s.Short) (refines : Refines s r g) (ops : List Op)
    (drawn : ∀ datagram nowUs, Op.push datagram nowUs ∈ ops → Drawn s datagram) :
    Refines s (final step r ops) (final (Gather.step s.size) g (trace s r ops)) ∧
      r.returned ops =
        ((outputs (Gather.step s.size) g (trace s r ops)).filterMap id).filterMap s.frame := by
  induction ops generalizing r g with
  | nil => exact ⟨refines, rfl⟩
  | cons op ops ih =>
      obtain ⟨next, answer⟩ := simulated_step short refines op
        (fun datagram nowUs same => drawn datagram nowUs (by simp [same]))
      obtain ⟨last, rest⟩ := ih next
        (fun datagram nowUs fed => drawn datagram nowUs (List.mem_cons_of_mem op fed))
      rw [trace, final_append, outputs_append, returned_cons, answer, rest]
      exact ⟨last, by simp only [List.filterMap_append]⟩

theorem trace_append (s : FrameStream) (r : Reassembler) (front back : List Op) :
    trace s r (front ++ back) = trace s r front ++ trace s (final step r front) back := by
  induction front generalizing r with
  | nil => rfl
  | cons op ops ih => simp [trace, ih]

end Reassembler

end Castr.Proto
