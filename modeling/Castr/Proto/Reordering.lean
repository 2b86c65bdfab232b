import Castr.Proto.Integrity

/-! Which orders of delivery the watermark tolerates. -/

namespace Castr.Proto.Reassembler

open Castr.Lib
open Castr.Lib.Run
open Castr.Lib.Word (saturatingSub saturatingSub_toNat)

/-- No tick comes more than `maxAgeUs` after a push. -/
def Young (maxAgeUs : UInt64) (ops : List Op) : Prop :=
  ∀ datagram seenUs nowUs rttUs repairWindowUs, Op.push datagram seenUs ∈ ops →
    Op.tick nowUs rttUs repairWindowUs ∈ ops → nowUs.toNat - seenUs.toNat ≤ maxAgeUs.toNat

theorem push_maxAge (r : Reassembler) (datagram : Bytes) (nowUs : UInt64) :
    (r.push datagram nowUs).2.maxAgeUs = r.maxAgeUs := by
  unfold push
  cases DatagramHeader.decode datagram with
  | error e => rfl
  | ok pair =>
      dsimp only
      split
      · rfl
      · rcases store_cases r pair.1 pair.2
          ((r.partials[pair.1.frameNumber]?).getD (Partial.new pair.1 nowUs)) with
          ⟨_, _, stored⟩ | ⟨_, _, stored⟩ | ⟨_, stored⟩
        all_goals rw [stored]
        all_goals rfl

theorem final_maxAge (maxAgeUs : UInt64) (ops : List Op) :
    (final step (new maxAgeUs) ops).maxAgeUs = maxAgeUs := by
  apply final_invariant step (new maxAgeUs) ops (fun r => r.maxAgeUs = maxAgeUs) rfl
  intro r op _ same
  cases op with
  | push datagram nowUs => exact (push_maxAge r datagram nowUs).trans same
  | tick nowUs rttUs repairWindowUs => exact same
  | fragmentsLost => exact same

theorem pending_seen (maxAgeUs : UInt64) (ops : List Op) :
    ∀ (fnum : UInt32) (p : Partial), (final step (new maxAgeUs) ops).partials[fnum]? = some p →
      ∃ datagram, Op.push datagram p.firstSeenUs ∈ ops := by
  apply final_induction step (new maxAgeUs) ops (fun front r =>
    ∀ (fnum : UInt32) (p : Partial), r.partials[fnum]? = some p →
      ∃ datagram, Op.push datagram p.firstSeenUs ∈ front)
  · intro fnum p present
    simp at present
  · intro front op back _ now fnum p present
    cases op with
    | push datagram nowUs =>
        rcases push_firstSeen _ datagram nowUs fnum p present with here | ⟨before, old, same⟩
        · exact ⟨datagram, by simp [here]⟩
        · obtain ⟨earlier, fed⟩ := now fnum before old
          exact ⟨earlier, by simp [same, fed]⟩
    | tick nowUs rttUs repairWindowUs =>
        simp only [step, tick_partials, Option.filter_eq_some_iff] at present
        obtain ⟨datagram, fed⟩ := now fnum p present.1
        exact ⟨datagram, List.mem_append_left _ fed⟩
    | fragmentsLost =>
        obtain ⟨datagram, fed⟩ := now fnum p present
        exact ⟨datagram, List.mem_append_left _ fed⟩

theorem mem_trace (s : FrameStream) (r : Reassembler) (ops : List Op) (event : Gather.Event) :
    event ∈ trace s r ops ↔ ∃ front op back,
      ops = front ++ op :: back ∧ event ∈ observed s (final step r front) op := by
  constructor
  · induction ops generalizing r with
    | nil => intro member; cases member
    | cons op ops ih =>
        intro member
        rcases List.mem_append.mp member with now | later
        · exact ⟨[], op, ops, rfl, now⟩
        · obtain ⟨front, next, back, rfl, seen⟩ := ih _ later
          exact ⟨op :: front, next, back, rfl, seen⟩
  · rintro ⟨front, op, back, rfl, seen⟩
    rw [trace_append]
    exact List.mem_append_right _ (List.mem_append_left _ seen)

theorem trace_idle (s : FrameStream) (maxAgeUs : UInt64) (ops : List Op)
    (young : Young maxAgeUs ops) (drop : Nat → Bool)
    (member : .discard drop ∈ trace s (new maxAgeUs) ops) (message : Nat) :
      drop message = false := by
  obtain ⟨front, op, back, split, seen⟩ := (mem_trace s _ ops _).mp member
  cases op with
  | push datagram nowUs =>
      simp only [observed] at seen
      split at seen <;> simp at seen
  | fragmentsLost => simp [observed] at seen
  | tick nowUs rttUs repairWindowUs =>
      simp only [observed, List.mem_singleton, Gather.Event.discard.injEq] at seen
      rw [seen, dropped]
      cases present : (final step (new maxAgeUs) front).partials[s.number message]? with
      | none => rfl
      | some p =>
          obtain ⟨datagram, fed⟩ := pending_seen maxAgeUs front _ p present
          have age := young datagram p.firstSeenUs nowUs rttUs repairWindowUs
            (by simp [split, fed]) (by simp [split])
          simp only [Option.any_some, expired, final_maxAge, decide_eq_false_iff_not,
            UInt64.not_lt, UInt64.le_iff_toNat_le, saturatingSub_toNat]
          exact age

theorem observed_length (s : FrameStream) (r : Reassembler) (op : Op) :
    (observed s r op).length ≤ 1 := by
  unfold observed
  split
  · split <;> simp
  · simp
  · simp

theorem trace_prefix (s : FrameStream) (r : Reassembler) (ops : List Op)
    (front : List Gather.Event) (within : front <+: trace s r ops) :
    ∃ earlier, earlier <+: ops ∧ trace s r earlier = front := by
  induction ops generalizing r front with
  | nil => exact ⟨[], List.prefix_rfl, (List.prefix_nil.mp within).symm⟩
  | cons op ops ih =>
      cases front with
      | nil => exact ⟨[], List.nil_prefix, rfl⟩
      | cons event front =>
          have short := observed_length s r op
          rw [trace] at within
          rcases seen : observed s r op with _ | ⟨only, _ | ⟨second, more⟩⟩
          · rw [seen] at within
            obtain ⟨earlier, inside, same⟩ := ih _ _ within
            exact ⟨op :: earlier, by simpa using inside, by simp [trace, seen, same]⟩
          · rw [seen] at within
            obtain ⟨rfl, rest⟩ := List.cons_prefix_cons.mp within
            obtain ⟨earlier, inside, same⟩ := ih _ _ rest
            exact ⟨op :: earlier, by simpa using inside, by simp [trace, seen, same]⟩
          · rw [seen] at short
            simp at short

section Drawn

variable {s : FrameStream} (short : s.Short) (r : Reassembler) (ops : List Op)
  (drawn : ∀ datagram nowUs, Op.push datagram nowUs ∈ ops → Drawn s datagram)
include short drawn

theorem piece_seen (message piece : Nat) :
    .piece message piece ∈ trace s r ops ↔
      ∃ inside : message < s.frames.length, piece < s.frames[message].count ∧
        KnownStream s.frames[message].frame.stream ∧
          Fed ops (s.frames[message].datagram piece) := by
  rw [mem_trace]
  constructor
  · rintro ⟨front, op, back, rfl, seen⟩
    cases op with
    | push datagram nowUs =>
        obtain ⟨index, inside, slot, within, rfl⟩ := drawn datagram nowUs (by simp)
        by_cases known : KnownStream s.frames[index].frame.stream
        · rw [observed_known short _ index slot nowUs inside within known, List.mem_singleton,
            Gather.Event.piece.injEq] at seen
          obtain ⟨rfl, rfl⟩ := seen
          exact ⟨inside, within, known, nowUs, by simp⟩
        · rw [observed_unknown s _ index slot nowUs inside known] at seen
          cases seen
    | tick nowUs rttUs repairWindowUs => simp [observed] at seen
    | fragmentsLost => simp [observed] at seen
  · rintro ⟨inside, within, known, nowUs, fed⟩
    obtain ⟨front, back, rfl⟩ := List.append_of_mem fed
    refine ⟨front, _, back, rfl, ?_⟩
    rw [observed_known short _ message piece nowUs inside within known]
    exact List.mem_singleton_self _

theorem arrived_trace (message : Nat) (inside : message < s.frames.length)
    (known : KnownStream s.frames[message].frame.stream) :
    Gather.arrived (trace s r ops) message ⊆ Finset.range s.frames[message].count ∧
      ∀ piece < s.frames[message].count, (piece ∈ Gather.arrived (trace s r ops) message ↔
        Fed ops (s.frames[message].datagram piece)) := by
  constructor
  · intro piece member
    rw [Gather.mem_arrived, piece_seen short r ops drawn] at member
    obtain ⟨_, within, _⟩ := member
    exact Finset.mem_range.mpr within
  · intro piece within
    rw [Gather.mem_arrived, piece_seen short r ops drawn]
    exact ⟨fun ⟨_, _, _, fed⟩ => fed, fun fed => ⟨inside, within, known, fed⟩⟩

theorem arrived_whole (message : Nat) (inside : message < s.frames.length)
    (known : KnownStream s.frames[message].frame.stream) :
    (Gather.arrived (trace s r ops) message).card = s.size message ↔
      ∀ datagram ∈ s.frames[message].datagrams, Fed ops datagram := by
  obtain ⟨within, each⟩ := arrived_trace short r ops drawn message inside known
  rw [s.size_of message inside]
  constructor
  · intro full datagram member
    obtain ⟨piece, bound, rfl⟩ := (Fragmented.mem_datagrams _ _).mp member
    have same := Finset.eq_of_subset_of_card_le within (by simp [full])
    exact (each piece bound).mp (by simp [same, bound])
  · intro fed
    have same : Gather.arrived (trace s r ops) message = Finset.range s.frames[message].count := by
      apply Finset.Subset.antisymm within
      intro piece bound
      rw [Finset.mem_range] at bound
      exact (each piece bound).mpr (fed _ ((Fragmented.mem_datagrams _ _).mpr ⟨piece, bound, rfl⟩))
    rw [same, Finset.card_range]

theorem arrived_begun (message : Nat) (inside : message < s.frames.length)
    (known : KnownStream s.frames[message].frame.stream) :
    (Gather.arrived (trace s r ops) message).Nonempty ↔
      ∃ datagram ∈ s.frames[message].datagrams, Fed ops datagram := by
  obtain ⟨within, each⟩ := arrived_trace short r ops drawn message inside known
  constructor
  · rintro ⟨piece, member⟩
    have bound := Finset.mem_range.mp (within member)
    exact ⟨_, (Fragmented.mem_datagrams _ _).mpr ⟨piece, bound, rfl⟩, (each piece bound).mp member⟩
  · rintro ⟨datagram, member, fed⟩
    obtain ⟨piece, bound, rfl⟩ := (Fragmented.mem_datagrams _ _).mp member
    exact ⟨piece, (each piece bound).mpr fed⟩

end Drawn

theorem returned_iff {s : FrameStream} (short : s.Short) (maxAgeUs : UInt64) (ops : List Op)
    (drawn : ∀ datagram nowUs, Op.push datagram nowUs ∈ ops → Drawn s datagram)
    (index : Nat) (inside : index < s.frames.length) :
    s.frames[index].frame ∈ (new maxAgeUs).returned ops ↔
      Gather.finished s.size (trace s (new maxAgeUs) ops) index := by
  rw [(simulated short (refines_init s maxAgeUs) ops drawn).2, Gather.finished]
  simp only [List.mem_filterMap, id_eq, exists_eq_right]
  have here := s.frame_of index inside
  constructor
  · rintro ⟨message, finished, found⟩
    rwa [frame_unique s short message index _ _ found here rfl] at finished
  · intro finished
    exact ⟨index, finished, here⟩

/-- Of no two frames is the newer one fed whole before the first datagram of the older. -/
def NoneOvertaken (sent : List (CompleteFrame × List Bytes)) (ops : List Op) : Prop :=
  ∀ older newer : Fin sent.length, older < newer → ∀ front, front <+: ops →
    (∀ datagram ∈ (sent.get newer).2, Fed front datagram) →
      ∃ datagram ∈ (sent.get older).2, Fed front datagram

theorem overlapping_iff {s : FrameStream} (short : s.Short) (r : Reassembler) (ops : List Op)
    (drawn : ∀ datagram nowUs, Op.push datagram nowUs ∈ ops → Drawn s datagram)
    (known : ∀ index (inside : index < s.frames.length), KnownStream s.frames[index].frame.stream) :
    Gather.Overlapping s.size (trace s r ops) ↔
      NoneOvertaken (s.frames.map (fun f => (f.frame, f.datagrams))) ops := by
  have before (front : List Op) (within : front <+: ops) (datagram : Bytes) (nowUs : UInt64)
      (fed : Op.push datagram nowUs ∈ front) : Drawn s datagram :=
    drawn datagram nowUs (within.subset fed)
  constructor
  · rintro overlapping ⟨older, olderInside⟩ ⟨newer, newerInside⟩ less front within fed
    simp only [List.length_map] at olderInside newerInside
    simp only [List.get_eq_getElem, List.getElem_map] at fed ⊢
    obtain ⟨back, rfl⟩ := id within
    rw [← arrived_whole short r front (before front within) newer newerInside
      (known newer newerInside)] at fed
    rw [← arrived_begun short r front (before front within) older olderInside
      (known older olderInside)]
    refine overlapping older newer less (trace s r front) ?_ fed
    rw [trace_append]
    exact List.prefix_append _ _
  · intro ordered older newer less events within full
    obtain ⟨front, earlier, rfl⟩ := trace_prefix s r ops events within
    have newerInside : newer < s.frames.length := by
      have some := Finset.card_pos.mp (full ▸ s.size_pos newer)
      obtain ⟨piece, member⟩ := some
      rw [Gather.mem_arrived, piece_seen short r front (before front earlier)] at member
      exact member.1
    have olderInside : older < s.frames.length := by omega
    rw [arrived_whole short r front (before front earlier) newer newerInside
      (known newer newerInside)] at full
    rw [arrived_begun short r front (before front earlier) older olderInside
      (known older olderInside)]
    have begun := ordered ⟨older, by simpa using olderInside⟩ ⟨newer, by simpa using newerInside⟩
      less front earlier
    simp only [List.get_eq_getElem, List.getElem_map] at begun
    exact begun full

/-- When all datagrams of a packetizer's frames are fed, in any order and with any
duplicates, all the frames are returned exactly when none is overtaken whole. -/
theorem all_returned_iff (p : Packetizer) (calls : List Packetizer.Call)
    (sent : List (CompleteFrame × List Bytes)) (produced : p.produce calls = some sent)
    (few : sent.length < 2 ^ 31) (maxAgeUs : UInt64) (ops : List Op)
    (drawn : ∀ datagram nowUs, Op.push datagram nowUs ∈ ops →
      ∃ frame ∈ sent, datagram ∈ frame.2)
    (complete : ∀ frame ∈ sent, ∀ datagram ∈ frame.2, Fed ops datagram)
    (young : Young maxAgeUs ops) :
    (∀ frame ∈ sent, frame.1 ∈ (new maxAgeUs).returned ops) ↔
      (∀ frame ∈ sent, KnownStream frame.1.stream) ∧ NoneOvertaken sent ops := by
  obtain ⟨s, _, rfl⟩ := produce_stream p calls sent produced
  have short : s.Short := by simpa [FrameStream.Short] using few
  have own (datagram : Bytes) (nowUs : UInt64) (fed : Op.push datagram nowUs ∈ ops) :
      Drawn s datagram := drawn_of_sent s datagram (drawn datagram nowUs fed)
  have idle (drop : Nat → Bool) (member : .discard drop ∈ trace s (new maxAgeUs) ops)
      (message : Nat) : drop message = false := trace_idle s maxAgeUs ops young drop member message
  have each : (∀ frame ∈ s.frames.map (fun f => (f.frame, f.datagrams)),
        frame.1 ∈ (new maxAgeUs).returned ops) ↔
      ∀ index < s.frames.length, Gather.finished s.size (trace s (new maxAgeUs) ops) index := by
    simp only [List.forall_mem_map]
    constructor
    · intro all index inside
      exact (returned_iff short maxAgeUs ops own index inside).mp (all _ (List.getElem_mem inside))
    · intro all f member
      obtain ⟨index, inside, rfl⟩ := List.mem_iff_getElem.mp member
      exact (returned_iff short maxAgeUs ops own index inside).mpr (all index inside)
  have exact_when (known : ∀ index (inside : index < s.frames.length),
      KnownStream s.frames[index].frame.stream) :
      (∀ index < s.frames.length, Gather.finished s.size (trace s (new maxAgeUs) ops) index) ↔
        NoneOvertaken (s.frames.map (fun f => (f.frame, f.datagrams))) ops := by
    rw [← overlapping_iff short (new maxAgeUs) ops own known]
    apply Gather.finished_all_iff s.size _ s.size_pos idle s.frames.length
    · intro message piece member
      exact ((piece_seen short _ ops own message piece).mp member).1
    · intro message inside
      rw [arrived_whole short _ ops own message inside (known message inside)]
      intro datagram member
      exact complete _ (List.mem_map.mpr ⟨_, List.getElem_mem inside, rfl⟩) datagram member
  rw [each]
  constructor
  · intro all
    have known (index : Nat) (inside : index < s.frames.length) :
        KnownStream s.frames[index].frame.stream := by
      have keeps := Gather.keeps_prefix s.size _ s.size_pos idle _ [] (List.append_nil _).symm
      obtain ⟨earlier, within, full⟩ := keeps.whole index (all index inside)
      obtain ⟨piece, member⟩ := Finset.card_pos.mp (full ▸ s.size_pos index)
      rw [Gather.mem_arrived] at member
      obtain ⟨_, _, known, _⟩ :=
        (piece_seen short _ ops own index piece).mp (within.subset member)
      exact known
    refine ⟨?_, (exact_when known).mp all⟩
    simp only [List.forall_mem_map]
    intro f member
    obtain ⟨index, inside, rfl⟩ := List.mem_iff_getElem.mp member
    exact known index inside
  · rintro ⟨known, ordered⟩
    simp only [List.forall_mem_map] at known
    exact (exact_when (fun index inside => known _ (List.getElem_mem inside))).mpr ordered

theorem wrapping_fed :
    ∀ frame ∈ wrappingSent, ∀ datagram ∈ frame.2, Fed wrappingOps datagram := by
  decide

theorem wrapping_young : Young 500000 wrappingOps := by
  intro datagram seenUs nowUs rttUs repairWindowUs pushed ticked
  simp only [wrappingOps, List.mem_cons, List.not_mem_nil, Op.push.injEq, Op.tick.injEq] at *
  rcases ticked with h | h | h | ⟨rfl, _⟩ | h | h <;> simp at *
  omega

theorem all_returned_wrapping :
    (∀ frame ∈ wrappingSent, frame.1 ∈ (new 500000).returned wrappingOps) ↔
      (∀ frame ∈ wrappingSent, KnownStream frame.1.stream) ∧
        NoneOvertaken wrappingSent wrappingOps :=
  all_returned_iff ⟨4294967295⟩ wrappingCalls wrappingSent (by decide) (by decide) 500000
    wrappingOps wrapping_drawn wrapping_fed wrapping_young

def overtakenCalls : List Packetizer.Call :=
  [⟨streamVideo, true, 5, [1], 1200⟩, ⟨streamVideo, false, 9, [2], 1200⟩]

def overtakenSent : List (CompleteFrame × List Bytes) :=
  [(⟨0, 0, 5, true, [1]⟩, [[0, 3, 0, 0, 1, 0, 0, 0, 0, 0, 0, 0, 5, 0, 0, 0, 0, 0, 0, 0, 1]]),
    (⟨0, 1, 9, false, [2]⟩, [[0, 2, 0, 0, 1, 0, 0, 0, 1, 0, 0, 0, 9, 0, 0, 0, 0, 0, 0, 0, 2]])]

/-- Two datagrams, one a frame, that the network swapped. -/
def overtakenOps : List Op :=
  [.push [0, 2, 0, 0, 1, 0, 0, 0, 1, 0, 0, 0, 9, 0, 0, 0, 0, 0, 0, 0, 2] 100,
    .push [0, 3, 0, 0, 1, 0, 0, 0, 0, 0, 0, 0, 5, 0, 0, 0, 0, 0, 0, 0, 1] 200]

theorem overtaken_frame_lost :
    Packetizer.new.produce overtakenCalls = some overtakenSent ∧
    (∀ datagram nowUs, Op.push datagram nowUs ∈ overtakenOps →
      ∃ frame ∈ overtakenSent, datagram ∈ frame.2) ∧
    (∀ frame ∈ overtakenSent, ∀ datagram ∈ frame.2, Fed overtakenOps datagram) ∧
    Young 500000 overtakenOps ∧
    ¬ ∀ frame ∈ overtakenSent, frame.1 ∈ (new 500000).returned overtakenOps := by
  refine ⟨by decide, ?_, by decide, by simp [Young, overtakenOps], by decide +kernel⟩
  intro datagram nowUs fed
  simp only [overtakenOps, overtakenSent, List.mem_cons, List.not_mem_nil, Op.push.injEq] at fed ⊢
  rcases fed with ⟨rfl, _⟩ | ⟨rfl, _⟩ | absent <;> simp at *

end Castr.Proto.Reassembler
