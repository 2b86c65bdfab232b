import Castr.Proto.Integrity
import Castr.Proto.Pending
import Castr.Net.Retransmit

/-! A repair round: the receiver asks, the sender looks up, the frame completes. -/

namespace Castr.Net

open Castr.Lib.Run
open Castr.Proto
open Castr.Proto.Reassembler (Op Fed Foreign received mem_received)

theorem nack_numbers (f : Fragmented) (r : Reassembler) (held : Finset Nat)
    (holds : r.Holds f held) (nowUs rttUs repairWindowUs : UInt64) (nack : Nack)
    (asked : nack ∈ (r.tick nowUs rttUs repairWindowUs).1)
    (about : nack.frameNumber = f.frame.frameNumber) :
    nack.missing.map UInt16.toNat = (List.range f.count).filter (· ∉ held) := by
  obtain ⟨p, present, _, _, listed⟩ := (Reassembler.mem_nacks r _ _ _ nack).mp asked
  rw [about] at present
  rcases holds with ⟨absent, _⟩ | ⟨q, same, _, _, whole⟩
  · rw [absent] at present
    cases present
  · rw [same] at present
    cases present
    rw [listed, whole.missing, List.map_map]
    apply (List.map_congr_left _).trans (List.map_id _)
    intro index inside
    have bound := List.mem_range.mp (List.mem_of_mem_filter inside)
    simp only [Function.comp_apply, UInt16.toNat_ofNat', id_eq]
    exact Nat.mod_eq_of_lt (Nat.lt_trans bound f.count_lt)

theorem nack_increasing (missing : List UInt16) (count : Nat) (wanted : Nat → Bool)
    (numbers : missing.map UInt16.toNat = (List.range count).filter wanted) :
    missing.Pairwise (· < ·) := by
  have order : (missing.map UInt16.toNat).Pairwise (· < ·) := by
    rw [numbers]
    exact List.Pairwise.filter _ List.pairwise_lt_range
  rw [List.pairwise_map] at order
  exact order.imp UInt16.lt_iff_toNat_lt.mpr

theorem still_pending (f : Fragmented) (r : Reassembler) (held : Finset Nat)
    (holds : r.Holds f held) (nowUs rttUs repairWindowUs : UInt64) (nack : Nack)
    (asked : nack ∈ (r.tick nowUs rttUs repairWindowUs).1)
    (about : nack.frameNumber = f.frame.frameNumber) :
    held.Nonempty ∧ (r.tick nowUs rttUs repairWindowUs).2.Holds f held := by
  obtain ⟨p, present, fresh, _, _⟩ := (Reassembler.mem_nacks r _ _ _ nack).mp asked
  rw [about] at present
  constructor
  · rcases holds with ⟨absent, _⟩ | ⟨_, _, some, _, _⟩
    · rw [absent] at present
      cases present
    · exact some
  · apply Reassembler.holds_congr _ holds
    simp [Reassembler.tick_partials, present, Option.filter, fresh]

theorem lookup_fragments (missing : List UInt16) (fragments : List Bytes)
    (inside : ∀ i ∈ missing, i.toNat < fragments.length) :
    (missing.filterMap (fun i => fragments[i.toNat]?)).map some =
      missing.map (fun i => fragments[i.toNat]?) := by
  induction missing with
  | nil => rfl
  | cons i tail ih =>
      have here := inside i List.mem_cons_self
      have rest := ih (fun j member => inside j (List.mem_cons_of_mem i member))
      simp [here, rest]

section Round

variable (f : Fragmented) (r : Reassembler) (held : Finset Nat) (holds : r.Holds f held)
  (nowUs rttUs repairWindowUs : UInt64) (nack : Nack)
  (asked : nack ∈ (r.tick nowUs rttUs repairWindowUs).1)
  (about : nack.frameNumber = f.frame.frameNumber)
  (b : RetransmitBuffer) (distinct : (b.frames.map Sent.frameNumber).Nodup)
  (keyframe : Bool) (sentAtUs lookedUs : UInt64)
  (recorded : ⟨f.frame.frameNumber, keyframe, sentAtUs, f.datagrams⟩ ∈ (b.prune lookedUs).frames)
include holds asked about

theorem mem_missing (index : Nat) :
    index ∈ nack.missing.map UInt16.toNat ↔ index < f.count ∧ index ∉ held := by
  rw [nack_numbers f r held holds nowUs rttUs repairWindowUs nack asked about, List.mem_filter,
    List.mem_range, decide_eq_true_eq]

include distinct recorded

theorem lookup_missing :
    (b.lookup nack lookedUs).1.map some = nack.missing.map (fun i => f.datagrams[i.toNat]?) := by
  rw [RetransmitBuffer.lookup_held b lookedUs _ nack distinct recorded about]
  apply lookup_fragments
  intro i member
  have inside := (mem_missing f r held holds nowUs rttUs repairWindowUs nack asked about i.toNat).mp
    (List.mem_map_of_mem member)
  simpa [Fragmented.datagrams] using inside.1

theorem resent_completes (known : KnownStream f.frame.stream) (pushes : List (Bytes × UInt64))
    (own : ∀ push ∈ pushes, push.1 ∈ f.datagrams ∨ Foreign f.frame.frameNumber push.1)
    (resent : ∀ datagram ∈ (b.lookup nack lookedUs).1, datagram ∈ pushes.map Prod.fst) :
    f.frame ∈ (r.tick nowUs rttUs repairWindowUs).2.returned
      (pushes.map (fun push => .push push.1 push.2)) := by
  obtain ⟨nonempty, kept⟩ :=
    still_pending f r held holds nowUs rttUs repairWindowUs nack asked about
  refine Reassembler.completed f known pushes _ held kept nonempty own ?_
  intro index inside fresh
  obtain ⟨i, member, rfl⟩ := List.mem_map.mp
    ((mem_missing f r held holds nowUs rttUs repairWindowUs nack asked about index).mpr
      ⟨inside, fresh⟩)
  apply resent
  rw [RetransmitBuffer.lookup_held b lookedUs _ nack distinct recorded about, List.mem_filterMap]
  exact ⟨i, member, by simp [Fragmented.datagrams, inside]⟩

end Round

/-- A frame was recorded, whatever else was since, and some of its fragments came through: each NACK
for it lists what is missing, a lookup before it has aged finds exactly that, and what is resent
completes the frame. -/
theorem repair_completes (p next : Packetizer) (stream : UInt8) (keyframe : Bool)
    (timestampUs : UInt64) (data : Bytes) (maxDatagram : Nat) (datagrams : List Bytes)
    (packetized : p.packetize stream keyframe timestampUs data maxDatagram = some (datagrams, next))
    (r : Reassembler) (absent : r.partials[next.lastFrameNumber]? = none) (ops : List Op)
    (own : ∀ datagram nowUs, Op.push datagram nowUs ∈ ops →
      datagram ∈ datagrams ∨ Foreign next.lastFrameNumber datagram)
    (pending : ∀ front, front <+: ops → front ≠ [] →
      (final Reassembler.step r front).partials.contains next.lastFrameNumber = true)
    (nowUs rttUs repairWindowUs : UInt64) (nack : Nack)
    (asked : nack ∈ ((final Reassembler.step r ops).tick nowUs rttUs repairWindowUs).1)
    (about : nack.frameNumber = next.lastFrameNumber)
    (before b : RetransmitBuffer) (sentAtUs lookedUs : UInt64) (later : List RetransmitBuffer.Op)
    (reached : b = final RetransmitBuffer.step before
      (.record next.lastFrameNumber keyframe datagrams sentAtUs :: later))
    (young : ∀ op ∈ later, op.nowUs.toNat - sentAtUs.toNat ≤ before.maxAgeUs.toNat)
    (inTime : lookedUs.toNat - sentAtUs.toNat ≤ before.maxAgeUs.toNat)
    (distinct : (b.frames.map Sent.frameNumber).Nodup)
    (pushes : List (Bytes × UInt64))
    (others : ∀ push ∈ pushes, push.1 ∈ datagrams ∨ Foreign next.lastFrameNumber push.1)
    (resent : ∀ datagram ∈ (b.lookup nack lookedUs).1, datagram ∈ pushes.map Prod.fst) :
    (nack.missing.Pairwise (· < ·) ∧
      ∀ index, index ∈ nack.missing.map UInt16.toNat ↔
        ∃ inside : index < datagrams.length, ¬ Fed ops datagrams[index]) ∧
    (b.lookup nack lookedUs).1.map some = nack.missing.map (fun i => datagrams[i.toNat]?) ∧
    ⟨stream, next.lastFrameNumber, timestampUs, keyframe, data⟩ ∈
      ((final Reassembler.step r ops).tick nowUs rttUs repairWindowUs).2.returned
        (pushes.map (fun push => .push push.1 push.2)) := by
  have never (foreign : ∀ datagram ∈ datagrams, Foreign next.lastFrameNumber datagram) : False := by
    have none := Reassembler.absent_of_foreign next.lastFrameNumber r absent ops
      (fun datagram nowUs fed => (own datagram nowUs fed).elim (foreign datagram) id)
    obtain ⟨_, present, _⟩ := (Reassembler.mem_nacks _ _ _ _ nack).mp asked
    rw [about, none] at present
    cases present
  have nonempty : data ≠ [] := by
    rintro rfl
    simp only [Packetizer.packetize, if_true, Option.some.injEq, Prod.mk.injEq] at packetized
    obtain ⟨rfl, _⟩ := packetized
    exact never (by simp)
  obtain ⟨advanced, f, frame, rfl⟩ := packetize_fragmented p next stream keyframe timestampUs data
    maxDatagram datagrams nonempty packetized
  have number : next.lastFrameNumber = f.frame.frameNumber := by
    rw [Packetizer.lastFrameNumber, advanced, UInt32.add_sub_cancel, frame]
  have whole : f.frame = ⟨stream, next.lastFrameNumber, timestampUs, keyframe, data⟩ := by
    rw [number, frame]
  have known : KnownStream f.frame.stream := by
    by_contra unknown
    apply never
    intro datagram member
    obtain ⟨index, _, rfl⟩ := (f.mem_datagrams datagram).mp member
    exact Reassembler.foreign_unknown f unknown _ index
  have recorded := RetransmitBuffer.recorded_kept before lookedUs next.lastFrameNumber keyframe
    f.datagrams sentAtUs later young inTime
  rw [← reached] at recorded
  rw [← whole]
  rw [number] at absent own pending about recorded others
  have holds := Reassembler.pending_holds f known r absent ops own pending
  refine ⟨⟨nack_increasing _ _ _ (nack_numbers f _ _ holds _ _ _ nack asked about), ?_⟩,
    lookup_missing f _ _ holds _ _ _ nack asked about b distinct keyframe sentAtUs
      lookedUs recorded,
    resent_completes f _ _ holds _ _ _ nack asked about b distinct keyframe sentAtUs
      lookedUs recorded
      known pushes others resent⟩
  intro index
  rw [mem_missing f _ _ holds _ _ _ nack asked about, mem_received]
  constructor
  · rintro ⟨inside, fresh⟩
    exact ⟨by simpa [Fragmented.datagrams] using inside,
      by simpa [Fragmented.datagrams, inside] using fresh⟩
  · rintro ⟨inside, fresh⟩
    simp only [Fragmented.datagrams, List.length_map, List.length_range, List.getElem_map,
      List.getElem_range] at inside fresh
    exact ⟨inside, fun both => fresh both.2⟩

open Reassembler (wrappingFragment) in
/-- The second half of a frame arrives, the first one is asked for and resent. -/
theorem repair_completes_wrapping :
    ⟨0, 4294967295, 5, true, [1, 2]⟩ ∈
      ((final Reassembler.step (Reassembler.new 500000) [.push (wrappingFragment 3 1 2) 10]).tick
        40 5 150000).2.returned [.push (wrappingFragment 1 0 1) 70] :=
  (repair_completes ⟨4294967295⟩ ⟨0⟩ streamVideo true 5 [1, 2] 21
    [wrappingFragment 1 0 1, wrappingFragment 3 1 2] (by decide)
    (Reassembler.new 500000) (Reassembler.new_partials _ _) [.push (wrappingFragment 3 1 2) 10]
    (by simp) (by
      intro front within some
      rcases List.prefix_cons_iff.mp within with rfl | ⟨rest, rfl, none⟩
      · exact absurd rfl some
      · rw [List.prefix_nil.mp none]
        decide +kernel)
    40 5 150000 ⟨4294967295, [0]⟩ (by decide +kernel) rfl
    (RetransmitBuffer.new 500000) _ 5 50 [.record 0 false [[3]] 15] rfl (by decide) (by decide)
    (by decide +kernel) [(wrappingFragment 1 0 1, 70)] (by simp) (by decide +kernel)).2.2

end Castr.Net
