import Castr.Proto.Reassemble

/-! What a reassembler holds of one frame, and what one more of its datagrams does. -/

namespace Castr.Proto

open Castr.Lib

/-- The partial state of `f` with exactly the payloads of `held` in their slots. -/
structure Partial.HoldsOf (p : Partial) (f : Fragmented) (held : Finset Nat) : Prop where
  stream : p.stream = f.frame.stream
  timestampUs : p.timestampUs = f.frame.timestampUs
  keyframe : p.keyframe = f.frame.keyframe
  parts : p.parts = (List.range f.count).map
    (fun index => if index ∈ held then some (f.payload index) else none)

namespace Partial

variable {p : Partial} {f : Fragmented} {held : Finset Nat}

theorem new_holds (f : Fragmented) (index : Nat) (nowUs : UInt64) :
    (new (f.header index) nowUs).HoldsOf f ∅ := by
  have positive := f.count_pos
  refine ⟨rfl, rfl, f.header_keyframe index, ?_⟩
  simp [new, Nat.max_eq_left positive]

theorem HoldsOf.length (holds : p.HoldsOf f held) : p.parts.length = f.count := by
  simp [holds.parts]

theorem HoldsOf.slot (holds : p.HoldsOf f held) (index : Nat) :
    p.parts[index]? = some none ↔ index < f.count ∧ index ∉ held := by
  rw [holds.parts, List.getElem?_map]
  by_cases inside : index < f.count
  · by_cases member : index ∈ held <;> simp [inside, member]
  · simp [inside]

theorem HoldsOf.received (holds : p.HoldsOf f held) (within : held ⊆ Finset.range f.count) :
    p.received = held.card := by
  have selected : (Finset.range f.count).filter (· ∈ held) = held :=
    Finset.filter_mem_eq_inter.trans (Finset.inter_eq_right.mpr within)
  have full (index : Nat) : (if index ∈ held then some (f.payload index) else none).isSome =
      decide (index ∈ held) := by
    by_cases member : index ∈ held <;> simp [member]
  rw [p.received_eq, holds.parts, List.countP_map, List.countP_eq_length_filter]
  simp only [Function.comp_def, full]
  conv_rhs => rw [← selected]
  rfl

theorem HoldsOf.fill (holds : p.HoldsOf f held) (index : Nat) (payload : Bytes)
    (same : payload = f.payload index) (free : p.parts[index]? = some none) :
    (p.fill index payload free).HoldsOf f (insert index held) := by
  refine ⟨holds.stream, holds.timestampUs, holds.keyframe, ?_⟩
  subst same
  simp only [Partial.fill, holds.parts]
  apply List.ext_getElem?
  intro other
  rw [List.getElem?_set]
  by_cases here : index = other
  · subst here
    have inside := ((holds.slot index).mp free).1
    simp [inside]
  · rw [if_neg here, List.getElem?_map, List.getElem?_map]
    by_cases inside : other < f.count
    · by_cases member : other ∈ held <;> simp [inside, Ne.symm here, member]
    · simp [inside]

theorem HoldsOf.data (holds : p.HoldsOf f held) (all : Finset.range f.count ⊆ held) :
    p.data = f.frame.data := by
  have full : p.parts.map (fun part => part.getD []) = f.payloads := by
    rw [holds.parts, List.map_map, f.payloads_eq]
    apply List.map_congr_left
    intro index inside
    have member := all (Finset.mem_range.mpr (List.mem_range.mp inside))
    simp [member]
  rw [Partial.data, full, f.whole]

theorem HoldsOf.missing (holds : p.HoldsOf f held) :
    p.missing = ((List.range f.count).filter (· ∉ held)).map UInt16.ofNat := by
  have slots : p.parts.zipIdx = (List.range f.count).map
      (fun index => (if index ∈ held then some (f.payload index) else none, index)) := by
    apply List.ext_getElem?
    intro index
    rw [holds.parts]
    by_cases inside : index < f.count <;> simp [inside]
  rw [Partial.missing, slots, List.filterMap_map, ← List.filterMap_eq_filter, List.map_filterMap]
  apply List.filterMap_congr
  intro index _
  by_cases member : index ∈ held <;> simp [member, Option.guard]

end Partial

namespace Reassembler

/-- `held` are the fragments of `f` that `r` has; none means that it has no state for `f`. -/
def Holds (r : Reassembler) (f : Fragmented) (held : Finset Nat) : Prop :=
  (r.partials[f.frame.frameNumber]? = none ∧ held = ∅) ∨
  ∃ p, r.partials[f.frame.frameNumber]? = some p ∧ held.Nonempty ∧
    held ⊂ Finset.range f.count ∧ p.HoldsOf f held

variable (r : Reassembler) (f : Fragmented) (held : Finset Nat)

theorem holds_contains (holds : r.Holds f held) :
    r.partials.contains f.frame.frameNumber = decide held.Nonempty := by
  rw [Std.TreeMap.contains_eq_isSome_getElem?]
  rcases holds with ⟨absent, rfl⟩ | ⟨p, present, some, _, _⟩
  · simp [absent]
  · simp [present, some]

theorem holds_entry (holds : r.Holds f held) (index : Nat) (nowUs : UInt64) :
    ((r.partials[f.frame.frameNumber]?).getD (Partial.new (f.header index) nowUs)).HoldsOf
      f held := by
  rcases holds with ⟨absent, rfl⟩ | ⟨p, present, _, _, whole⟩
  · rw [absent]
    exact Partial.new_holds f index nowUs
  · rw [present]
    exact whole

theorem holds_subset (holds : r.Holds f held) : held ⊂ Finset.range f.count := by
  rcases holds with ⟨_, rfl⟩ | ⟨_, _, _, within, _⟩
  · exact Finset.empty_ssubset.mpr ⟨0, Finset.mem_range.mpr f.count_pos⟩
  · exact within

theorem store_own (entry : Partial) (index : Nat) (inside : index < f.count)
    (within : held ⊂ Finset.range f.count) (fresh : index ∉ held) (whole : entry.HoldsOf f held) :
    ((insert index held).card = f.count ∧
      r.store (f.header index) (f.payload index) entry =
        (.ok (some f.frame), r.complete f.frame.frameNumber)) ∨
    ((insert index held).card ≠ f.count ∧ ∃ p : Partial, p.HoldsOf f (insert index held) ∧
      r.store (f.header index) (f.payload index) entry =
        (.ok none, { r with partials := r.partials.insert f.frame.frameNumber p })) := by
  have slot : (f.header index).fragmentIndex.toNat = index := f.header_index index inside
  have grown : insert index held ⊆ Finset.range f.count :=
    Finset.insert_subset (Finset.mem_range.mpr inside) within.subset
  have few : (insert index held).card ≤ f.count := by simpa using Finset.card_le_card grown
  have filled (free : entry.parts[(f.header index).fragmentIndex.toNat]? = some none) :
      (entry.fill _ (f.payload index) free).HoldsOf f (insert index held) := by
    simpa only [slot] using whole.fill index (f.payload index) rfl (slot ▸ free)
  obtain ⟨free, more, stored⟩ | ⟨free, last, stored⟩ | ⟨taken, _⟩ :=
    store_cases r (f.header index) (f.payload index) entry
  · rw [(filled free).received grown, (filled free).length] at more
    exact Or.inr ⟨by omega, _, filled free, stored⟩
  · rw [(filled free).received grown, (filled free).length] at last
    have complete : (insert index held).card = f.count := by omega
    have all : Finset.range f.count ⊆ insert index held :=
      (Finset.eq_of_subset_of_card_le grown (by simp [complete])).superset
    have frame : (entry.fill _ (f.payload index) free).frame f.frame.frameNumber = f.frame := by
      simp only [Partial.frame, (filled free).stream, (filled free).timestampUs,
        (filled free).keyframe, (filled free).data all]
    rw [stored]
    exact Or.inl ⟨complete, congrArg (fun frame => (Except.ok (some frame), r.complete _)) frame⟩
  · rw [slot, ne_eq, whole.slot] at taken
    exact absurd ⟨inside, fresh⟩ taken

/-- One datagram of `f`: ignored behind the watermark, the last one wanted, or kept. -/
theorem push_own (index : Nat) (nowUs : UInt64) (known : KnownStream f.frame.stream)
    (inside : index < f.count) (holds : r.Holds f held) :
    (held = ∅ ∧ r.past f.frame.frameNumber = true ∧
      r.push (f.datagram index) nowUs = (.ok none, r)) ∨
    (¬ (held = ∅ ∧ r.past f.frame.frameNumber = true) ∧ (insert index held).card = f.count ∧
      r.push (f.datagram index) nowUs = (.ok (some f.frame), r.complete f.frame.frameNumber)) ∨
    (¬ (held = ∅ ∧ r.past f.frame.frameNumber = true) ∧ (insert index held).card ≠ f.count ∧
      ∃ partials, r.push (f.datagram index) nowUs = (.ok none, { r with partials := partials }) ∧
        ({ r with partials := partials } : Reassembler).Holds f (insert index held)) := by
  have within := holds_subset r f held holds
  have entry := holds_entry r f held holds index nowUs
  have contained := holds_contains r f held holds
  by_cases behind : held = ∅ ∧ r.past f.frame.frameNumber = true
  · refine Or.inl ⟨behind.1, behind.2, ?_⟩
    unfold push
    rw [f.decode_datagram index known]
    simp [Fragmented.header, contained, behind]
  · right
    have fresh : (r.past f.frame.frameNumber && !r.partials.contains f.frame.frameNumber) =
        false := by
      rw [contained]
      by_cases some : held.Nonempty
      · simp [some]
      · have none := Finset.not_nonempty_iff_eq_empty.mp some
        simpa [none] using behind
    have pushed : r.push (f.datagram index) nowUs = r.store (f.header index) (f.payload index)
        ((r.partials[f.frame.frameNumber]?).getD (Partial.new (f.header index) nowUs)) := by
      unfold push
      rw [f.decode_datagram index known]
      simp only [Fragmented.header] at fresh ⊢
      simp [fresh]
    rw [pushed]
    by_cases member : index ∈ held
    · -- a duplicate: the entry was there already
      have same := Finset.insert_eq_of_mem member
      rw [same]
      have few : held.card < f.count := by simpa using Finset.card_lt_card within
      refine Or.inr ⟨behind, by omega, ?_⟩
      rcases holds with ⟨_, rfl⟩ | ⟨p, present, rest⟩
      · simp at member
      · rw [present, Option.getD_some] at entry ⊢
        have taken : ¬ p.parts[(f.header index).fragmentIndex.toNat]? = some none := by
          rw [f.header_index index inside, entry.slot]
          simp [member]
        obtain ⟨free, _, _⟩ | ⟨free, _, _⟩ | ⟨_, stored⟩ :=
          store_cases r (f.header index) (f.payload index) p
        · exact absurd free taken
        · exact absurd free taken
        · refine ⟨_, stored, Or.inr ⟨p, ?_, rest⟩⟩
          have inside : f.frame.frameNumber ∈ r.partials := by
            simp [Std.TreeMap.mem_iff_isSome_getElem?, present]
          rw [Std.TreeMap.getElem?_insertIfNew, if_neg (fun new => new.2 inside), present]
    · rcases store_own r f held _ index inside within member entry with
        ⟨complete, stored⟩ | ⟨incomplete, p, filled, stored⟩
      · exact Or.inl ⟨behind, complete, stored⟩
      · refine Or.inr ⟨behind, incomplete, _, stored, Or.inr ⟨p, by simp, by simp, ?_, filled⟩⟩
        have grown : insert index held ⊆ Finset.range f.count :=
          Finset.insert_subset (Finset.mem_range.mpr inside) within.subset
        refine Finset.ssubset_iff_subset_ne.mpr ⟨grown, fun all => incomplete ?_⟩
        rw [all, Finset.card_range]

end Reassembler

end Castr.Proto
