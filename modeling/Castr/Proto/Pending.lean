import Castr.Proto.Gathering

/-! One frame among arbitrary other traffic: what is held of it while it is pending, and
what completes it. -/

namespace Castr.Proto.Reassembler

open Castr.Lib.Run

/-- A datagram that is not taken for a fragment of frame `fnum`. -/
def Foreign (fnum : UInt32) (datagram : Bytes) : Prop :=
  ∀ h payload, DatagramHeader.decode datagram = .ok (h, payload) → h.frameNumber ≠ fnum

theorem foreign_unknown (f : Fragmented) (unknown : ¬ KnownStream f.frame.stream) (fnum : UInt32)
    (index : Nat) : Foreign fnum (f.datagram index) := by
  intro h payload decoded
  rw [Fragmented.datagram, DatagramHeader.decode_unknown _ _ unknown] at decoded
  cases decoded

theorem absent_of_foreign (fnum : UInt32) (r : Reassembler) (absent : r.partials[fnum]? = none)
    (ops : List Op) (foreign : ∀ datagram nowUs, Op.push datagram nowUs ∈ ops →
      Foreign fnum datagram) :
    (final step r ops).partials[fnum]? = none := by
  apply final_invariant step r ops (fun r => r.partials[fnum]? = none) absent
  intro r op inside absent
  cases op with
  | push datagram nowUs =>
      exact (push_other r datagram nowUs fnum (foreign datagram nowUs inside)).trans absent
  | tick nowUs rttUs repairWindowUs => simp [step, tick_partials, absent]
  | fragmentsLost => exact absent

theorem datagram_injective (f : Fragmented) (known : KnownStream f.frame.stream)
    (first second : Nat) (firstInside : first < f.count) (secondInside : second < f.count)
    (same : f.datagram first = f.datagram second) : first = second := by
  have decoded := f.decode_datagram first known
  rw [same, f.decode_datagram second known] at decoded
  simp only [Except.ok.injEq, Prod.mk.injEq] at decoded
  rw [← f.header_index first firstInside, ← f.header_index second secondInside, decoded.1]

def received (f : Fragmented) (ops : List Op) : Finset Nat :=
  (Finset.range f.count).filter (fun index => Fed ops (f.datagram index))

theorem mem_received (f : Fragmented) (ops : List Op) (index : Nat) :
    index ∈ received f ops ↔ index < f.count ∧ Fed ops (f.datagram index) := by
  simp [received]

section Single

variable (f : Fragmented) (known : KnownStream f.frame.stream)
include known

theorem received_own (ops : List Op) (index : Nat) (nowUs : UInt64) (inside : index < f.count) :
    received f (ops ++ [.push (f.datagram index) nowUs]) = insert index (received f ops) := by
  ext other
  simp only [mem_received, Finset.mem_insert, fed_iff, List.filterMap_append, List.mem_append]
  constructor
  · rintro ⟨bound, before | now⟩
    · exact Or.inr ⟨bound, before⟩
    · left
      exact datagram_injective f known other index bound inside (by simpa [Op.datagram] using now)
  · rintro (rfl | ⟨bound, before⟩)
    · exact ⟨inside, Or.inr (by simp [Op.datagram])⟩
    · exact ⟨bound, Or.inl before⟩

theorem received_other (ops : List Op) (op : Op)
    (foreign : ∀ datagram, op.datagram = some datagram → Foreign f.frame.frameNumber datagram) :
    received f (ops ++ [op]) = received f ops := by
  ext other
  simp only [mem_received, fed_iff, List.filterMap_append, List.mem_append]
  constructor
  · rintro ⟨bound, before | now⟩
    · exact ⟨bound, before⟩
    · have here : op.datagram = some (f.datagram other) := by
        cases seen : op.datagram with
        | none => simp [seen] at now
        | some datagram => simpa [seen, eq_comm] using now
      exact absurd rfl (foreign _ here _ _ (f.decode_datagram other known))
  · rintro ⟨bound, before⟩
    exact ⟨bound, Or.inl before⟩

/-- As long as the frame stays pending, what is held of it is what was fed since it was
not. -/
theorem pending_holds (r : Reassembler) (absent : r.partials[f.frame.frameNumber]? = none)
    (ops : List Op)
    (own : ∀ datagram nowUs, Op.push datagram nowUs ∈ ops →
      datagram ∈ f.datagrams ∨ Foreign f.frame.frameNumber datagram)
    (pending : ∀ front, front <+: ops → front ≠ [] →
      (final step r front).partials.contains f.frame.frameNumber = true) :
    (final step r ops).Holds f (received f ops) := by
  apply final_induction step r ops (fun front now => now.Holds f (received f front))
  · exact Or.inl ⟨absent, by simp [received, Fed]⟩
  · intro front op back split holds
    have still := pending (front ++ [op]) (by simp [split]) (by simp)
    rw [final_snoc] at still
    cases op with
    | push datagram nowUs =>
        rcases own datagram nowUs (by simp [split]) with member | foreign
        · obtain ⟨index, inside, rfl⟩ := (f.mem_datagrams datagram).mp member
          rw [received_own f known front index nowUs inside]
          simp only [step] at still ⊢
          rcases push_own _ f _ index nowUs known inside holds with
            ⟨nothing, _, pushed⟩ | ⟨_, _, pushed⟩ | ⟨_, _, partials, pushed, grown⟩
          · rw [pushed, holds_contains _ f _ holds, nothing] at still
            simp at still
          · rw [pushed] at still
            simp [complete] at still
          · rw [pushed]
            exact grown
        · rw [received_other f known front _
            (fun other same => by cases same; exact foreign)]
          exact holds_congr (push_other _ datagram nowUs _ foreign) holds
    | tick nowUs rttUs repairWindowUs =>
        rw [received_other f known front _ (fun other same => by cases same)]
        apply holds_congr _ holds
        simp only [step, Std.TreeMap.contains_eq_isSome_getElem?, tick_partials] at still ⊢
        cases present : (final step r front).partials[f.frame.frameNumber]? with
        | none => rfl
        | some p =>
            rw [present] at still
            simp only [Option.filter] at still ⊢
            split at still
            · rename_i fresh
              rw [if_pos fresh]
            · cases still
    | fragmentsLost =>
        rw [received_other f known front _ (fun other same => by cases same)]
        exact holds

theorem completed (pushes : List (Bytes × UInt64)) (r : Reassembler) (held : Finset Nat)
    (holds : r.Holds f held) (some : held.Nonempty)
    (own : ∀ push ∈ pushes, push.1 ∈ f.datagrams ∨ Foreign f.frame.frameNumber push.1)
    (rest : ∀ index < f.count, index ∉ held → f.datagram index ∈ pushes.map Prod.fst) :
    f.frame ∈ r.returned (pushes.map (fun push => .push push.1 push.2)) := by
  induction pushes generalizing r held with
  | nil =>
      obtain ⟨index, inside, fresh⟩ := Finset.exists_of_ssubset (holds_subset r f held holds)
      have absurd := rest index (Finset.mem_range.mp inside) fresh
      simp at absurd
  | cons push pushes ih =>
      obtain ⟨datagram, nowUs⟩ := push
      have later : ∀ push ∈ pushes, push.1 ∈ f.datagrams ∨ Foreign f.frame.frameNumber push.1 :=
        fun push member => own push (List.mem_cons_of_mem _ member)
      rw [List.map_cons, returned_cons, List.mem_append]
      simp only [List.map_cons, List.mem_cons] at rest
      rcases own _ List.mem_cons_self with member | foreign
      · obtain ⟨index, inside, rfl⟩ := (f.mem_datagrams datagram).mp member
        rcases push_own r f held index nowUs known inside holds with
          ⟨nothing, _, _⟩ | ⟨_, _, pushed⟩ | ⟨_, _, partials, pushed, grown⟩
        · simp [nothing] at some
        · left
          simp [step, pushed, Answer.frame]
        · right
          simp only [step, pushed]
          refine ih _ (insert index held) grown (Finset.insert_nonempty index held) later ?_
          intro other bound fresh
          rw [Finset.mem_insert, not_or] at fresh
          rcases rest other bound fresh.2 with same | found
          · exact absurd (datagram_injective f known other index bound inside same) fresh.1
          · exact found
      · right
        refine ih _ held (holds_congr (push_other r datagram nowUs _ foreign) holds) some later ?_
        intro other bound fresh
        rcases rest other bound fresh with same | found
        · rw [← same] at foreign
          exact absurd rfl (foreign _ _ (f.decode_datagram other known))
        · exact found

end Single

end Castr.Proto.Reassembler
