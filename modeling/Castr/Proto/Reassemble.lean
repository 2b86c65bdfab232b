import Mathlib
import Castr.Lib.Run
import Castr.Lib.Word
import Castr.Proto.Packetize

/-! The receiver's `Reassembler`: fragments in, complete frames and NACKs out. -/

namespace Castr.Proto

open Castr.Lib
open Castr.Lib.Word (saturatingSub)

def decodeMarginUs : UInt64 := 10000

structure Nack where
  frameNumber : UInt32
  missing : List UInt16
  deriving DecidableEq, Repr

/-- A frame some of whose fragments are here. `received` is the count the source
keeps beside the slots; a value where the two disagree cannot be built. -/
structure Partial where
  stream : UInt8
  timestampUs : UInt64
  keyframe : Bool
  firstSeenUs : UInt64
  parts : List (Option Bytes)
  received : Nat
  received_eq : received = parts.countP Option.isSome

namespace Partial

def new (h : DatagramHeader) (nowUs : UInt64) : Partial where
  stream := h.stream
  timestampUs := h.timestampUs
  keyframe := h.isKeyframe
  firstSeenUs := nowUs
  parts := List.replicate (max h.fragmentCount.toNat 1) none
  received := 0
  received_eq := by simp [List.countP_replicate]

def fill (p : Partial) (idx : Nat) (payload : Bytes) (free : p.parts[idx]? = some none) :
    Partial :=
  { p with
    parts := p.parts.set idx (some payload)
    received := p.received + 1
    received_eq := by
      obtain ⟨inside, slot⟩ := List.getElem?_eq_some_iff.mp free
      rw [List.countP_set inside, slot, p.received_eq]
      simp }

def inTime (p : Partial) (nowUs rttUs repairWindowUs : UInt64) : Bool :=
  nowUs + rttUs + decodeMarginUs < p.firstSeenUs + repairWindowUs

def missing (p : Partial) : List UInt16 :=
  p.parts.zipIdx.filterMap (fun (part, i) => if part.isNone then some (UInt16.ofNat i) else none)

/-- The payloads in order; `unwrap` finds every slot full once `received` is their number. -/
def data (p : Partial) : Bytes := (p.parts.map (fun part => part.getD [])).flatten

def frame (p : Partial) (frameNumber : UInt32) : CompleteFrame where
  stream := p.stream
  frameNumber := frameNumber
  timestampUs := p.timestampUs
  keyframe := p.keyframe
  data := p.data

end Partial

/-- `a` is newer than or equal to `b` under wrapping arithmetic. -/
def frameNewerOrEq (a b : UInt32) : Bool := a - b < 0xFFFFFFFF / 2

structure Reassembler where
  maxAgeUs : UInt64
  partials : Std.TreeMap UInt32 Partial
  newestCompleted : Option UInt32
  lost : UInt64

namespace Reassembler

def new (maxAgeUs : UInt64) : Reassembler := ⟨maxAgeUs, ∅, none, 0⟩

def fragmentsLost (r : Reassembler) : UInt64 × Reassembler := (r.lost, { r with lost := 0 })

/-- Not newer than the newest completed frame. -/
def past (r : Reassembler) (frameNumber : UInt32) : Bool :=
  r.newestCompleted.any (fun n => !frameNewerOrEq frameNumber n || frameNumber == n)

def watermark (r : Reassembler) (frameNumber : UInt32) : UInt32 :=
  match r.newestCompleted with
  | some n => if frameNewerOrEq frameNumber n then frameNumber else n
  | none => frameNumber

def complete (r : Reassembler) (frameNumber : UInt32) : Reassembler :=
  { r with
    partials := r.partials.erase frameNumber
    newestCompleted := some (r.watermark frameNumber) }

/-- The end of `push`, with the frame's own entry: the fragment goes into its slot, and
the last one wanted gives the frame. -/
def store (r : Reassembler) (h : DatagramHeader) (payload : Bytes) (entry : Partial) :
    Except HeaderError (Option CompleteFrame) × Reassembler :=
  let idx := h.fragmentIndex.toNat
  if free : entry.parts[idx]? = some none then
    let entry := entry.fill idx payload free
    if entry.received < entry.parts.length then
      (.ok none, { r with partials := r.partials.insert h.frameNumber entry })
    else (.ok (some (entry.frame h.frameNumber)), r.complete h.frameNumber)
  else (.ok none, { r with partials := r.partials.insertIfNew h.frameNumber entry })

def push (r : Reassembler) (datagram : Bytes) (nowUs : UInt64) :
    Except HeaderError (Option CompleteFrame) × Reassembler :=
  match DatagramHeader.decode datagram with
  | .error e => (.error e, r)
  | .ok (h, payload) =>
      if r.past h.frameNumber && !r.partials.contains h.frameNumber then (.ok none, r)
      else r.store h payload ((r.partials[h.frameNumber]?).getD (Partial.new h nowUs))

def expired (r : Reassembler) (nowUs : UInt64) (p : Partial) : Bool :=
  saturatingSub nowUs p.firstSeenUs > r.maxAgeUs

def nackFor (r : Reassembler) (nowUs rttUs repairWindowUs : UInt64) (fnum : UInt32) (p : Partial) :
    Option Nack :=
  if r.expired nowUs p then none
  else if !p.keyframe && !p.inTime nowUs rttUs repairWindowUs then none
  else some ⟨fnum, p.missing⟩

def tick (r : Reassembler) (nowUs rttUs repairWindowUs : UInt64) : List Nack × Reassembler :=
  let entries := r.partials.toList
  let nacks := entries.filterMap (fun (fnum, p) => r.nackFor nowUs rttUs repairWindowUs fnum p)
  let lost := (entries.filter (fun (_, p) => r.expired nowUs p)).foldl
    (fun lost (_, p) => lost + UInt64.ofNat (p.parts.length - p.received)) r.lost
  (nacks, { r with
    partials := r.partials.filter (fun _ p => !r.expired nowUs p)
    lost := lost })

inductive Op where
  | push (datagram : Bytes) (nowUs : UInt64)
  | tick (nowUs rttUs repairWindowUs : UInt64)
  | fragmentsLost

def Fed (ops : List Op) (datagram : Bytes) : Prop := ∃ nowUs, Op.push datagram nowUs ∈ ops

def Op.datagram : Op → Option Bytes
  | .push datagram _ => some datagram
  | _ => none

theorem fed_iff (ops : List Op) (datagram : Bytes) :
    Fed ops datagram ↔ datagram ∈ ops.filterMap Op.datagram := by
  rw [List.mem_filterMap]
  constructor
  · rintro ⟨nowUs, fed⟩
    exact ⟨_, fed, rfl⟩
  · rintro ⟨op, fed, same⟩
    cases op with
    | push other nowUs =>
        cases same
        exact ⟨nowUs, fed⟩
    | tick nowUs rttUs repairWindowUs => cases same
    | fragmentsLost => cases same

instance (ops : List Op) (datagram : Bytes) : Decidable (Fed ops datagram) :=
  decidable_of_iff _ (fed_iff ops datagram).symm

inductive Answer where
  | pushed (result : Except HeaderError (Option CompleteFrame))
  | nacks (nacks : List Nack)
  | lost (fragments : UInt64)

def Answer.frame : Answer → Option CompleteFrame
  | .pushed (.ok frame) => frame
  | _ => none

def step (r : Reassembler) : Op → Reassembler × Answer
  | .push datagram nowUs => ((r.push datagram nowUs).2, .pushed (r.push datagram nowUs).1)
  | .tick nowUs rttUs repairWindowUs =>
      ((r.tick nowUs rttUs repairWindowUs).2, .nacks (r.tick nowUs rttUs repairWindowUs).1)
  | .fragmentsLost => (r.fragmentsLost.2, .lost r.fragmentsLost.1)

def returned (r : Reassembler) (ops : List Op) : List CompleteFrame :=
  (Run.outputs step r ops).filterMap Answer.frame

@[simp] theorem new_partials (maxAgeUs : UInt64) (fnum : UInt32) :
    (new maxAgeUs).partials[fnum]? = none := by
  simp [new]

theorem tick_partials (r : Reassembler) (nowUs rttUs repairWindowUs : UInt64) (fnum : UInt32) :
    (r.tick nowUs rttUs repairWindowUs).2.partials[fnum]? =
      (r.partials[fnum]?).filter (fun p => !r.expired nowUs p) := by
  simp [tick]

theorem mem_nacks (r : Reassembler) (nowUs rttUs repairWindowUs : UInt64) (nack : Nack) :
    nack ∈ (r.tick nowUs rttUs repairWindowUs).1 ↔ ∃ p,
      r.partials[nack.frameNumber]? = some p ∧ r.expired nowUs p = false ∧
      (p.keyframe = true ∨ p.inTime nowUs rttUs repairWindowUs = true) ∧
      nack.missing = p.missing := by
  obtain ⟨fnum, missing⟩ := nack
  simp only [tick, List.mem_filterMap, nackFor, Prod.exists,
    Std.TreeMap.mem_toList_iff_getElem?_eq_some]
  constructor
  · rintro ⟨number, p, present, sent⟩
    split at sent
    · cases sent
    · rename_i fresh
      split at sent
      · cases sent
      · rename_i wanted
        cases sent
        refine ⟨p, present, by simpa using fresh, ?_, rfl⟩
        simpa [← imp_iff_not_or, or_iff_not_imp_left] using wanted
  · rintro ⟨p, present, fresh, wanted, rfl⟩
    refine ⟨fnum, p, present, ?_⟩
    rw [if_neg (by simp [fresh]), if_neg]
    rcases wanted with keyframe | inTime
    · simp [keyframe]
    · simp [inTime]

theorem store_cases (r : Reassembler) (h : DatagramHeader) (payload : Bytes) (entry : Partial) :
    (∃ free : entry.parts[h.fragmentIndex.toNat]? = some none,
      (entry.fill _ payload free).received < (entry.fill _ payload free).parts.length ∧
      r.store h payload entry = (.ok none,
        { r with partials := r.partials.insert h.frameNumber (entry.fill _ payload free) })) ∨
    (∃ free : entry.parts[h.fragmentIndex.toNat]? = some none,
      (entry.fill _ payload free).parts.length ≤ (entry.fill _ payload free).received ∧
      r.store h payload entry = (.ok (some ((entry.fill _ payload free).frame h.frameNumber)),
        r.complete h.frameNumber)) ∨
    (entry.parts[h.fragmentIndex.toNat]? ≠ some none ∧
      r.store h payload entry = (.ok none,
        { r with partials := r.partials.insertIfNew h.frameNumber entry })) := by
  by_cases free : entry.parts[h.fragmentIndex.toNat]? = some none
  · by_cases more : (entry.fill _ payload free).received < (entry.fill _ payload free).parts.length
    · exact Or.inl ⟨free, more, by simp only [store, dif_pos free, if_pos more]⟩
    · exact Or.inr (Or.inl ⟨free, by omega, by simp only [store, dif_pos free, if_neg more]⟩)
  · exact Or.inr (Or.inr ⟨free, by simp only [store, dif_neg free]⟩)

theorem store_other (r : Reassembler) (h : DatagramHeader) (payload : Bytes) (entry : Partial)
    (fnum : UInt32) (other : h.frameNumber ≠ fnum) :
    (r.store h payload entry).2.partials[fnum]? = r.partials[fnum]? := by
  obtain ⟨_, _, stored⟩ | ⟨_, _, stored⟩ | ⟨_, stored⟩ := store_cases r h payload entry
  · simp [stored, Std.TreeMap.getElem?_insert, other]
  · simp [stored, complete, Std.TreeMap.getElem?_erase, other]
  · simp [stored, Std.TreeMap.getElem?_insertIfNew, other]

theorem push_other (r : Reassembler) (datagram : Bytes) (nowUs : UInt64) (fnum : UInt32)
    (other : ∀ h payload, DatagramHeader.decode datagram = .ok (h, payload) →
      h.frameNumber ≠ fnum) :
    (r.push datagram nowUs).2.partials[fnum]? = r.partials[fnum]? := by
  unfold push
  cases decoded : DatagramHeader.decode datagram with
  | error e => rfl
  | ok pair =>
      obtain ⟨h, payload⟩ := pair
      dsimp only
      split
      · rfl
      · exact store_other r h payload _ fnum (other h payload decoded)

theorem store_firstSeen (r : Reassembler) (h : DatagramHeader) (payload : Bytes) (entry p : Partial)
    (after : (r.store h payload entry).2.partials[h.frameNumber]? = some p) :
    p.firstSeenUs = entry.firstSeenUs ∨ r.partials[h.frameNumber]? = some p := by
  obtain ⟨_, _, stored⟩ | ⟨_, _, stored⟩ | ⟨_, stored⟩ := store_cases r h payload entry
  · rw [stored] at after
    simp only [Std.TreeMap.getElem?_insert_self, Option.some.injEq] at after
    exact Or.inl (after ▸ rfl)
  · rw [stored] at after
    simp [complete] at after
  · rw [stored, Std.TreeMap.getElem?_insertIfNew] at after
    split at after
    · cases after
      exact Or.inl rfl
    · exact Or.inr after

theorem push_firstSeen (r : Reassembler) (datagram : Bytes) (nowUs : UInt64) (fnum : UInt32)
    (p : Partial) (after : (r.push datagram nowUs).2.partials[fnum]? = some p) :
    p.firstSeenUs = nowUs ∨
      ∃ before, r.partials[fnum]? = some before ∧ p.firstSeenUs = before.firstSeenUs := by
  by_cases own : ∃ h payload, DatagramHeader.decode datagram = .ok (h, payload) ∧
    h.frameNumber = fnum
  · obtain ⟨h, payload, decoded, rfl⟩ := own
    unfold push at after
    rw [decoded] at after
    dsimp only at after
    split at after
    · exact Or.inr ⟨p, after, rfl⟩
    · rcases store_firstSeen r h payload _ p after with opened | kept
      · rw [opened]
        cases present : r.partials[h.frameNumber]? with
        | none => exact Or.inl rfl
        | some before => exact Or.inr ⟨before, rfl, rfl⟩
      · exact Or.inr ⟨p, kept, rfl⟩
  · rw [push_other r datagram nowUs fnum
      (fun h payload decoded same => own ⟨h, payload, decoded, same⟩)] at after
    exact Or.inr ⟨p, after, rfl⟩

end Reassembler

end Castr.Proto
