import Castr.Proto.Reassemble

/-! The sender's `RetransmitBuffer`: what was sent, for as long as a repair may ask for it. -/

namespace Castr.Net

open Castr.Lib
open Castr.Lib.Run
open Castr.Lib.Word (saturatingSub saturatingSub_toNat)
open Castr.Proto (Bytes Nack)

structure Sent where
  frameNumber : UInt32
  keyframe : Bool
  sentAtUs : UInt64
  fragments : List Bytes
  deriving DecidableEq, Repr

structure RetransmitBuffer where
  maxAgeUs : UInt64
  frames : List Sent
  deriving DecidableEq, Repr

namespace RetransmitBuffer

def new (maxAgeUs : UInt64) : RetransmitBuffer := ⟨maxAgeUs, []⟩

def aged (b : RetransmitBuffer) (nowUs : UInt64) (sent : Sent) : Bool :=
  saturatingSub nowUs sent.sentAtUs > b.maxAgeUs

/-- The loop pops the front until it meets a frame that is not aged. -/
def prune (b : RetransmitBuffer) (nowUs : UInt64) : RetransmitBuffer :=
  { b with frames := b.frames.dropWhile (b.aged nowUs) }

def record (b : RetransmitBuffer) (frameNumber : UInt32) (keyframe : Bool) (fragments : List Bytes)
    (sentAtUs : UInt64) : RetransmitBuffer :=
  prune { b with frames := b.frames ++ [⟨frameNumber, keyframe, sentAtUs, fragments⟩] } sentAtUs

def lookup (b : RetransmitBuffer) (nack : Nack) (nowUs : UInt64) : List Bytes × RetransmitBuffer :=
  let pruned := b.prune nowUs
  match pruned.frames.find? (fun sent => sent.frameNumber == nack.frameNumber) with
  | none => ([], pruned)
  | some sent => (nack.missing.filterMap (fun i => sent.fragments[i.toNat]?), pruned)

inductive Op where
  | record (frameNumber : UInt32) (keyframe : Bool) (fragments : List Bytes) (sentAtUs : UInt64)
  | lookup (nack : Nack) (nowUs : UInt64)

def Op.nowUs : Op → UInt64
  | .record _ _ _ sentAtUs => sentAtUs
  | .lookup _ nowUs => nowUs

def step (b : RetransmitBuffer) : Op → RetransmitBuffer × List Bytes
  | .record frameNumber keyframe fragments sentAtUs =>
      (b.record frameNumber keyframe fragments sentAtUs, [])
  | .lookup nack nowUs => ((b.lookup nack nowUs).2, (b.lookup nack nowUs).1)

section Retention

variable (b : RetransmitBuffer) (nowUs : UInt64) (sent : Sent)

theorem aged_eq_false (young : nowUs.toNat - sent.sentAtUs.toNat ≤ b.maxAgeUs.toNat) :
    b.aged nowUs sent = false := by
  simpa [aged, UInt64.le_iff_toNat_le] using young

theorem mem_prune (member : sent ∈ b.frames) (young : b.aged nowUs sent = false) :
    sent ∈ (b.prune nowUs).frames := by
  have split := List.takeWhile_append_dropWhile (p := b.aged nowUs) (l := b.frames)
  rw [← split, List.mem_append] at member
  rcases member with popped | kept
  · have old := List.mem_takeWhile_imp popped
    rw [young] at old
    cases old
  · exact kept

theorem prune_subset (member : sent ∈ (b.prune nowUs).frames) : sent ∈ b.frames :=
  (List.dropWhile_sublist _).subset member

theorem lookup_buffer (nack : Nack) : (b.lookup nack nowUs).2 = b.prune nowUs := by
  unfold lookup
  dsimp only
  split <;> rfl

theorem mem_step (op : Op) (member : sent ∈ b.frames)
    (young : op.nowUs.toNat - sent.sentAtUs.toNat ≤ b.maxAgeUs.toNat) :
    sent ∈ (step b op).1.frames := by
  cases op with
  | record frameNumber keyframe fragments sentAtUs =>
      exact mem_prune _ _ _ (List.mem_append_left _ member) (aged_eq_false b sentAtUs sent young)
  | lookup nack nowUs =>
      simp only [step, lookup_buffer]
      exact mem_prune _ _ _ member (aged_eq_false b nowUs sent young)

theorem step_maxAge (op : Op) : (step b op).1.maxAgeUs = b.maxAgeUs := by
  cases op with
  | record frameNumber keyframe fragments sentAtUs => rfl
  | lookup nack nowUs => simp [step, lookup_buffer, prune]

theorem retained (ops : List Op) (member : sent ∈ b.frames)
    (young : ∀ op ∈ ops, op.nowUs.toNat - sent.sentAtUs.toNat ≤ b.maxAgeUs.toNat) :
    sent ∈ (final step b ops).frames := by
  have both : sent ∈ (final step b ops).frames ∧ (final step b ops).maxAgeUs = b.maxAgeUs := by
    apply final_invariant step b ops (fun c => sent ∈ c.frames ∧ c.maxAgeUs = b.maxAgeUs)
      ⟨member, rfl⟩
    intro c op inside now
    have age := young op inside
    rw [← now.2] at age
    exact ⟨mem_step c sent op now.1 age, (step_maxAge c op).trans now.2⟩
  exact both.1

theorem record_mem (frameNumber : UInt32) (keyframe : Bool) (fragments : List Bytes)
    (sentAtUs : UInt64) : ⟨frameNumber, keyframe, sentAtUs, fragments⟩ ∈
      (b.record frameNumber keyframe fragments sentAtUs).frames := by
  apply mem_prune
  · exact List.mem_append_right _ (List.mem_singleton_self _)
  · exact aged_eq_false _ _ _ (by simp)

theorem recorded_kept (frameNumber : UInt32) (keyframe : Bool) (fragments : List Bytes)
    (sentAtUs : UInt64) (ops : List Op)
    (young : ∀ op ∈ ops, op.nowUs.toNat - sentAtUs.toNat ≤ b.maxAgeUs.toNat)
    (now : nowUs.toNat - sentAtUs.toNat ≤ b.maxAgeUs.toNat) :
    ⟨frameNumber, keyframe, sentAtUs, fragments⟩ ∈
      ((final step b (.record frameNumber keyframe fragments sentAtUs :: ops)).prune
        nowUs).frames := by
  have same : (final step b (.record frameNumber keyframe fragments sentAtUs :: ops)).maxAgeUs =
      b.maxAgeUs := by
    apply final_invariant step b _ (fun c => c.maxAgeUs = b.maxAgeUs) rfl
    intro c op _ before
    exact (step_maxAge c op).trans before
  apply mem_prune
  · exact retained _ _ ops (record_mem b frameNumber keyframe fragments sentAtUs) young
  · exact aged_eq_false _ _ _ (by rwa [same])

end Retention

theorem lookup_held (b : RetransmitBuffer) (nowUs : UInt64) (sent : Sent) (nack : Nack)
    (distinct : (b.frames.map Sent.frameNumber).Nodup) (held : sent ∈ (b.prune nowUs).frames)
    (number : nack.frameNumber = sent.frameNumber) :
    (b.lookup nack nowUs).1 = nack.missing.filterMap (fun i => sent.fragments[i.toNat]?) := by
  have found : (b.prune nowUs).frames.find? (fun other => other.frameNumber == nack.frameNumber) =
      some sent := by
    have wanted : (sent.frameNumber == nack.frameNumber) = true := by simp [number]
    cases first : (b.prune nowUs).frames.find? (fun other =>
        other.frameNumber == nack.frameNumber) with
    | none => simpa [number] using List.find?_eq_none.mp first sent held
    | some other =>
        have same : other.frameNumber = sent.frameNumber := by
          simpa [number] using List.find?_some first
        have inside := prune_subset b nowUs other (List.mem_of_find?_eq_some first)
        rw [List.inj_on_of_nodup_map distinct inside (prune_subset b nowUs sent held) same]
  unfold lookup
  simp only [found]

end RetransmitBuffer

end Castr.Net
