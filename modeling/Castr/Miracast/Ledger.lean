import Mathlib.Data.List.Induction
import Mathlib.Data.List.Perm.Basic
import Castr.Lib.Run
import Castr.Miracast.Rtp

/-! The account of the short window: what it took in, handed on, still holds and gave up, under
numbers that do not wrap. -/

namespace Castr.Miracast.Rtp

open Castr.Lib

def numberOf (count : Nat) (next : Option UInt16) (p : Packet) : Nat :=
  count + (next.elim 0 (fun seq => (p.sequence - seq).toNat))

def numberAll (count : Nat) (next : Option UInt16) : List Packet → List (Nat × Packet) × Nat
  | [] => ([], count)
  | p :: rest =>
      let number := numberOf count next p
      let later := numberAll (number + 1) (some (p.sequence + 1)) rest
      ((number, p) :: later.1, later.2)

structure Ledger where
  reorder : Reorder
  /-- The number of `reorder.next`. -/
  count : Nat
  accepted : List (Nat × Packet)
  released : List (Nat × Packet)

namespace Ledger

def new (window : Nat) : Ledger := ⟨.new window, 0, [], []⟩

def push (l : Ledger) (p : Packet) : Ledger :=
  let (after, out) := l.reorder.push p
  let (handed, count) := numberAll l.count l.reorder.next out
  { reorder := after
    count := count
    accepted :=
      if l.reorder.stale p.sequence then l.accepted
      else l.accepted ++ [(numberOf l.count l.reorder.next p, p)]
    released := l.released ++ handed }

def held (l : Ledger) : List (Nat × Packet) :=
  l.reorder.held.map (fun p => (numberOf l.count l.reorder.next p, p))

end Ledger

/-- In the order of their numbers, and less than half the wrap ahead. -/
def Ahead (seq : UInt16) (packets : List Packet) : Prop :=
  packets.Pairwise (fun left right => (left.sequence - seq).toNat < (right.sequence - seq).toNat) ∧
    ∀ p ∈ packets, (p.sequence - seq).toNat < 2 ^ 15

section Numbers

variable {seq : UInt16} {head p : Packet}

theorem distance_after (later : (head.sequence - seq).toNat < (p.sequence - seq).toNat) :
    (p.sequence - (head.sequence + 1)).toNat =
      (p.sequence - seq).toNat - (head.sequence - seq).toNat - 1 := by
  simp only [UInt16.toNat_sub, UInt16.toNat_add, UInt16.toNat_one] at later ⊢
  have := p.sequence.toNat_lt
  have := head.sequence.toNat_lt
  have := seq.toNat_lt
  omega

theorem distance_zero (other : head.sequence ≠ seq) : 1 ≤ (head.sequence - seq).toNat := by
  rw [Nat.one_le_iff_ne_zero]
  intro zero
  refine other ?_
  apply UInt16.toNat_inj.mp
  rw [UInt16.toNat_sub] at zero
  have := head.sequence.toNat_lt
  have := seq.toNat_lt
  omega

theorem numberOf_after (count : Nat)
    (later : (head.sequence - seq).toNat < (p.sequence - seq).toNat) :
    numberOf (numberOf count (some seq) head + 1) (some (head.sequence + 1)) p =
      numberOf count (some seq) p := by
  simp only [numberOf, Option.elim_some]
  rw [distance_after later]
  omega

theorem ahead_tail {rest : List Packet} (ahead : Ahead seq (head :: rest)) :
    Ahead (head.sequence + 1) rest := by
  obtain ⟨first, order⟩ := List.pairwise_cons.mp ahead.1
  constructor
  · refine order.imp_of_mem ?_
    intro left right inLeft inRight less
    rw [distance_after (first left inLeft), distance_after (first right inRight)]
    have := first left inLeft
    have := first right inRight
    omega
  · intro p inside
    have := ahead.2 p (List.mem_cons_of_mem head inside)
    rw [distance_after (first p inside)]
    omega

theorem seqGe_iff_distance {other : Packet} (near : (other.sequence - seq).toNat < 2 ^ 15)
    (close : (p.sequence - seq).toNat < 2 ^ 15) :
    seqGe other.sequence p.sequence = true ↔
      (p.sequence - seq).toNat ≤ (other.sequence - seq).toNat := by
  unfold seqGe
  rw [decide_eq_true_iff, UInt16.lt_iff_toNat_lt]
  simp only [UInt16.toNat_sub] at near close ⊢
  have := p.sequence.toNat_lt
  have := other.sequence.toNat_lt
  have := seq.toNat_lt
  change _ < 32768 ↔ _
  omega

end Numbers

/-- What the release of packets leaves, of those in line and the numbers that they have. -/
structure Released (window : Nat) (seq : UInt16) (lost count : Nat) (packets : List Packet)
    (after : Reorder) (handed : List (Nat × Packet)) (next : Nat) : Prop where
  fixed : after.window = window
  whole : handed ++ after.held.map (fun p => (numberOf next after.next p, p)) =
    packets.map (fun p => (numberOf count (some seq) p, p))
  waits : ∃ seq, after.next = some seq ∧ Ahead seq after.held
  few : after.held.length ≤ window
  counted : next + lost = count + handed.length + after.lost
  last : next = (handed.getLast?.map (fun entry => entry.1 + 1)).getD count

theorem released_cons {window : Nat} {seq : UInt16} {lost gone count next : Nat} {head : Packet}
    {rest : List Packet} {after : Reorder} {handed : List (Nat × Packet)}
    (ahead : Ahead seq (head :: rest)) (missing : gone = lost + (head.sequence - seq).toNat)
    (later : Released window (head.sequence + 1) gone (numberOf count (some seq) head + 1) rest
      after handed next) :
    Released window seq lost count (head :: rest) after
      ((numberOf count (some seq) head, head) :: handed) next where
  fixed := later.fixed
  whole := by
    have same : rest.map (fun p => (numberOf (numberOf count (some seq) head + 1)
        (some (head.sequence + 1)) p, p)) =
        rest.map (fun p => (numberOf count (some seq) p, p)) := by
      refine List.map_congr_left (fun p inside => ?_)
      rw [numberOf_after count ((List.pairwise_cons.mp ahead.1).1 p inside)]
    rw [List.cons_append, later.whole, same, List.map_cons]
  waits := later.waits
  few := later.few
  counted := by
    have counted := later.counted
    have number : numberOf count (some seq) head = count + (head.sequence - seq).toNat := rfl
    rw [List.length_cons]
    omega
  last := by
    rw [later.last, List.getLast?_cons]
    cases handed.getLast? <;> rfl

theorem release_spec (window : Nat) (seq : UInt16) (lost count : Nat) (packets : List Packet)
    (ahead : Ahead seq packets) :
    Released window seq lost count packets (Reorder.release window (some seq) lost packets).1
      (numberAll count (some seq) (Reorder.release window (some seq) lost packets).2).1
      (numberAll count (some seq) (Reorder.release window (some seq) lost packets).2).2 := by
  induction packets generalizing seq lost count with
  | nil =>
      exact ⟨rfl, rfl, ⟨seq, rfl, ahead⟩, Nat.zero_le _, by simp [Reorder.release, numberAll], rfl⟩
  | cons head rest ih =>
      have later := fun gone => ih (head.sequence + 1) gone (numberOf count (some seq) head + 1)
        (ahead_tail ahead)
      rw [Reorder.release]
      dsimp only
      split
      · rename_i here
        exact released_cons ahead (by simp [here]) (later lost)
      · rename_i gap
        split
        · refine released_cons ahead ?_ (later _)
          rw [Nat.max_eq_left (distance_zero gap)]
        · rename_i room
          exact ⟨rfl, rfl, ⟨seq, rfl, ahead⟩, Nat.le_of_not_lt room, by simp [numberAll], rfl⟩

theorem distance_injective {seq : UInt16} {p other : Packet}
    (same : (p.sequence - seq).toNat = (other.sequence - seq).toNat) :
    p.sequence = other.sequence := by
  have words := UInt16.toNat_inj.mp same
  calc
    p.sequence = p.sequence - seq + seq := (UInt16.sub_add_cancel _ _).symm
    _ = other.sequence - seq + seq := by rw [words]
    _ = other.sequence := UInt16.sub_add_cancel _ _

theorem insert_perm (r : Reorder) (p : Packet) : (r.insert p).Perm (p :: r.held) :=
  List.perm_insertIdx p r.held (List.findIdx_le_length)

theorem insert_ahead {seq : UInt16} {held : List Packet} {p : Packet} (ahead : Ahead seq held)
    (near : (p.sequence - seq).toNat < 2 ^ 15) (fresh : ∀ h ∈ held, h.sequence ≠ p.sequence) :
    (held.insertIdx (held.findIdx (fun h => seqGe h.sequence p.sequence)) p).Pairwise
      (fun left right => (left.sequence - seq).toNat < (right.sequence - seq).toNat) := by
  induction held with
  | nil => exact List.pairwise_singleton _ _
  | cons head rest ih =>
      obtain ⟨first, order⟩ := List.pairwise_cons.mp ahead.1
      have close := ahead.2 head List.mem_cons_self
      have differ : (p.sequence - seq).toNat ≠ (head.sequence - seq).toNat :=
        fun same => fresh head List.mem_cons_self (distance_injective same).symm
      rw [List.findIdx_cons]
      by_cases before : seqGe head.sequence p.sequence = true
      · have le := (seqGe_iff_distance close near).mp before
        rw [before, cond_true, List.insertIdx_zero]
        refine List.pairwise_cons.mpr ⟨?_, ahead.1⟩
        intro other inside
        rcases List.mem_cons.mp inside with rfl | later
        · omega
        · have := first other later
          omega
      · have less : (head.sequence - seq).toNat < (p.sequence - seq).toNat :=
          Nat.lt_of_not_le (mt (seqGe_iff_distance close near).mpr before)
        rw [Bool.not_eq_true] at before
        rw [before, cond_false, List.insertIdx_succ_cons]
        refine List.pairwise_cons.mpr ⟨?_, ?_⟩
        · intro other inside
          rcases List.mem_cons.mp ((List.perm_insertIdx p rest List.findIdx_le_length).mem_iff.mp
            inside) with rfl | later
          · exact less
          · exact first other later
        · exact ih ⟨order, fun other inside => ahead.2 other (List.mem_cons_of_mem head inside)⟩
            (fun h inside => fresh h (List.mem_cons_of_mem head inside))

namespace Ledger

structure Balanced (window : Nat) (l : Ledger) : Prop where
  fixed : l.reorder.window = window
  empty : l.reorder.next = none → l = new window
  ahead : ∀ seq, l.reorder.next = some seq → Ahead seq l.reorder.held ∧ l.released ≠ []
  few : l.reorder.held.length ≤ window
  order : l.released.Pairwise (fun earlier later => earlier.1 < later.1)
  first : ∀ entry ∈ l.released.head?, entry.1 = 0
  last : ∀ entry ∈ l.released.getLast?, entry.1 + 1 = l.count
  counted : l.count = l.released.length + l.reorder.lost
  kept : l.accepted.Perm (l.released ++ l.held)

variable {window : Nat} {l : Ledger}

theorem balanced_new (window : Nat) : Balanced window (new window) where
  fixed := rfl
  empty := fun _ => rfl
  ahead := nofun
  few := Nat.zero_le _
  order := .nil
  first := nofun
  last := nofun
  counted := rfl
  kept := .nil

theorem push_stale {p : Packet} (stale : l.reorder.stale p.sequence = true) : l.push p = l := by
  have same : l.reorder.push p = (l.reorder, []) := if_pos stale
  simp [push, same, stale, numberAll]

theorem push_first (window : Nat) (p : Packet) :
    (new window).push p = ⟨⟨window, [], some (p.sequence + 1), 0⟩, 1, [(0, p)], [(0, p)]⟩ := rfl

theorem Balanced.below (balanced : Balanced window l) {entry : Nat × Packet}
    (inside : entry ∈ l.released) : entry.1 < l.count := by
  obtain ⟨front, final, split⟩ : ∃ front final, l.released = front ++ [final] := by
    rcases List.eq_nil_or_concat l.released with none | ⟨front, final, split⟩
    · rw [none] at inside
      cases inside
    · exact ⟨front, final, by rw [split, List.concat_eq_append]⟩
  have last := balanced.last final (by simp [split])
  have order := balanced.order
  rw [split] at inside order
  rcases List.mem_append.mp inside with earlier | same
  · have := (List.pairwise_append.mp order).2.2 entry earlier final (List.mem_singleton_self _)
    omega
  · rw [List.mem_singleton.mp same]
    omega

theorem numberOf_le {count : Nat} {next : Option UInt16} (p : Packet) :
    count ≤ numberOf count next p := Nat.le_add_right _ _

theorem numbers_ahead {seq : UInt16} {packets : List Packet} (count : Nat)
    (ahead : Ahead seq packets) :
    (packets.map (fun p => (numberOf count (some seq) p, p))).Pairwise
      (fun earlier later => earlier.1 < later.1) := by
  rw [List.pairwise_map]
  exact ahead.1.imp (fun less => Nat.add_lt_add_left less count)

theorem insert_fresh {r : Reorder} {seq : UInt16} {p : Packet} (ahead : Ahead seq r.held)
    (next : r.next = some seq) (stale : r.stale p.sequence = false) : Ahead seq (r.insert p) := by
  simp only [Reorder.stale, next, Option.any_some, Bool.or_eq_false_iff, Bool.not_eq_false',
    List.any_eq_false, decide_eq_true_eq] at stale
  have near : (p.sequence - seq).toNat < 2 ^ 15 :=
    UInt16.lt_iff_toNat_lt.mp (of_decide_eq_true stale.1)
  refine ⟨insert_ahead ahead near stale.2, ?_⟩
  intro other inside
  rcases List.mem_cons.mp ((insert_perm r p).mem_iff.mp inside) with rfl | held
  · exact near
  · exact ahead.2 other held

section Entering

variable {seq : UInt16} {p : Packet}

theorem push_made (balanced : Balanced window l) (next : l.reorder.next = some seq)
    (stale : l.reorder.stale p.sequence = false) :
    l.push p =
      ⟨(Reorder.release window (some seq) l.reorder.lost (l.reorder.insert p)).1,
        (numberAll l.count (some seq)
          (Reorder.release window (some seq) l.reorder.lost (l.reorder.insert p)).2).2,
        l.accepted ++ [(numberOf l.count (some seq) p, p)],
        l.released ++ (numberAll l.count (some seq)
          (Reorder.release window (some seq) l.reorder.lost (l.reorder.insert p)).2).1⟩ := by
  simp only [push, Reorder.push, stale, Bool.false_eq_true, if_false, balanced.fixed, next]

theorem entered_perm (balanced : Balanced window l) (next : l.reorder.next = some seq) :
    (l.accepted ++ [(numberOf l.count (some seq) p, p)]).Perm
      (l.released ++
        (l.reorder.insert p).map (fun p => (numberOf l.count (some seq) p, p))) := by
  have entered : (l.accepted ++ [(numberOf l.count (some seq) p, p)]).Perm
      (l.released ++ ((numberOf l.count (some seq) p, p) :: l.held)) := by
    refine (balanced.kept.append_right _).trans ?_
    rw [List.append_assoc]
    exact (List.perm_append_singleton _ _).append_left _
  have placed : ((numberOf l.count (some seq) p, p) :: l.held).Perm
      ((l.reorder.insert p).map (fun p => (numberOf l.count (some seq) p, p))) := by
    rw [held, next]
    exact ((insert_perm l.reorder p).map (fun p => (numberOf l.count (some seq) p, p))).symm
  exact entered.trans (placed.append_left _)

variable {packets : List Packet} {after : Reorder} {handed : List (Nat × Packet)} {count : Nat}
  (spec : Released window seq l.reorder.lost l.count packets after handed count)
include spec

theorem handed_order (ahead : Ahead seq packets) (balanced : Balanced window l) :
    (l.released ++ handed).Pairwise (fun earlier later => earlier.1 < later.1) := by
  have order := numbers_ahead l.count ahead
  rw [← spec.whole] at order
  refine List.pairwise_append.mpr ⟨balanced.order, (List.pairwise_append.mp order).1, ?_⟩
  intro earlier before later behind
  have listed := List.mem_append_left (after.held.map (fun p =>
    (numberOf count after.next p, p))) behind
  rw [spec.whole] at listed
  obtain ⟨other, _, rfl⟩ := List.mem_map.mp listed
  exact (balanced.below before).trans_le (numberOf_le other)

theorem handed_last (balanced : Balanced window l) :
    ∀ entry ∈ (l.released ++ handed).getLast?, entry.1 + 1 = count := by
  intro entry is
  rw [Option.mem_def, List.getLast?_append] at is
  rw [spec.last]
  cases ended : handed.getLast? with
  | none =>
      rw [ended, Option.none_or] at is
      exact balanced.last entry is
  | some final =>
      rw [ended, Option.some_or] at is
      cases is
      rfl

end Entering

theorem push_fresh {seq : UInt16} {p : Packet} (balanced : Balanced window l)
    (next : l.reorder.next = some seq) (stale : l.reorder.stale p.sequence = false) :
    Balanced window (l.push p) := by
  obtain ⟨ahead, begun⟩ := balanced.ahead seq next
  have inserted := insert_fresh ahead next stale
  have spec := release_spec window seq l.reorder.lost l.count _ inserted
  have entered := entered_perm (p := p) balanced next
  rw [push_made balanced next stale]
  generalize (Reorder.release window (some seq) l.reorder.lost (l.reorder.insert p)).1 = after,
    numberAll l.count (some seq)
      (Reorder.release window (some seq) l.reorder.lost (l.reorder.insert p)).2 = result at spec ⊢
  obtain ⟨handed, count⟩ := result
  obtain ⟨waiting, expects, line⟩ := spec.waits
  exact {
    fixed := spec.fixed
    empty := fun none => by rw [expects] at none; cases none
    ahead := by
      intro other is
      rw [expects] at is
      cases is
      exact ⟨line, by simp [begun]⟩
    few := spec.few
    order := handed_order spec inserted balanced
    first := by
      intro entry is
      rw [List.head?_append_of_ne_nil _ begun] at is
      exact balanced.first entry is
    last := handed_last spec balanced
    counted := by
      have counted := spec.counted
      have before := balanced.counted
      dsimp only at counted ⊢
      rw [List.length_append]
      omega
    kept := by
      rw [← spec.whole, ← List.append_assoc] at entered
      exact entered }

theorem push_balanced (p : Packet) (balanced : Balanced window l) :
    Balanced window (l.push p) := by
  by_cases stale : l.reorder.stale p.sequence = true
  · rw [push_stale stale]
    exact balanced
  · rw [Bool.not_eq_true] at stale
    cases next : l.reorder.next with
    | none =>
        rw [balanced.empty next, push_first]
        exact {
          fixed := rfl
          empty := nofun
          ahead := fun _ _ => ⟨⟨.nil, by simp⟩, by simp⟩
          few := Nat.zero_le _
          order := List.pairwise_singleton _ _
          first := by simp
          last := by simp
          counted := rfl
          kept := .refl _ }
    | some seq => exact push_fresh balanced next stale

def run (window : Nat) (packets : List Packet) : Ledger := packets.foldl push (new window)

theorem numberAll_packets (count : Nat) (next : Option UInt16) (packets : List Packet) :
    (numberAll count next packets).1.map Prod.snd = packets := by
  induction packets generalizing count next with
  | nil => rfl
  | cons p rest ih => exact congrArg (p :: ·) (ih _ _)

theorem run_snoc (window : Nat) (packets : List Packet) (p : Packet) :
    run window (packets ++ [p]) = (run window packets).push p := by
  rw [run, List.foldl_append]
  rfl

theorem run_balanced (window : Nat) (packets : List Packet) :
    Balanced window (run window packets) := by
  induction packets using List.reverseRecOn with
  | nil => exact balanced_new window
  | append_singleton packets p ih =>
      rw [run_snoc]
      exact push_balanced p ih

theorem run_faithful (window : Nat) (packets : List Packet) :
    (run window packets).reorder = Run.final Reorder.push (.new window) packets ∧
      (run window packets).released.map Prod.snd =
        (Run.outputs Reorder.push (.new window) packets).flatten := by
  induction packets using List.reverseRecOn with
  | nil => exact ⟨rfl, rfl⟩
  | append_singleton packets p ih =>
      obtain ⟨same, out⟩ := ih
      rw [run_snoc, Run.final_snoc, Run.outputs_snoc, ← same]
      refine ⟨rfl, ?_⟩
      rw [push, List.map_append, out, numberAll_packets, List.flatten_append,
        List.flatten_singleton]

/-- Whatever arrives: the numbers released only grow, everything accepted is released or held and
that once, what is held is no more than the window, in order and less than half the wrap ahead, and
the numbers from the first released to the last are those released and those lost. -/
theorem reorder_accounts (window : Nat) (packets : List Packet) :
    (run window packets).released.Pairwise (fun earlier later => earlier.1 < later.1) ∧
    (run window packets).accepted.Perm
      ((run window packets).released ++ (run window packets).held) ∧
    (run window packets).reorder.held.length ≤ window ∧
    (run window packets).held.Pairwise (fun earlier later => earlier.1 < later.1) ∧
    (∀ entry ∈ (run window packets).held, (run window packets).count ≤ entry.1 ∧
      entry.1 < (run window packets).count + 2 ^ 15) ∧
    (∀ first ∈ (run window packets).released.head?,
      ∀ last ∈ (run window packets).released.getLast?,
        last.1 - first.1 + 1 =
          (run window packets).released.length + (run window packets).reorder.lost) ∧
    (run window packets).reorder = Run.final Reorder.push (.new window) packets ∧
    (run window packets).released.map Prod.snd =
      (Run.outputs Reorder.push (.new window) packets).flatten := by
  have balanced := run_balanced window packets
  have faithful := run_faithful window packets
  generalize run window packets = l at balanced faithful ⊢
  have line : l.held.Pairwise (fun earlier later => earlier.1 < later.1) ∧
      ∀ entry ∈ l.held, l.count ≤ entry.1 ∧ entry.1 < l.count + 2 ^ 15 := by
    unfold held
    cases next : l.reorder.next with
    | none =>
        rw [balanced.empty next]
        exact ⟨.nil, by simp [new, Reorder.new]⟩
    | some seq =>
        have ahead := (balanced.ahead seq next).1
        refine ⟨numbers_ahead l.count ahead, ?_⟩
        intro entry inside
        obtain ⟨p, listed, rfl⟩ := List.mem_map.mp inside
        exact ⟨numberOf_le p, Nat.add_lt_add_left (ahead.2 p listed) _⟩
  refine ⟨balanced.order, balanced.kept, balanced.few, line.1, line.2, ?_, faithful⟩
  intro first is_first last is_last
  have := balanced.first first is_first
  have := balanced.last last is_last
  have := balanced.counted
  omega

end Ledger

end Castr.Miracast.Rtp
