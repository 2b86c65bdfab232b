import Castr.Proto.Integrity

/-! What `fragments_lost` reports. A ledger beside the reassembler says of every fragment counted
which frame of the packetizer it belongs to. -/

namespace Castr.Proto

open Castr.Lib
open Castr.Lib.Run

def Partial.absent (p : Partial) : List Nat :=
  (List.range p.parts.length).filter (fun index => (p.parts[index]?).any Option.isNone)

namespace Reassembler

/-- What reaches the reassembler: some datagram of some frame, and the calls of its owner. -/
inductive Delivery where
  | fragment (index piece : Nat) (nowUs : UInt64)
  | tick (nowUs rttUs repairWindowUs : UInt64)
  | fragmentsLost

structure Ledger where
  reassembler : Reassembler
  /-- The frame whose fragment opened the entry under a number. -/
  opener : UInt32 → Nat
  /-- The fragments counted as lost, each with the frame it belongs to. -/
  counted : List (Nat × Nat)
  returned : List Nat

namespace Ledger

def new (maxAgeUs : UInt64) : Ledger := ⟨.new maxAgeUs, fun _ => 0, [], []⟩

def givenUp (l : Ledger) (nowUs : UInt64) : List (Nat × Nat) :=
  (l.reassembler.partials.toList.filter (fun entry => l.reassembler.expired nowUs entry.2)).flatMap
    (fun entry => entry.2.absent.map (fun piece => (l.opener entry.1, piece)))

def opened (l : Ledger) (number : UInt32) (index : Nat) : UInt32 → Nat :=
  if l.reassembler.partials.contains number then l.opener
  else Function.update l.opener number index

variable (sent : List (CompleteFrame × List Bytes))

/-- A delivery of what was never sent delivers nothing. -/
def step (l : Ledger) : Delivery → Ledger × Option Answer
  | .fragment index piece nowUs =>
      match sent[index]? with
      | none => (l, none)
      | some (frame, datagrams) =>
          match datagrams[piece]? with
          | none => (l, none)
          | some datagram =>
              let (next, answer) := Reassembler.step l.reassembler (.push datagram nowUs)
              let opener := l.opened frame.frameNumber index
              let out := if answer.frame.isSome then [opener frame.frameNumber] else []
              (⟨next, opener, l.counted, l.returned ++ out⟩, some answer)
  | .tick nowUs rttUs repairWindowUs =>
      let (next, answer) := Reassembler.step l.reassembler (.tick nowUs rttUs repairWindowUs)
      ({ l with reassembler := next, counted := l.counted ++ l.givenUp nowUs }, some answer)
  | .fragmentsLost =>
      let (next, answer) := Reassembler.step l.reassembler .fragmentsLost
      ({ l with reassembler := next }, some answer)

/-- A fragment opens an entry for a frame that was given up or returned. -/
def reopens (l : Ledger) : Delivery → Bool
  | .fragment index _ _ =>
      (sent[index]?).any (fun (frame, _) =>
        !l.reassembler.past frame.frameNumber &&
          !l.reassembler.partials.contains frame.frameNumber &&
          (l.returned.contains index || l.counted.any (fun c => c.1 == index)))
  | _ => false

end Ledger

def Answer.reported : Answer → Nat
  | .lost fragments => fragments.toNat
  | _ => 0

def reported (answers : List (Option Answer)) : Nat :=
  (answers.map (fun answer => answer.elim 0 Answer.reported)).sum

end Reassembler

namespace Partial

theorem mem_absent (p : Partial) (index : Nat) :
    index ∈ p.absent ↔ p.parts[index]? = some none := by
  simp only [absent, List.mem_filter, List.mem_range]
  constructor
  · rintro ⟨inside, missing⟩
    obtain ⟨part, present, empty⟩ := (Option.any_eq_true _ _).mp missing
    rw [present, Option.isNone_iff_eq_none.mp empty]
  · intro present
    exact ⟨(List.getElem?_eq_some_iff.mp present).1, by simp [present]⟩

theorem absent_nodup (p : Partial) : p.absent.Nodup := List.nodup_range.filter _

private theorem empty_slots (parts : List (Option Bytes)) :
    ((List.range parts.length).filter (fun index => (parts[index]?).any Option.isNone)).length =
      parts.countP Option.isNone := by
  induction parts with
  | nil => rfl
  | cons part rest ih =>
      rw [List.length_cons, List.range_succ_eq_map, List.countP_cons, ← ih]
      cases part <;> simp [List.filter_map, Function.comp_def]

theorem absent_length (p : Partial) : p.absent.length = p.parts.length - p.received := by
  have whole := List.length_eq_countP_add_countP Option.isSome (l := p.parts)
  have same : p.parts.countP (fun part => decide (¬part.isSome = true)) =
      p.parts.countP Option.isNone := by
    congr 1
    funext part
    cases part <;> rfl
  rw [absent, empty_slots, p.received_eq]
  omega

end Partial

namespace Reassembler

theorem store_kept (r : Reassembler) (h : DatagramHeader) (payload : Bytes) (entry : Partial) :
    (r.store h payload entry).2.lost = r.lost ∧
    (∀ frame, (r.store h payload entry).1 = .ok (some frame) →
      (r.store h payload entry).2.partials[h.frameNumber]? = none) ∧
    ∀ p, (r.store h payload entry).2.partials[h.frameNumber]? = some p →
      p.parts.length = entry.parts.length ∨ r.partials[h.frameNumber]? = some p := by
  obtain ⟨_, _, stored⟩ | ⟨_, _, stored⟩ | ⟨_, stored⟩ := store_cases r h payload entry
  · rw [stored]
    refine ⟨rfl, by simp, ?_⟩
    intro p present
    simp only [Std.TreeMap.getElem?_insert_self, Option.some.injEq] at present
    exact Or.inl (by simp [← present, Partial.fill])
  · rw [stored]
    exact ⟨rfl, by simp [complete], by simp [complete]⟩
  · rw [stored]
    refine ⟨rfl, by simp, ?_⟩
    intro p present
    rw [Std.TreeMap.getElem?_insertIfNew] at present
    split at present
    · cases present
      exact Or.inl rfl
    · exact Or.inr present

namespace Ledger

/-- Every entry belongs to a frame none of whose fragments is counted and which is not returned,
and what is counted is counted once, of frames not returned. -/
structure Once (frames : List Fragmented) (l : Ledger) : Prop where
  pending : ∀ number p, l.reassembler.partials[number]? = some p → ∃ f,
    frames[l.opener number]? = some f ∧ f.frame.frameNumber = number ∧ p.parts.length = f.count ∧
      l.opener number ∉ l.returned ∧ ∀ c ∈ l.counted, c.1 ≠ l.opener number
  once : l.counted.Nodup
  unreturned : ∀ c ∈ l.counted, c.1 ∉ l.returned
  inside : ∀ c ∈ l.counted, ∃ f, frames[c.1]? = some f ∧ c.2 < f.count

variable {frames : List Fragmented} {l : Ledger}

theorem once_new (frames : List Fragmented) (maxAgeUs : UInt64) : Once frames (new maxAgeUs) := by
  refine ⟨?_, List.nodup_nil, by simp [new], by simp [new]⟩
  intro number p present
  simp [new] at present

theorem opened_other (number other : UInt32) (index : Nat) (apart : other ≠ number) :
    l.opened number index other = l.opener other := by
  unfold opened
  split
  · rfl
  · exact Function.update_of_ne apart _ _

theorem opened_cases (number : UInt32) (index : Nat) :
    (∃ p, l.reassembler.partials[number]? = some p ∧
      l.opened number index number = l.opener number) ∨
    (l.reassembler.partials[number]? = none ∧
      l.reassembler.partials.contains number = false ∧ l.opened number index number = index) := by
  unfold opened
  rw [Std.TreeMap.contains_eq_isSome_getElem?]
  cases present : l.reassembler.partials[number]? with
  | none => exact Or.inr ⟨rfl, rfl, by simp⟩
  | some p => exact Or.inl ⟨p, rfl, rfl⟩

theorem mem_givenUp (nowUs : UInt64) (c : Nat × Nat) :
    c ∈ l.givenUp nowUs ↔ ∃ number p, l.reassembler.partials[number]? = some p ∧
      l.reassembler.expired nowUs p = true ∧ c.1 = l.opener number ∧ c.2 ∈ p.absent := by
  simp only [givenUp, List.mem_flatMap, List.mem_filter, List.mem_map, Prod.exists,
    Std.TreeMap.mem_toList_iff_getElem?_eq_some]
  constructor
  · rintro ⟨number, p, ⟨present, old⟩, piece, missing, rfl⟩
    exact ⟨number, p, present, old, rfl, missing⟩
  · rintro ⟨number, p, present, old, owner, missing⟩
    exact ⟨number, p, ⟨present, old⟩, c.2, missing, Prod.ext owner.symm rfl⟩

theorem Once.apart (once : Once frames l) (first second : UInt32) (p q : Partial)
    (firstPresent : l.reassembler.partials[first]? = some p)
    (secondPresent : l.reassembler.partials[second]? = some q)
    (same : l.opener first = l.opener second) : first = second := by
  obtain ⟨f, firstFrame, firstNumber, _⟩ := once.pending first p firstPresent
  obtain ⟨g, secondFrame, secondNumber, _⟩ := once.pending second q secondPresent
  rw [same, secondFrame, Option.some.injEq] at firstFrame
  rw [← firstNumber, ← secondNumber, firstFrame]

theorem givenUp_nodup (once : Once frames l) (nowUs : UInt64) : (l.givenUp nowUs).Nodup := by
  refine List.nodup_flatMap.mpr ⟨?_, ?_⟩
  · intro entry _
    exact entry.2.absent_nodup.map (fun i j same => (Prod.mk.inj same).2)
  · have distinct := (Std.TreeMap.distinct_keys_toList (t := l.reassembler.partials)).filter
      (fun entry => l.reassembler.expired nowUs entry.2)
    apply distinct.imp_of_mem
    rintro ⟨first, p⟩ ⟨second, q⟩ firstMember secondMember differ c here there
    simp only [List.mem_filter, Std.TreeMap.mem_toList_iff_getElem?_eq_some] at *
    obtain ⟨_, _, rfl⟩ := List.mem_map.mp here
    obtain ⟨_, _, same⟩ := List.mem_map.mp there
    have equal := once.apart second first q p secondMember.1 firstMember.1 (Prod.mk.inj same).1
    exact differ (by simp [equal])

theorem once_tick (once : Once frames l) (nowUs rttUs repairWindowUs : UInt64) :
    Once frames
      { l with
        reassembler := (l.reassembler.tick nowUs rttUs repairWindowUs).2
        counted := l.counted ++ l.givenUp nowUs } := by
  refine ⟨?_, ?_, ?_, ?_⟩
  · intro number p present
    simp only [tick_partials, Option.filter_eq_some_iff] at present
    obtain ⟨f, found, named, length, unreturned, uncounted⟩ := once.pending number p present.1
    refine ⟨f, found, named, length, unreturned, ?_⟩
    intro c member same
    rcases List.mem_append.mp member with before | now
    · exact uncounted c before same
    · obtain ⟨other, q, there, old, owner, _⟩ := (mem_givenUp nowUs c).mp now
      have equal := once.apart other number q p there present.1 (owner.symm.trans same)
      rw [equal, present.1, Option.some.injEq] at there
      have young := (Bool.not_eq_true' _).mp present.2
      rw [there, old] at young
      cases young
  · refine List.nodup_append'.mpr ⟨once.once, givenUp_nodup once nowUs, ?_⟩
    intro c before now
    obtain ⟨number, p, present, _, owner, _⟩ := (mem_givenUp nowUs c).mp now
    obtain ⟨_, _, _, _, _, uncounted⟩ := once.pending number p present
    exact uncounted c before owner
  · intro c member
    rcases List.mem_append.mp member with before | now
    · exact once.unreturned c before
    · obtain ⟨number, p, present, _, owner, _⟩ := (mem_givenUp nowUs c).mp now
      obtain ⟨_, _, _, _, unreturned, _⟩ := once.pending number p present
      rwa [owner]
  · intro c member
    rcases List.mem_append.mp member with before | now
    · exact once.inside c before
    · obtain ⟨number, p, present, _, owner, missing⟩ := (mem_givenUp nowUs c).mp now
      obtain ⟨f, found, _, length, _⟩ := once.pending number p present
      have bound := (List.getElem?_eq_some_iff.mp ((p.mem_absent c.2).mp missing)).1
      exact ⟨f, by rw [owner, found], by omega⟩

theorem once_owner (once : Once frames l) (index piece : Nat) (nowUs : UInt64) (f : Fragmented)
    (found : frames[index]? = some f)
    (fresh : l.reassembler.partials.contains f.frame.frameNumber = false →
      index ∉ l.returned ∧ ∀ c ∈ l.counted, c.1 ≠ index) :
    ∃ g, frames[l.opened f.frame.frameNumber index f.frame.frameNumber]? = some g ∧
      g.frame.frameNumber = f.frame.frameNumber ∧
      ((l.reassembler.partials[f.frame.frameNumber]?).getD
        (Partial.new (f.header piece) nowUs)).parts.length = g.count ∧
      l.opened f.frame.frameNumber index f.frame.frameNumber ∉ l.returned ∧
      ∀ c ∈ l.counted, c.1 ≠ l.opened f.frame.frameNumber index f.frame.frameNumber := by
  rcases opened_cases (l := l) f.frame.frameNumber index with
    ⟨p, present, owner⟩ | ⟨absent, unknown, owner⟩
  · rw [owner, present]
    exact once.pending _ p present
  · rw [owner, absent]
    exact ⟨f, found, rfl, (Partial.new_holds f piece nowUs).length, fresh unknown⟩

theorem once_ignored (once : Once frames l) (number : UInt32) (index : Nat) :
    Once frames { l with opener := l.opened number index } := by
  refine ⟨?_, once.once, once.unreturned, once.inside⟩
  intro other p present
  have same : l.opened number index other = l.opener other := by
    by_cases here : other = number
    · subst here
      rw [opened, if_pos (by simp [Std.TreeMap.contains_eq_isSome_getElem?, present])]
    · exact opened_other _ _ _ here
  simpa only [same] using once.pending other p present

/-- A fragment that goes to an entry adds nothing to what is counted, and the frame it may complete
is one of which nothing is counted. -/
theorem once_stored (once : Once frames l) (index piece : Nat) (nowUs : UInt64) (f : Fragmented)
    (found : frames[index]? = some f)
    (fresh : l.reassembler.partials.contains f.frame.frameNumber = false →
      index ∉ l.returned ∧ ∀ c ∈ l.counted, c.1 ≠ index)
    (result : Except HeaderError (Option CompleteFrame) × Reassembler)
    (stored : l.reassembler.store (f.header piece) (f.payload piece)
      ((l.reassembler.partials[f.frame.frameNumber]?).getD
        (Partial.new (f.header piece) nowUs)) = result) :
    Once frames ⟨result.2, l.opened f.frame.frameNumber index, l.counted, l.returned ++
      if (Answer.pushed result.1).frame.isSome then
        [l.opened f.frame.frameNumber index f.frame.frameNumber] else []⟩ := by
  obtain ⟨g, owner, named, length, unreturned, uncounted⟩ :=
    once_owner once index piece nowUs f found fresh
  generalize entry_eq : (l.reassembler.partials[f.frame.frameNumber]?).getD
    (Partial.new (f.header piece) nowUs) = entry at length stored
  have kept := store_kept l.reassembler (f.header piece) (f.payload piece) entry
  have others (number : UInt32) (apart : number ≠ f.frame.frameNumber) :=
    store_other l.reassembler (f.header piece) (f.payload piece) entry number (Ne.symm apart)
  rw [stored] at kept others
  obtain ⟨outcome, after⟩ := result
  obtain ⟨_, gone, lengths⟩ := kept
  refine ⟨?_, once.once, ?_, once.inside⟩
  · intro number p present
    by_cases here : number = f.frame.frameNumber
    · subst here
      have unfinished : (Answer.pushed outcome).frame = none := by
        match outcome with
        | .error e => rfl
        | .ok none => rfl
        | .ok (some frame) => exact absurd ((gone frame rfl).symm.trans present) (by simp)
      refine ⟨g, owner, named, ?_, by simpa [unfinished] using unreturned, uncounted⟩
      rcases lengths p present with same | before
      · exact same.trans length
      · change l.reassembler.partials[f.frame.frameNumber]? = some p at before
        rw [before, Option.getD_some] at entry_eq
        rw [entry_eq, length]
    · rw [others number here] at present
      obtain ⟨k, theirs, called, size, unseen, uncharged⟩ := once.pending number p present
      dsimp only
      rw [opened_other _ _ _ here]
      refine ⟨k, theirs, called, size, ?_, uncharged⟩
      intro member
      rcases List.mem_append.mp member with before | now
      · exact unseen before
      · split at now
        · rw [List.mem_singleton] at now
          rw [now, owner, Option.some.injEq] at theirs
          exact here (called.symm.trans (theirs ▸ named))
        · cases now
  · intro c member both
    rcases List.mem_append.mp both with before | now
    · exact once.unreturned c member before
    · split at now
      · exact uncounted c member (List.mem_singleton.mp now)
      · cases now

theorem once_fragment (once : Once frames l) (index piece : Nat) (nowUs : UInt64) (f : Fragmented)
    (found : frames[index]? = some f)
    (first : l.reassembler.past f.frame.frameNumber = false →
      l.reassembler.partials.contains f.frame.frameNumber = false →
      index ∉ l.returned ∧ ∀ c ∈ l.counted, c.1 ≠ index) :
    Once frames
      ⟨(l.reassembler.push (f.datagram piece) nowUs).2, l.opened f.frame.frameNumber index,
        l.counted, l.returned ++
          if (Answer.pushed (l.reassembler.push (f.datagram piece) nowUs).1).frame.isSome then
            [l.opened f.frame.frameNumber index f.frame.frameNumber] else []⟩ := by
  have ignored := once_ignored once f.frame.frameNumber index
  by_cases known : KnownStream f.frame.stream
  · have pushed : l.reassembler.push (f.datagram piece) nowUs =
        if l.reassembler.past f.frame.frameNumber &&
          !l.reassembler.partials.contains f.frame.frameNumber then (.ok none, l.reassembler)
        else l.reassembler.store (f.header piece) (f.payload piece)
          ((l.reassembler.partials[f.frame.frameNumber]?).getD
            (Partial.new (f.header piece) nowUs)) := by
      rw [push, f.decode_datagram piece known]
      rfl
    by_cases behind : (l.reassembler.past f.frame.frameNumber &&
        !l.reassembler.partials.contains f.frame.frameNumber) = true
    · rw [pushed, if_pos behind]
      simpa [Answer.frame] using ignored
    · rw [pushed, if_neg behind]
      apply once_stored once index piece nowUs f found _ _ rfl
      intro unknown
      exact first (by simpa [unknown] using behind) unknown
  · have refused : l.reassembler.push (f.datagram piece) nowUs =
        (.error (.unknownStream f.frame.stream), l.reassembler) := by
      rw [push, Fragmented.datagram, DatagramHeader.decode_unknown _ _ known]
      rfl
    rw [refused]
    simpa [Answer.frame] using ignored

theorem once_step (once : Once frames l) (d : Delivery)
    (first : l.reopens (frames.map (fun f => (f.frame, f.datagrams))) d = false) :
    Once frames (l.step (frames.map (fun f => (f.frame, f.datagrams))) d).1 := by
  cases d with
  | tick nowUs rttUs repairWindowUs => exact once_tick once nowUs rttUs repairWindowUs
  | fragmentsLost => exact ⟨once.pending, once.once, once.unreturned, once.inside⟩
  | fragment index piece nowUs =>
      simp only [step, reopens, List.getElem?_map] at first ⊢
      cases found : frames[index]? with
      | none => exact once
      | some f =>
          simp only [found, Option.map_some, Option.any_some] at first ⊢
          cases sent : f.datagrams[piece]? with
          | none => exact once
          | some datagram =>
              rw [Fragmented.datagrams, List.getElem?_map] at sent
              obtain ⟨place, within, rfl⟩ := Option.map_eq_some_iff.mp sent
              obtain ⟨inside, rfl⟩ := List.getElem?_eq_some_iff.mp within
              rw [List.getElem_range]
              apply once_fragment once index piece nowUs f found
              intro ahead unknown
              simpa [ahead, unknown] using first

theorem push_lost (r : Reassembler) (datagram : Bytes) (nowUs : UInt64) :
    (r.push datagram nowUs).2.lost = r.lost := by
  unfold push
  cases DatagramHeader.decode datagram with
  | error e => rfl
  | ok pair =>
      dsimp only
      split
      · rfl
      · exact (store_kept r pair.1 pair.2 _).1

private theorem fold_lost (entries : List (UInt32 × Partial)) (lost : UInt64) :
    (entries.foldl (fun lost entry => lost + UInt64.ofNat (entry.2.parts.length - entry.2.received))
      lost).toNat =
      (lost.toNat + (entries.map (fun entry => entry.2.absent.length)).sum) % 2 ^ 64 := by
  induction entries generalizing lost with
  | nil => simp [Nat.mod_eq_of_lt lost.toNat_lt]
  | cons entry rest ih =>
      rw [List.foldl_cons, ih, List.map_cons, List.sum_cons, Partial.absent_length]
      simp only [UInt64.toNat_add, UInt64.toNat_ofNat']
      omega

theorem tick_lost (l : Ledger) (nowUs rttUs repairWindowUs : UInt64) :
    (l.reassembler.tick nowUs rttUs repairWindowUs).2.lost.toNat =
      (l.reassembler.lost.toNat + (l.givenUp nowUs).length) % 2 ^ 64 := by
  have length : (l.givenUp nowUs).length =
      ((l.reassembler.partials.toList.filter
        (fun entry => l.reassembler.expired nowUs entry.2)).map
          (fun entry => entry.2.absent.length)).sum := by
    simp [givenUp, List.length_flatMap]
  rw [length]
  exact fold_lost _ _

theorem reported_snoc (answers : List (Option Answer)) (answer : Option Answer) :
    reported (answers ++ [answer]) = reported answers + answer.elim 0 Answer.reported := by
  simp [reported]

theorem step_reported (sent : List (CompleteFrame × List Bytes)) (l : Ledger) (d : Delivery)
    (answers : List (Option Answer))
    (exact_now : l.counted.length < 2 ^ 64 →
      reported answers + l.reassembler.lost.toNat = l.counted.length) :
    (l.step sent d).1.counted.length < 2 ^ 64 →
      reported (answers ++ [(l.step sent d).2]) + (l.step sent d).1.reassembler.lost.toNat =
        (l.step sent d).1.counted.length := by
  rw [reported_snoc]
  cases d with
  | tick nowUs rttUs repairWindowUs =>
      intro few
      simp only [step, Reassembler.step, List.length_append] at few ⊢
      have now := exact_now (by omega)
      rw [tick_lost, Nat.mod_eq_of_lt (by omega)]
      simp only [Option.elim_some, Answer.reported]
      omega
  | fragmentsLost =>
      simpa [step, Reassembler.step, fragmentsLost, Answer.reported] using exact_now
  | fragment index piece nowUs =>
      simp only [step]
      split
      · simpa using exact_now
      · split
        · simpa using exact_now
        · simpa [Reassembler.step, push_lost, Answer.reported] using exact_now

end Ledger

/-- While no fragment opens a second entry for its frame, each fragment of each frame is counted at
most once, none of a frame returned is, and the reports add up to what is counted. -/
theorem lost_once (p : Packetizer) (calls : List Packetizer.Call)
    (sent : List (CompleteFrame × List Bytes)) (produced : p.produce calls = some sent)
    (maxAgeUs : UInt64) (deliveries : List Delivery)
    (never : ever (Ledger.step sent) (Ledger.reopens sent) (Ledger.new maxAgeUs)
      deliveries = false) :
    let l := final (Ledger.step sent) (Ledger.new maxAgeUs) deliveries
    l.counted.Nodup ∧ (∀ c ∈ l.counted, c.1 ∉ l.returned) ∧
    (∀ c ∈ l.counted, ∃ frame, sent[c.1]? = some frame ∧ c.2 < frame.2.length) ∧
    (l.counted.length < 2 ^ 64 →
      reported (outputs (Ledger.step sent) (Ledger.new maxAgeUs) deliveries) +
        l.reassembler.lost.toNat = l.counted.length) := by
  obtain ⟨s, _, same⟩ := produce_stream p calls sent produced
  have once : Ledger.Once s.frames (final (Ledger.step sent) (Ledger.new maxAgeUs) deliveries) := by
    apply final_induction (Ledger.step sent) (Ledger.new maxAgeUs) deliveries
      (fun _ l => Ledger.Once s.frames l) (Ledger.once_new s.frames maxAgeUs)
    intro front d back split once
    have first := never_at _ _ _ deliveries front back d split never
    subst same
    exact Ledger.once_step once d first
  refine ⟨once.once, once.unreturned, ?_, ?_⟩
  · intro c member
    obtain ⟨f, found, inside⟩ := once.inside c member
    exact ⟨(f.frame, f.datagrams), by simp [same, found],
      by simpa [Fragmented.datagrams] using inside⟩
  · apply final_induction (Ledger.step sent) (Ledger.new maxAgeUs) deliveries
      (fun front l => l.counted.length < 2 ^ 64 →
        reported (outputs (Ledger.step sent) (Ledger.new maxAgeUs) front) +
          l.reassembler.lost.toNat = l.counted.length)
    · intro _
      rfl
    · intro front d back _ exact_now
      rw [outputs_snoc]
      exact Ledger.step_reported sent _ d _ exact_now

def halvesCalls : List Packetizer.Call := [⟨streamVideo, true, 5, [1, 2], 21⟩]

def half (flags index : UInt8) (payload : UInt8) : Bytes :=
  [0, flags, index, 0, 2, 0, 0, 0, 0, 0, 0, 0, 5, 0, 0, 0, 0, 0, 0, 0, payload]

def halvesSent : List (CompleteFrame × List Bytes) :=
  [(⟨0, 0, 5, true, [1, 2]⟩, [half 1 0 1, half 3 1 2])]

/-- The first fragment, and the tick that gives the frame up. -/
def halfLost : List Delivery := [.fragment 0 0 0, .tick 600000 5000 150000]

theorem lost_once_half :
    let l := final (Ledger.step halvesSent) (Ledger.new 500000) halfLost
    l.counted.Nodup ∧ ∀ c ∈ l.counted, c.1 ∉ l.returned :=
  have once := lost_once .new halvesCalls halvesSent (by decide) 500000 halfLost (by decide +kernel)
  ⟨once.1, once.2.1⟩

/-- A duplicate of the first fragment comes after the frame was given up, and the second fragment is
counted again; or both come, and a fragment of a frame returned is counted. -/
theorem given_up_again :
    Packetizer.new.produce halvesCalls = some halvesSent ∧
    (let ops := halfLost ++ [.fragment 0 0 700000, .tick 1300000 5000 150000, .fragmentsLost]
    let l := final (Ledger.step halvesSent) (Ledger.new 500000) ops
    l.counted = [(0, 1), (0, 1)] ∧ ¬ l.counted.Nodup ∧
      reported (outputs (Ledger.step halvesSent) (Ledger.new 500000) ops) = 2) ∧
    (let ops := halfLost ++ [.fragmentsLost, .fragment 0 0 700000, .fragment 0 1 700000]
    let l := final (Ledger.step halvesSent) (Ledger.new 500000) ops
    (¬ ∀ c ∈ l.counted, c.1 ∉ l.returned) ∧
      reported (outputs (Ledger.step halvesSent) (Ledger.new 500000) ops) = 1) := by
  refine ⟨by decide, ?_, ?_⟩ <;> decide +kernel

end Reassembler

end Castr.Proto
