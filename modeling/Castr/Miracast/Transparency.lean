import Mathlib.Data.List.Induction
import Mathlib.Data.List.InsertIdx
import Castr.Lib.Resequence
import Castr.Lib.Run
import Castr.Miracast.Source.RtpPack

/-! The packetizer of the source against the window of the sink: what was sent comes out as it
was, however the datagrams are reordered and repeated within the window. -/

namespace Castr.Miracast.Rtp

open Castr.Lib.Bytes
open Castr.Lib.Resequence
open Castr.Lib.Run
open Source.RtpPack (Packetizer)

def numbered (start : UInt16) (index : Nat) : UInt16 := start + UInt16.ofNat index

section Numbers

variable (start : UInt16)

theorem numbered_toNat (index : Nat) :
    (numbered start index).toNat = (start.toNat + index) % 2 ^ 16 := by
  rw [numbered, UInt16.toNat_add, UInt16.toNat_ofNat']
  omega

theorem numbered_sub (first second : Nat) :
    (numbered start first - numbered start second).toNat =
      (2 ^ 16 - (start.toNat + second) % 2 ^ 16 + (start.toNat + first) % 2 ^ 16) % 2 ^ 16 := by
  rw [UInt16.toNat_sub, numbered_toNat, numbered_toNat]

theorem numbered_succ (index : Nat) : numbered start index + 1 = numbered start (index + 1) := by
  apply UInt16.toNat_inj.mp
  rw [UInt16.toNat_add, numbered_toNat, numbered_toNat, UInt16.toNat_one]
  omega

theorem seqGe_iff (first second : Nat) :
    seqGe (numbered start first) (numbered start second) = true ↔
      (2 ^ 16 - (start.toNat + second) % 2 ^ 16 + (start.toNat + first) % 2 ^ 16) % 2 ^ 16 <
        2 ^ 15 := by
  have half : (0x8000 : UInt16).toNat = 2 ^ 15 := by decide
  rw [seqGe, decide_eq_true_iff, UInt16.lt_iff_toNat_lt, numbered_sub, half]

theorem seqGe_near (first second : Nat) (left : first < second + 2 ^ 15)
    (right : second < first + 2 ^ 15) :
    seqGe (numbered start first) (numbered start second) = true ↔ second ≤ first := by
  rw [seqGe_iff]
  omega

theorem seqGe_behind (first second : Nat) (behind : first < second)
    (near : second ≤ first + 2 ^ 15) :
    seqGe (numbered start first) (numbered start second) = false := by
  rw [← Bool.not_eq_true, seqGe_iff]
  omega

theorem numbered_ne (first second : Nat) (apart : first < second)
    (near : second < first + 2 ^ 16) : numbered start first ≠ numbered start second := by
  intro same
  have codes := congrArg UInt16.toNat same
  rw [numbered_toNat, numbered_toNat] at codes
  omega

end Numbers

section Window

variable (window : Nat) (start : UInt16) (sent : Nat → Packet)
  (order : ∀ index, (sent index).sequence = numbered start index)

def holding (state : Nat × List Nat) : Reorder :=
  ⟨window, state.2.map sent, some (numbered start state.1), 0⟩

include order

theorem release_map (next : Nat) (held : List Nat) (sorted : held.Pairwise (· < ·))
    (above : ∀ number ∈ held, next ≤ number ∧ number < next + 2 ^ 15)
    (room : (handOn next held).2.length ≤ window) :
    Reorder.release window (some (numbered start next)) 0 (held.map sent) =
      (holding window start sent (handOn next held),
        (List.range' next ((handOn next held).1 - next)).map sent) := by
  induction held generalizing next with
  | nil => simp [Reorder.release, handOn, holding]
  | cons head rest ih =>
      have later := List.pairwise_cons.mp sorted
      have first := above head List.mem_cons_self
      rw [handOn] at room ⊢
      rw [List.map_cons, Reorder.release]
      by_cases here : head = next
      · subst here
        rw [if_pos rfl] at room
        have beyond (number : Nat) (member : number ∈ rest) :
            head + 1 ≤ number ∧ number < head + 1 + 2 ^ 15 := by
          have bounds := above number (List.mem_cons_of_mem head member)
          have order := later.1 number member
          omega
        obtain ⟨far, -, -⟩ := handOn_split (head + 1) rest later.2 (fun n member =>
          (beyond n member).1)
        have one : (handOn (head + 1) rest).1 - head =
            (handOn (head + 1) rest).1 - (head + 1) + 1 := by omega
        have released := ih (head + 1) later.2 beyond room
        dsimp only
        rw [if_pos (order head), if_pos rfl, order head, numbered_succ, released, one,
          List.range'_succ, List.map_cons]
      · rw [if_neg here] at room ⊢
        have differs : (sent head).sequence ≠ numbered start next := by
          rw [order head]
          exact (numbered_ne start next head (by omega) (by omega)).symm
        have few : ¬ window < (sent head :: rest.map sent).length := by
          simpa using room
        dsimp only
        rw [if_neg differs, if_neg few, Nat.sub_self]
        rfl

theorem findIdx_map (held : List Nat) (number : Nat)
    (near : ∀ other ∈ held, other < number + 2 ^ 15 ∧ number < other + 2 ^ 15) :
    (held.map sent).findIdx (fun h => seqGe h.sequence (sent number).sequence) =
      held.findIdx (fun other => number ≤ other) := by
  induction held with
  | nil => rfl
  | cons head rest ih =>
      have close := near head List.mem_cons_self
      have same : seqGe (sent head).sequence (sent number).sequence = decide (number ≤ head) := by
        rw [order, order, Bool.eq_iff_iff, decide_eq_true_iff]
        exact seqGe_near start head number close.1 close.2
      rw [List.map_cons, List.findIdx_cons, List.findIdx_cons, same,
        ih (fun other member => near other (List.mem_cons_of_mem head member))]

omit order in
theorem insertIdx_findIdx (held : List Nat) (number : Nat) :
    held.insertIdx (held.findIdx (fun other => number ≤ other)) number =
      held.orderedInsert (· ≤ ·) number := by
  induction held with
  | nil => rfl
  | cons head rest ih =>
      rw [List.findIdx_cons, List.orderedInsert_cons]
      by_cases here : number ≤ head
      · simp [here]
      · simp [here, ih]

/-- One datagram arrives, on time or as a copy: the window does what a resequencer does. -/
theorem push_holding (state : Nat × List Nat) (number : Nat) (sorted : state.2.Pairwise (· < ·))
    (above : ∀ other ∈ state.2, state.1 < other ∧ other < state.1 + 2 ^ 15)
    (late : number < state.1 → state.1 ≤ number + 2 ^ 15) (early : number < state.1 + 2 ^ 15)
    (room : (accept state number).2.length ≤ window) :
    (holding window start sent state).push (sent number) =
      (holding window start sent (accept state number),
        (List.range' state.1 ((accept state number).1 - state.1)).map sent) := by
  have known : (holding window start sent state).stale (sent number).sequence = true ↔
      number < state.1 ∨ number ∈ state.2 := by
    have behind : seqGe (numbered start number) (numbered start state.1) = false ↔
        number < state.1 := by
      by_cases below : number < state.1
      · exact iff_of_true (seqGe_behind start number state.1 below (late below)) below
      · rw [← Bool.not_eq_true, seqGe_near start number state.1 early (by omega)]
        omega
    have inside : (state.2.map sent).any (fun h => h.sequence = (sent number).sequence) = true ↔
        ∃ other ∈ state.2, numbered start other = numbered start number := by
      simp [order]
    rw [Reorder.stale, Bool.or_eq_true]
    show (!seqGe (sent number).sequence (numbered start state.1)) = true ∨
      (state.2.map sent).any (fun h => h.sequence = (sent number).sequence) = true ↔ _
    rw [Bool.not_eq_true', order number, behind, ← order number, inside]
    by_cases below : number < state.1
    · simp [below]
    · simp only [below, false_or]
      constructor
      · rintro ⟨other, member, same⟩
        have bounds := above other member
        rcases Nat.lt_trichotomy other number with less | rfl | more
        · exact absurd same (numbered_ne start other number less (by omega))
        · exact member
        · exact absurd same.symm (numbered_ne start number other more (by omega))
      · exact fun member => ⟨number, member, rfl⟩
  unfold accept at room ⊢
  rw [Reorder.push]
  by_cases again : number < state.1 ∨ number ∈ state.2
  · rw [if_pos (known.mpr again), if_pos again, Nat.sub_self]
    rfl
  · rw [if_neg (mt known.mp again)]
    rw [if_neg again] at room ⊢
    simp only [not_or, Nat.not_lt] at again
    have near : ∀ other ∈ state.2, other < number + 2 ^ 15 ∧ number < other + 2 ^ 15 := by
      intro other member
      have bounds := above other member
      omega
    have inserted : (holding window start sent state).insert (sent number) =
        (state.2.orderedInsert (· ≤ ·) number).map sent := by
      show (state.2.map sent).insertIdx ((state.2.map sent).findIdx
        (fun h => seqGe h.sequence (sent number).sequence)) (sent number) = _
      rw [findIdx_map start sent order state.2 number near, ← List.map_insertIdx,
        insertIdx_findIdx]
    have ordered := insert_sorted state.2 number sorted again.2
    rw [inserted]
    apply release_map window start sent order state.1 _ ordered _ room
    intro other member
    rcases (List.mem_orderedInsert _).mp member with rfl | inside
    · exact ⟨again.1, early⟩
    · have bounds := above other inside
      omega

end Window

/-- An order in which the datagrams of a stream arrive, some of them again. -/
structure Arrives (window count : Nat) (order : List Nat) : Prop where
  complete : ∀ index, index ∈ order ↔ index < count
  first : ∀ index ∈ order.head?, index = 0
  /-- No more than `window` later datagrams overtake one. -/
  overtaken : ∀ front index back, order = front ++ index :: back → index ∉ front →
    (front.dedup.filter (fun other => index < other)).length ≤ window
  /-- A copy comes fewer than 2^15 numbers behind the last that is not waited for. -/
  late : ∀ front index back, order = front ++ index :: back → index ∈ front →
    ∀ next, (∀ other < next, other ∈ front) → next ≤ index + 2 ^ 15

/-- No datagram comes 2^15 numbers or more ahead of one that is still missing. -/
def NoneFarAhead (order : List Nat) : Prop :=
  ∀ front index back, order = front ++ index :: back → index ∉ front →
    ∀ next, next ∉ front → index < next + 2 ^ 15

section Arrival

variable (window count : Nat) (start : UInt16) (sent : Nat → Packet)
  (numbers : ∀ index, (sent index).sequence = numbered start index)

theorem range_extend (near far : Nat) (order : near ≤ far) :
    List.range near ++ List.range' near (far - near) = List.range far := by
  have sum : 0 + near = near := Nat.zero_add near
  calc
    _ = List.range' 0 near ++ List.range' (0 + near) (far - near) := by
      rw [List.range_eq_range', sum]
    _ = List.range' 0 (near + (far - near)) := List.range'_append_1
    _ = List.range far := by
      rw [Nat.add_sub_cancel' order, List.range_eq_range']

def sequenced (arrived : List Nat) : Nat × List Nat := arrived.foldl accept (0, [])

theorem sequenced_holds (arrived : List Nat) : Holds arrived (sequenced arrived) := by
  induction arrived using List.reverseRecOn with
  | nil => exact holds_nil
  | append_singleton arrived number ih =>
      rw [sequenced, List.foldl_append]
      exact accept_holds arrived _ number ih

theorem sequenced_room (order front back : List Nat) (arrives : Arrives window count order)
    (split : order = front ++ back) : (sequenced front).2.length ≤ window := by
  have holds := sequenced_holds front
  cases shape : (sequenced front).2 with
  | nil => exact Nat.zero_le window
  | cons head rest =>
      have member : head ∈ (sequenced front).2 := by simp [shape]
      obtain ⟨come, later⟩ := (holds.held head).mp member
      have below := (arrives.complete head).mp (by simp [split, come])
      have waited : (sequenced front).1 ∈ order := (arrives.complete _).mpr (by omega)
      rw [split, List.mem_append] at waited
      have still := waited.resolve_left holds.waits
      obtain ⟨before, after, rest', fresh⟩ := List.eq_append_cons_of_mem still
      have few := arrives.overtaken (front ++ before) (sequenced front).1 after
        (by rw [split, rest', List.append_assoc])
        (by rw [List.mem_append]; exact fun inside => inside.elim holds.waits fresh)
      have inside := held_length front before (sequenced front) holds
      rw [← shape]
      exact inside.trans few

theorem sequenced_near (order front back : List Nat) (near : NoneFarAhead order)
    (split : order = front ++ back) :
    ∀ other ∈ (sequenced front).2, (sequenced front).1 < other ∧
      other < (sequenced front).1 + 2 ^ 15 := by
  have holds := sequenced_holds front
  intro other member
  obtain ⟨come, later⟩ := (holds.held other).mp member
  obtain ⟨before, after, inside, fresh⟩ := List.eq_append_cons_of_mem come
  have missing (number : Nat) (waits : number ∉ front) : number ∉ before := by
    rw [inside] at waits
    exact fun early => waits (List.mem_append_left _ early)
  exact ⟨later, near before other (after ++ back) (by rw [split, inside]; simp) fresh _
    (missing _ holds.waits)⟩

include numbers

/-- The window after some of the datagrams, and all that it has handed on. -/
theorem arrived_window (order front back : List Nat) (arrives : Arrives window count order)
    (near : NoneFarAhead order) (split : order = front ++ back) :
    final Reorder.push (.new window) (front.map sent) =
        (if front = [] then .new window else holding window start sent (sequenced front)) ∧
      (outputs Reorder.push (.new window) (front.map sent)).flatten =
        (List.range (sequenced front).1).map sent := by
  induction front using List.reverseRecOn generalizing back with
  | nil => simp [sequenced]
  | append_singleton front number ih =>
      obtain ⟨state, handed⟩ := ih (number :: back) (by rw [split]; simp)
      have whole : order = front ++ number :: back := by rw [split]; simp
      have next : sequenced (front ++ [number]) = accept (sequenced front) number := by
        simp [sequenced]
      have anyCome : front ++ [number] ≠ [] := List.append_ne_nil_of_right_ne_nil front (by simp)
      rw [List.map_append, List.map_singleton, final_snoc, outputs_snoc, state, next,
        List.flatten_append, List.flatten_singleton, handed, if_neg anyCome]
      by_cases begun : front = []
      · subst begun
        obtain rfl : number = 0 := arrives.first number (by simp [whole])
        have first := numbers 0
        have second : numbered start 0 + 1 = numbered start 1 := numbered_succ start 0
        simp [sequenced, accept, handOn, Reorder.push, Reorder.stale, Reorder.new, Reorder.insert,
          Reorder.release, holding, first, second]
      · have holds := sequenced_holds front
        have close := sequenced_near order front (number :: back) near whole
        have room := sequenced_room window count order (front ++ [number]) back arrives split
        have pushed := push_holding window start sent numbers (sequenced front) number holds.sorted
          close
          (fun below => arrives.late front number back whole (holds.done number below) _ holds.done)
          (by
            by_cases again : number ∈ front
            · by_cases below : number < (sequenced front).1
              · omega
              · have held : number ∈ (sequenced front).2 := by
                  rw [holds.held]
                  refine ⟨again, Nat.lt_of_le_of_ne (by omega) ?_⟩
                  rintro same
                  exact holds.waits (same ▸ again)
                exact (close number held).2
            · exact near front number back whole again _ holds.waits)
          (next ▸ room)
        have far := accept_forward front (sequenced front) number holds
        rw [if_neg begun, pushed]
        refine ⟨rfl, ?_⟩
        rw [← List.map_append, range_extend _ _ far]

end Arrival

section Packets

/-- One datagram through the parser and the window. -/
def receive (r : Reorder) (datagram : List UInt8) : Reorder × List Packet :=
  match parse datagram with
  | none => (r, [])
  | some packet => r.push packet

/-- What a stream is cut into, each group with the time of its stamp. -/
def groupsOf (sends : List (List UInt8 × UInt32)) : List (List UInt8 × UInt32) :=
  sends.flatMap (fun send =>
    (chunks (Source.RtpPack.packetsPerDatagram * Source.RtpPack.packetLen) send.1).map
      (fun group => (group, send.2)))

theorem groupsOf_cons (send : List UInt8 × UInt32) (sends : List (List UInt8 × UInt32)) :
    groupsOf (send :: sends) =
      (chunks (Source.RtpPack.packetsPerDatagram * Source.RtpPack.packetLen) send.1).map
        (fun group => (group, send.2)) ++ groupsOf sends := List.flatMap_cons

def packetAt (start : UInt16) (groups : List (List UInt8 × UInt32)) (index : Nat) : Packet where
  sequence := numbered start index
  timestamp := (groups.getD index ([], 0)).2
  payloadType := Source.RtpPack.payloadType
  payload := (groups.getD index ([], 0)).1

theorem parse_datagram (p : Packetizer) (timestamp : UInt32) (group : List UInt8) :
    parse (p.datagram timestamp group) =
      some ⟨p.sequence, timestamp, Source.RtpPack.payloadType, group⟩ := by
  have version : (0x80 : UInt8) >>> 6 = 2 := by decide
  have plain : (0x80 : UInt8) &&& 0x10 = 0 := by decide
  have kind : Source.RtpPack.payloadType &&& 0x7f = Source.RtpPack.payloadType := by decide
  have sequence : readLe (leBytes 2 p.sequence.toNat) = p.sequence.toNat :=
    readLe_leBytes 2 _ p.sequence.toNat_lt
  have stamp : readLe (leBytes 4 timestamp.toNat) = timestamp.toNat :=
    readLe_leBytes 4 _ timestamp.toNat_lt
  have width (count value : Nat) : (leBytes count value).reverse.length = count := by simp
  have long : ¬ (p.datagram timestamp group).length < 12 := by
    simp [Packetizer.datagram]
    omega
  have start : payloadStart (p.datagram timestamp group) = some 12 := by
    simp [payloadStart, Packetizer.datagram, plain]
  have second : (p.datagram timestamp group).drop 2 =
      (leBytes 2 p.sequence.toNat).reverse ++ ((leBytes 4 timestamp.toNat).reverse ++
        ((leBytes 4 p.ssrc.toNat).reverse ++ group)) := by
    simp [Packetizer.datagram]
  have fourth : (p.datagram timestamp group).drop 4 =
      (leBytes 4 timestamp.toNat).reverse ++ ((leBytes 4 p.ssrc.toNat).reverse ++ group) := by
    rw [← List.drop_drop (i := 2) (j := 2), second, List.drop_left' (width 2 _)]
  have last : (p.datagram timestamp group).drop 12 = group := by
    rw [← List.drop_drop (i := 8) (j := 4), fourth, ← List.drop_drop (i := 4) (j := 4),
      List.drop_left' (width 4 _), List.drop_left' (width 4 _)]
  rw [parse, if_neg, start]
  · dsimp only
    rw [if_neg long, second, fourth, last, List.take_left' (width 2 _), List.take_left' (width 4 _),
      readBe_reverse, readBe_reverse, sequence, stamp]
    simp [Packetizer.datagram, kind]
  · simp [Packetizer.datagram, version]
    omega

def stamped (p : Packetizer) (groups : List (List UInt8 × UInt32)) : List (List UInt8) :=
  groups.mapIdx (fun index cut =>
    { p with sequence := numbered p.sequence index }.datagram cut.2 cut.1)

theorem numbered_numbered (start : UInt16) (first second : Nat) :
    numbered (numbered start first) second = numbered start (second + first) := by
  apply UInt16.toNat_inj.mp
  rw [numbered_toNat, numbered_toNat, numbered_toNat]
  omega

theorem numbered_zero (start : UInt16) : numbered start 0 = start := by
  simp [numbered]

theorem stamped_append (p : Packetizer) (front back : List (List UInt8 × UInt32)) :
    stamped p (front ++ back) = stamped p front ++
      stamped { p with sequence := numbered p.sequence front.length } back := by
  simp only [stamped, List.mapIdx_append, numbered_numbered]

theorem pushGroups_stamped (p : Packetizer) (timestamp : UInt32) (groups : List (List UInt8)) :
    p.pushGroups timestamp groups =
      ({ p with sequence := numbered p.sequence groups.length },
        stamped p (groups.map (fun group => (group, timestamp)))) := by
  induction groups generalizing p with
  | nil => simp [Packetizer.pushGroups, stamped, numbered_zero]
  | cons group rest ih =>
      have next : p.sequence + 1 = numbered p.sequence 1 := by
        rw [← numbered_succ, numbered_zero]
      have single : stamped p [(group, timestamp)] = [p.datagram timestamp group] := by
        simp [stamped, numbered_zero]
      have parts : stamped p ((group :: rest).map (fun group => (group, timestamp))) =
          p.datagram timestamp group :: stamped { p with sequence := numbered p.sequence 1 }
            (rest.map (fun group => (group, timestamp))) := by
        rw [List.map_cons, ← List.singleton_append, stamped_append, single]
        rfl
      rw [Packetizer.pushGroups, ih, next, parts, numbered_numbered]
      rfl

theorem pushAll_stamped (p : Packetizer) (sends : List (List UInt8 × UInt32)) :
    (p.pushAll sends).2 = stamped p (groupsOf sends) := by
  induction sends generalizing p with
  | nil => rfl
  | cons send rest ih =>
      rw [Packetizer.pushAll, ih, Packetizer.push, pushGroups_stamped, groupsOf_cons,
        stamped_append, List.length_map]

theorem parse_stamped (p : Packetizer) (groups : List (List UInt8 × UInt32)) (index : Nat)
    (inside : index < groups.length) :
    parse ((stamped p groups).getD index []) = some (packetAt p.sequence groups index) := by
  have there : (stamped p groups).getD index [] =
      { p with sequence := numbered p.sequence index }.datagram
        (groups.getD index ([], 0)).2 (groups.getD index ([], 0)).1 := by
    simp [stamped, List.getD_eq_getElem?_getD, List.getElem?_eq_getElem inside]
  rw [there, parse_datagram]
  rfl

theorem receive_packets (r : Reorder) (order : List Nat) (datagram : Nat → List UInt8)
    (packet : Nat → Packet) (parsed : ∀ index ∈ order, parse (datagram index) =
      some (packet index)) :
    final receive r (order.map datagram) = final Reorder.push r (order.map packet) ∧
      outputs receive r (order.map datagram) = outputs Reorder.push r (order.map packet) := by
  induction order generalizing r with
  | nil => exact ⟨rfl, rfl⟩
  | cons index rest ih =>
      have first : receive r (datagram index) = r.push (packet index) := by
        rw [receive, parsed index List.mem_cons_self]
      have later := ih (r.push (packet index)).1
        (fun other member => parsed other (List.mem_cons_of_mem index member))
      rw [List.map_cons, List.map_cons, final_cons, final_cons, outputs_cons, outputs_cons, first,
        later.1, later.2]
      exact ⟨rfl, rfl⟩

theorem payloads_of_groups (sends : List (List UInt8 × UInt32)) :
    (groupsOf sends).flatMap Prod.fst = sends.flatMap Prod.fst := by
  induction sends with
  | nil => rfl
  | cons send rest ih =>
      have cut :=
        chunks_flatten (Source.RtpPack.packetsPerDatagram * Source.RtpPack.packetLen) send.1
        (by decide)
      rw [groupsOf_cons, List.flatMap_append, List.flatMap_cons, ih, List.flatMap_map]
      congr 1
      exact List.flatten_eq_flatMap.symm.trans cut

theorem packetAt_payloads (start : UInt16) (groups : List (List UInt8 × UInt32)) :
    ((List.range groups.length).map (packetAt start groups)).flatMap Packet.payload =
      groups.flatMap Prod.fst := by
  have each : (List.range groups.length).map (fun index => groups.getD index ([], 0)) = groups := by
    apply List.ext_getElem
    · simp
    · intro index _ inside
      simp [List.getD_eq_getElem?_getD, List.getElem?_eq_getElem inside]
  rw [List.flatMap_map]
  calc
    _ = ((List.range groups.length).map (fun index => groups.getD index ([], 0))).flatMap
      Prod.fst := by
      rw [List.flatMap_map]
      rfl
    _ = groups.flatMap Prod.fst := by rw [each]

section Orders

theorem noneFarAhead_short (order : List Nat) (short : ∀ index ∈ order, index < 2 ^ 15) :
    NoneFarAhead order := by
  intro front index back split _ next _
  have below := short index (by simp [split])
  omega

theorem of_splits (order : List Nat) (P : List Nat → Nat → Prop)
    (each : ∀ place < order.length, P (order.take place) (order.getD place 0)) :
    ∀ front index back, order = front ++ index :: back → P front index := by
  rintro front index back rfl
  have here := each front.length (by simp)
  simpa using here

theorem arrives_single (window count : Nat) (order : List Nat) (single : order.Nodup)
    (complete : ∀ index, index ∈ order ↔ index < count) (first : ∀ index ∈ order.head?, index = 0)
    (overtaken : ∀ front index back, order = front ++ index :: back →
      (front.dedup.filter (fun other => index < other)).length ≤ window) :
    Arrives window count order := by
  refine ⟨complete, first, fun front index back split _ => overtaken front index back split, ?_⟩
  rintro front index back rfl again
  have apart := (List.nodup_append.mp single).2.2
  exact absurd rfl (apart index again index List.mem_cons_self)

theorem range_places (count : Nat) (front back : List Nat) (index : Nat)
    (split : List.range count = front ++ index :: back) :
      ∀ other, other ∈ front ↔ other < index := by
  have sorted : (front ++ index :: back).Pairwise (· < ·) := split ▸ List.pairwise_lt_range
  obtain ⟨-, behind, before⟩ := List.pairwise_append.mp sorted
  have later := (List.pairwise_cons.mp behind).1
  intro other
  constructor
  · exact fun member => before other member index List.mem_cons_self
  · intro less
    have known (number : Nat) : number ∈ front ++ index :: back ↔ number < count := by
      rw [← split, List.mem_range]
    have bound := (known index).mp (by simp)
    rcases List.mem_append.mp ((known other).mpr (by omega)) with inside | beyond
    · exact inside
    · rcases List.mem_cons.mp beyond with rfl | after
      · exact absurd less (Nat.lt_irrefl other)
      · exact absurd (later other after) (by omega)

theorem arrives_range (window count : Nat) : Arrives window count (List.range count) := by
  apply arrives_single window count _ List.nodup_range (fun index => List.mem_range)
  · intro index first
    cases count with
    | zero => simp at first
    | succ count => simpa [List.range_succ_eq_map] using first.symm
  · intro front index back split
    have none : front.dedup.filter (fun other => index < other) = [] := by
      apply List.filter_eq_nil_iff.mpr
      intro other member later
      have before := (range_places count front back index split other).mp (List.mem_dedup.mp member)
      simp only [decide_eq_true_eq] at later
      omega
    rw [none]
    exact Nat.zero_le window

theorem noneFarAhead_range (count : Nat) : NoneFarAhead (List.range count) := by
  intro front index back split _ next missing
  rw [range_places count front back index split] at missing
  omega

/-- One datagram comes ahead of all those between it and the first. -/
def ahead (count : Nat) : List Nat := 0 :: (count + 1) :: List.range' 1 count

theorem arrives_ahead (count : Nat) : Arrives 1 (count + 2) (ahead count) := by
  apply arrives_single 1 (count + 2)
  · simp [ahead, List.nodup_range']
    omega
  · intro index
    simp [ahead]
    omega
  · simp [ahead]
  · intro front index back split
    have single : (front.dedup.filter (fun other => index < other)).Nodup :=
      (List.nodup_dedup front).filter _
    have sorted : (ahead count).Pairwise (fun early late => early < late ∨ early = count + 1) := by
      refine .cons ?_ (.cons (fun _ _ => Or.inr rfl) (.imp Or.inl List.pairwise_lt_range'))
      intro late member
      simp only [List.mem_cons, List.mem_range'_1] at member
      omega
    rw [split] at sorted
    have before := (List.pairwise_append.mp sorted).2.2
    have only : front.dedup.filter (fun other => index < other) ⊆ [count + 1] := by
      intro other member
      obtain ⟨inside, later⟩ := List.mem_filter.mp member
      have order := before other (List.mem_dedup.mp inside) index List.mem_cons_self
      simp only [decide_eq_true_eq] at later
      rw [List.mem_singleton]
      omega
    exact (List.subperm_of_subset single only).length_le

end Orders

/-- Whatever was sent comes out as it was sent, and nothing counts as lost. -/
theorem released_as_sent (window : Nat) (p : Packetizer) (sends : List (List UInt8 × UInt32))
    (order : List Nat) (arrives : Arrives window (p.pushAll sends).2.length order)
    (near : NoneFarAhead order) :
    let datagrams := (p.pushAll sends).2
    let arrivals := order.map (fun index => datagrams.getD index [])
    let released := (outputs receive (.new window) arrivals).flatten
    released.map some = datagrams.map parse ∧
      released.flatMap Packet.payload = sends.flatMap Prod.fst ∧
      (final receive (.new window) arrivals).lost = 0 := by
  have count : (stamped p (groupsOf sends)).length = (groupsOf sends).length := List.length_mapIdx
  rw [pushAll_stamped] at arrives ⊢
  rw [count] at arrives
  generalize groupsOf_sends : groupsOf sends = groups at arrives count ⊢
  dsimp only
  have parsed (index : Nat) (member : index ∈ order) :=
    parse_stamped p groups index ((arrives.complete index).mp member)
  have same := receive_packets (.new window) order _ _ parsed
  have come := arrived_window window groups.length p.sequence (packetAt p.sequence groups)
    (fun _ => rfl) order order [] arrives near (List.append_nil order).symm
  have all := holds_all order _ groups.length (sequenced_holds order) arrives.complete
  rw [same.1, same.2, come.1, come.2, all]
  refine ⟨?_, ?_, ?_⟩
  · rw [List.map_map]
    apply List.ext_getElem
    · simp [count]
    · intro index inside _
      have below : index < groups.length := by simpa using inside
      have here := parse_stamped p groups index below
      rw [List.getD_eq_getElem?_getD, List.getElem?_eq_getElem (by rw [count]; exact below)] at here
      simp [← here]
  · rw [packetAt_payloads, ← groupsOf_sends, payloads_of_groups]
  · split <;> rfl

/-- Four datagrams over the end of the circle: one overtakes, and one comes twice. -/
theorem released_as_sent_wrap :
    let p : Packetizer := ⟨7, 0xffff⟩
    let sends : List (List UInt8 × UInt32) := [([1], 0), ([2], 0), ([3], 9)]
    (outputs receive (.new 1) ([0, 2, 1, 0].map (fun index => (p.pushAll sends).2.getD index []))
      ).flatten.flatMap Packet.payload = [1, 2, 3] := by
  have count : (Packetizer.pushAll ⟨7, 0xffff⟩ [([1], 0), ([2], 0), ([3], 9)]).2.length = 3 := by
    decide
  have complete (index : Nat) : index ∈ [0, 2, 1, 0] ↔ index < 3 := by
    simp only [List.mem_cons, List.not_mem_nil, or_false]
    omega
  have arrives : Arrives 1 3 [0, 2, 1, 0] := by
    refine ⟨complete, by simp, of_splits _ _ (by decide), ?_⟩
    rintro front index back split - next done
    by_contra far
    have three := (complete 3).mp (by simp [split, done 3 (by omega)])
    omega
  exact (released_as_sent 1 ⟨7, 0xffff⟩ [([1], 0), ([2], 0), ([3], 9)] [0, 2, 1, 0]
    (count ▸ arrives)
    (noneFarAhead_short _ (by decide))).2.1

section Ahead

variable (sent : Nat → Packet) (numbers : ∀ index, (sent index).sequence = numbered 0 index)

include numbers

theorem push_first : (Reorder.new 1).push (sent 0) =
    (⟨1, [], some (numbered 0 1), 0⟩, [sent 0]) := by
  have next : numbered 0 0 + 1 = numbered 0 1 := numbered_succ 0 0
  simp [Reorder.push, Reorder.stale, Reorder.new, Reorder.insert, Reorder.release, numbers, next]

theorem push_half (count : Nat) (half : count = 2 ^ 15) :
    (⟨1, [], some (numbered 0 1), 0⟩ : Reorder).push (sent (count + 1)) =
      (⟨1, [], some (numbered 0 1), 0⟩, []) := by
  have before : seqGe (numbered 0 (count + 1)) (numbered 0 1) = false := by
    rw [← Bool.not_eq_true, seqGe_iff, half]
    decide
  simp [Reorder.push, Reorder.stale, numbers, before]

theorem ahead_released (count : Nat) (half : count = 2 ^ 15) :
    (outputs Reorder.push (.new 1) ((ahead count).map sent)).flatten =
      (List.range (count + 1)).map sent := by
  have whole : (ahead count).map sent =
      sent 0 :: sent (count + 1) :: (List.range' 1 count).map sent := rfl
  have ranged : (List.range (count + 1)).map sent = sent 0 :: (List.range' 1 count).map sent := by
    rw [List.range_eq_range', List.range'_succ, List.map_cons]
  have arrives := arrives_range 1 (count + 1)
  have come := (arrived_window 1 (count + 1) 0 sent numbers (List.range (count + 1)) _ [] arrives
    (noneFarAhead_range (count + 1)) (List.append_nil _).symm).2
  rw [holds_all _ _ (count + 1) (sequenced_holds _) arrives.complete, ranged, outputs_cons,
    push_first sent numbers] at come
  rw [whole, outputs_cons, push_first sent numbers, outputs_cons,
    push_half sent numbers count half, ranged, ← come]
  rfl

end Ahead

theorem groupsOf_singles (count : Nat) (time : UInt32) (byte : UInt8) :
    groupsOf (List.replicate count ([byte], time)) = List.replicate count ([byte], time) := by
  induction count with
  | zero => rfl
  | succ count ih =>
      rw [List.replicate_succ, groupsOf_cons, ih]
      simp [chunks, Source.RtpPack.packetsPerDatagram, Source.RtpPack.packetLen]

theorem ahead_dropped (count : Nat) (half : count = 2 ^ 15) :
    let datagrams := ((Packetizer.new 0).pushAll (List.replicate (count + 2) ([0], 0))).2
    let arrivals := (ahead count).map (fun index => datagrams.getD index [])
    Arrives 1 datagrams.length (ahead count) ∧
      ((outputs receive (.new 1) arrivals).flatten.flatMap Packet.payload).length = count + 1 := by
  have total : (stamped (.new 0) (List.replicate (count + 2) ([0], 0))).length = count + 2 := by
    rw [stamped, List.length_mapIdx, List.length_replicate]
  have arrives := arrives_ahead count
  rw [pushAll_stamped, groupsOf_singles]
  dsimp only
  rw [total]
  refine ⟨arrives, ?_⟩
  have parsed (index : Nat) (member : index ∈ ahead count) :=
    parse_stamped (.new 0) (List.replicate (count + 2) ([0], 0)) index
      (by rw [List.length_replicate]; exact (arrives.complete index).mp member)
  rw [(receive_packets (.new 1) (ahead count) _ _ parsed).2,
    ahead_released _ (fun _ => rfl) count half, List.flatMap_map, List.length_flatMap]
  have each : ∀ index ∈ List.range (count + 1),
      (packetAt (Packetizer.new 0).sequence (List.replicate (count + 2) ([0], 0))
        index).payload.length = 1 := by
    intro index member
    have inside : index < count + 2 := by
      have below := List.mem_range.mp member
      omega
    simp [packetAt, List.getD_eq_getElem?_getD, inside]
  rw [List.map_congr_left each]
  simp

/-- A datagram that comes 2^15 numbers ahead of a missing one is dropped, though no other comes
out of order. -/
theorem ahead_not_released :
    let sends : List (List UInt8 × UInt32) := List.replicate (2 ^ 15 + 2) ([0], 0)
    let datagrams := ((Packetizer.new 0).pushAll sends).2
    let arrivals := (ahead (2 ^ 15)).map (fun index => datagrams.getD index [])
    Arrives 1 datagrams.length (ahead (2 ^ 15)) ∧
      (outputs receive (.new 1) arrivals).flatten.flatMap Packet.payload ≠
        sends.flatMap Prod.fst := by
  obtain ⟨arrives, short⟩ := ahead_dropped (2 ^ 15) rfl
  refine ⟨arrives, fun same => ?_⟩
  have long := congrArg List.length same
  rw [short, List.length_flatMap, List.map_replicate, List.sum_replicate_nat] at long
  exact absurd long (by decide)

end Packets

end Castr.Miracast.Rtp
