import Mathlib.Data.List.Forall2
import Castr.Lib.Run
import Castr.Miracast.Session
import Castr.Miracast.Source.TsMux

/-! What the packets of the multiplexer carry, as the demultiplexer reads them. -/

namespace Castr.Miracast.Ts

open Castr.Lib.Bytes
open Castr.Lib.Run
open Source.TsMux

/-- What a packet carries: its stream, its counter and its payload. -/
structure Carried where
  pid : UInt16
  start : Bool
  cc : UInt8
  payload : List UInt8
  deriving DecidableEq, Repr

structure Carries (packet : List UInt8) (c : Carried) : Prop where
  whole : packet.length = packetLen
  synced : packet.getD 0 0 = sync
  payload : payloadOf packet = some c.payload
  pid : pidOf (packet.getD 1 0) (packet.getD 2 0) = c.pid
  start : decide (packet.getD 1 0 &&& 0x40 ≠ 0) = c.start
  cc : packet.getD 3 0 &&& 0x0f = c.cc

def Demux.take (d : Demux) (c : Carried) : Demux × List AccessUnit :=
  let d := d.countContinuity c.pid c.cc
  if c.pid = 0 then (d.readPat c.payload c.start, [])
  else if d.pmtPid = some c.pid then (d.readPmt c.payload c.start, [])
  else
    match d.trackOf c.pid with
    | none => (d, [])
    | some track =>
        let fed := (d.assembly track).take c.payload c.start
        (d.setAssembly track fed.1, fed.2.map (fun unit => track.unit unit.1 unit.2))

theorem push_carries (d : Demux) (packet : List UInt8) (c : Carried) (carries : Carries packet c) :
    d.push packet = d.take c := by
  have read : ¬ (packet.length ≠ packetLen ∨ packet.getD 0 0 ≠ sync) := by
    rw [carries.whole, carries.synced]
    decide
  rw [Demux.push, if_neg read, carries.payload]
  simp only [carries.pid, carries.start, carries.cc]
  rfl

def Emits (bytes : List UInt8) (carried : List Carried) : Prop :=
  ∃ packets : List (List UInt8), bytes = packets.flatten ∧ List.Forall₂ Carries packets carried

theorem emits_nil : Emits [] [] := ⟨[], rfl, .nil⟩

theorem emits_append (front back : List UInt8) (first second : List Carried)
    (emits : Emits front first) (more : Emits back second) :
    Emits (front ++ back) (first ++ second) := by
  obtain ⟨packets, rfl, carry⟩ := emits
  obtain ⟨others, rfl, carryMore⟩ := more
  exact ⟨packets ++ others, List.flatten_append.symm, List.rel_append carry carryMore⟩

theorem emits_single (packet : List UInt8) (c : Carried) (carries : Carries packet c) :
    Emits packet [c] := ⟨[packet], by simp, .cons carries .nil⟩

theorem forall₂_whole (packets : List (List UInt8)) (carried : List Carried)
    (carry : List.Forall₂ Carries packets carried) :
    ∀ packet ∈ packets, packet.length = packetLen ∧ packet.getD 0 0 = sync := by
  induction carry with
  | nil => simp
  | cons first _ ih => exact List.forall_mem_cons.mpr ⟨⟨first.whole, first.synced⟩, ih⟩

theorem emits_chunks (bytes : List UInt8) (carried : List Carried) (emits : Emits bytes carried) :
    List.Forall₂ Carries (chunks packetLen bytes) carried := by
  obtain ⟨packets, rfl, carry⟩ := emits
  rw [chunks_of_slices packetLen packets (by decide)
    (fun packet member => (forall₂_whole packets carried carry packet member).1)]
  exact carry

theorem pushAll_carries (d : Demux) (packets : List (List UInt8)) (carried : List Carried)
    (carry : List.Forall₂ Carries packets carried) :
    d.pushAll packets = (final Demux.take d carried, (outputs Demux.take d carried).flatten) := by
  induction carry generalizing d with
  | nil => rfl
  | cons first _ ih =>
      rw [Demux.pushAll, push_carries d _ _ first, ih]
      rfl

section Headers

def ccOf (place : Nat) : UInt8 := UInt8.ofNat (place % 16)

theorem ccOf_of (P : UInt8 → Prop) (place : Nat) (each : ∀ n < 16, P (UInt8.ofNat n)) :
    P (ccOf place) := each _ (Nat.mod_lt _ (by decide))

def pids : List UInt16 := [0, pmtPid, videoPid, audioPid]

theorem header_pid : ∀ pid ∈ pids, ∀ start : Bool,
    pidOf ((if start then (0x40 : UInt8) else 0x00) ||| ((pid >>> 8).toUInt8 &&& 0x1f))
        (pid &&& 0xff).toUInt8 = pid ∧
      decide (((if start then (0x40 : UInt8) else 0x00) ||| ((pid >>> 8).toUInt8 &&& 0x1f)) &&& 0x40
        ≠ 0) = start := by
  intro pid known start
  simp only [pids, List.mem_cons, List.not_mem_nil, or_false] at known
  rcases known with rfl | rfl | rfl | rfl
  all_goals cases start <;> decide

theorem header_flags (place : Nat) (adapted : Bool) :
    let flags := (if adapted then (0x30 : UInt8) else 0x10) ||| (ccOf place &&& 0x0f)
    (flags &&& 0x20 ≠ 0 ↔ adapted = true) ∧ flags &&& 0x10 ≠ 0 ∧ flags &&& 0x0f = ccOf place := by
  apply ccOf_of (fun cc =>
    let flags := (if adapted then (0x30 : UInt8) else 0x10) ||| (cc &&& 0x0f)
    (flags &&& 0x20 ≠ 0 ↔ adapted = true) ∧ flags &&& 0x10 ≠ 0 ∧ flags &&& 0x0f = cc)
  cases adapted <;> decide

theorem payloadOf_plain (first second third flags : UInt8) (payload : List UInt8)
    (plain : ¬ flags &&& 0x20 ≠ 0) (carries : flags &&& 0x10 ≠ 0) :
    payloadOf (first :: second :: third :: flags :: payload) = some payload := by
  have there : (first :: second :: third :: flags :: payload).getD 3 0 = flags := rfl
  simp only [payloadOf, there, if_neg plain, carries, false_or]
  rfl

theorem payloadOf_adapted (first second third flags : UInt8) (v payload : List UInt8)
    (adapted : flags &&& 0x20 ≠ 0) (carries : flags &&& 0x10 ≠ 0) (fits : v.length < 183) :
    payloadOf (first :: second :: third :: flags :: UInt8.ofNat v.length :: (v ++ payload)) =
      some payload := by
  have there : (first :: second :: third :: flags :: UInt8.ofNat v.length :: (v ++ payload)).getD
      3 0 = flags := rfl
  have length : ((first :: second :: third :: flags :: UInt8.ofNat v.length ::
      (v ++ payload)).getD 4 0).toNat = v.length := by
    show (UInt8.ofNat v.length).toNat = v.length
    rw [UInt8.toNat_ofNat']
    omega
  have room : ¬ packetLen ≤ 5 + v.length := by
    rw [packetLen]
    omega
  simp only [payloadOf, there, length, if_pos adapted, carries, false_or, if_neg room]
  rw [Nat.add_comm 5]
  exact congrArg some List.drop_left

def adaptation (af : Option (List UInt8)) : List UInt8 :=
  (af.map (fun v => UInt8.ofNat v.length :: v)).getD []

theorem carries_packet (pid : UInt16) (known : pid ∈ pids) (start : Bool) (place : Nat)
    (af : Option (List UInt8)) (payload : List UInt8) (some : payload ≠ [])
    (whole : 4 + (adaptation af).length + payload.length = packetLen) :
    Carries (header start pid af.isSome (ccOf place) ++ adaptation af ++ payload)
      ⟨pid, start, ccOf place, payload⟩ := by
  have positive := List.length_pos_iff.mpr some
  obtain ⟨adapted, plain, counter⟩ := header_flags place af.isSome
  obtain ⟨stream, first⟩ := header_pid pid known start
  have length : (header start pid af.isSome (ccOf place) ++ adaptation af ++ payload).length =
      packetLen := by
    simp only [List.length_append, ← whole]
    rfl
  refine ⟨length, rfl, ?_, stream, first, counter⟩
  cases af with
  | none => exact payloadOf_plain _ _ _ _ payload (mt adapted.mp Bool.false_ne_true) plain
  | some v =>
      have fits : v.length < 183 := by
        simp [adaptation, packetLen] at whole
        omega
      exact payloadOf_adapted _ _ _ _ v payload (adapted.mpr rfl) plain fits

end Headers

end Castr.Miracast.Ts

namespace Castr.Miracast.Source.TsMux

open Castr.Lib.Bytes
open Castr.Miracast.Ts

section Counting

def lastCc (count : Nat) : Option UInt8 := if count = 0 then none else some (ccOf (count - 1))

theorem next_ccOf (place : Nat) : (ccOf place + 1) &&& 0x0f = ccOf (place + 1) := by
  have steps : ∀ n < 16, (UInt8.ofNat n + 1) &&& 0x0f = UInt8.ofNat ((n + 1) % 16) := by decide
  have same : (place % 16 + 1) % 16 = (place + 1) % 16 := by omega
  rw [ccOf, ccOf, steps _ (Nat.mod_lt _ (by decide)), same]

theorem next_cc (count : Nat) : ((lastCc count).getD 0x0f + 1) &&& 0x0f = ccOf count := by
  cases count with
  | zero => decide
  | succ count => exact next_ccOf count

def Muxer.Counted (m : Muxer) (counts : UInt16 → Nat) : Prop :=
  ∀ pid, m.cc.lookup pid = lastCc (counts pid)

theorem lookup_entry (entries : List (UInt16 × UInt8)) (pid other : UInt16) (value : UInt8) :
    ((pid, value) :: entries.filter (fun entry => entry.1 ≠ pid)).lookup other =
      if other = pid then some value else entries.lookup other := by
  by_cases same : other = pid
  · subst same
    simp
  · have apart : (other == pid) = false := beq_false_of_ne same
    rw [if_neg same]
    simp only [List.lookup_cons, apart]
    induction entries with
    | nil => rfl
    | cons entry rest ih =>
        obtain ⟨key, last⟩ := entry
        by_cases kept : key = pid
        · have beside : (other == key) = false := kept ▸ apart
          rw [List.filter_cons_of_neg (by simpa using kept), ih]
          simp only [List.lookup_cons, beside]
        · rw [List.filter_cons_of_pos (by simpa using kept)]
          simp only [List.lookup_cons, ih]

theorem nextCc_counted (m : Muxer) (counts : UInt16 → Nat) (pid : UInt16)
    (counted : m.Counted counts) :
    (m.nextCc pid).2 = ccOf (counts pid) ∧
      (m.nextCc pid).1.Counted (Function.update counts pid (counts pid + 1)) := by
  have here : (m.nextCc pid).2 = ccOf (counts pid) := by
    rw [Muxer.nextCc, counted pid]
    exact next_cc (counts pid)
  refine ⟨here, fun other => ?_⟩
  have entry : (m.nextCc pid).1.cc.lookup other =
      if other = pid then some (m.nextCc pid).2 else m.cc.lookup other :=
    lookup_entry m.cc pid other _
  rw [entry, here, Function.update_apply]
  split
  · rfl
  · exact counted other

end Counting

section Packetize

def piecesFrom (pid : UInt16) (first : Bool) (place : Nat) : List (List UInt8) → List Carried
  | [] => []
  | piece :: pieces => ⟨pid, first, ccOf place, piece⟩ :: piecesFrom pid false (place + 1) pieces

theorem resize_length (bytes : List UInt8) (len : Nat) : (resize bytes len).length = len := by
  rw [resize, List.length_append, List.length_take, List.length_replicate]
  omega

theorem capacity_eq (af : Option (List UInt8)) :
    capacity af = packetLen - 4 - (adaptation af).length := by
  cases af with
  | none => rfl
  | some v => simp [capacity, adaptation, Nat.add_comm]

theorem packet_full (af : Option (List UInt8)) (room : (adaptation af).length + 4 < packetLen)
    (remaining : Nat) (more : 0 < remaining) :
    0 < min remaining (capacity (padded af remaining)) ∧
      min remaining (capacity af) ≤ min remaining (capacity (padded af remaining)) ∧
      4 + (adaptation (padded af remaining)).length +
        min remaining (capacity (padded af remaining)) = packetLen := by
  have free := capacity_eq af
  rw [packetLen] at room free ⊢
  unfold padded
  split
  · rename_i short
    have field (v : List UInt8) : (adaptation (some v)).length = v.length + 1 := rfl
    dsimp only
    rw [capacity_eq, field, resize_length, packetLen]
    omega
  · omega

/-- A multiplexer sends packets, and nothing but its counters moves. -/
structure Sends (m : Muxer) (sent : Muxer × List UInt8) (counts : UInt16 → Nat)
    (carried : List Carried) : Prop where
  emits : Emits sent.2 carried
  counted : sent.1.Counted counts
  kept : sent.1 = { m with cc := sent.1.cc, sinceTables := sent.1.sinceTables }

theorem sends_nil (m : Muxer) (counts : UInt16 → Nat) (counted : m.Counted counts) :
    Sends m (m, []) counts [] := ⟨emits_nil, counted, rfl⟩

/-- A unit is cut into pieces, none of them empty and the first as long as can be. -/
structure Cuts (unit : List UInt8) (pieces : List (List UInt8)) : Prop where
  whole : pieces.flatten = unit
  solid : ∀ piece ∈ pieces, piece ≠ []
  first : ∀ piece ∈ pieces.head?, min unit.length 176 ≤ piece.length

theorem packetizeFrom_sends (pid : UInt16) (known : pid ∈ pids) (pcr90k : Option Nat) (fuel : Nat)
    (m : Muxer) (counts : UInt16 → Nat) (counted : m.Counted counts) (first : Bool)
    (rest : List UInt8) (enough : rest.length ≤ fuel) :
    ∃ pieces : List (List UInt8), Cuts rest pieces ∧
      Sends m (Muxer.packetizeFrom pid pcr90k fuel m first rest)
        (Function.update counts pid (counts pid + pieces.length))
        (piecesFrom pid first (counts pid) pieces) := by
  induction fuel generalizing m counts first rest with
  | zero =>
      have none : rest = [] := List.length_eq_zero_iff.mp (by omega)
      refine ⟨[], ⟨by simp [none], by simp, by simp⟩, sends_nil m _ ?_⟩
      simpa using counted
  | succ fuel ih =>
      rw [Muxer.packetizeFrom]
      by_cases none : rest = []
      · rw [if_pos none]
        refine ⟨[], ⟨by simp [none], by simp, by simp⟩, sends_nil m _ ?_⟩
        simpa using counted
      · rw [if_neg none]
        dsimp only
        have more := List.length_pos_iff.mpr none
        generalize shape : (if first = true then pcr90k.map (fun pcr => 0x10 :: pcrBytes pcr)
          else Option.none) = clock
        have room : (adaptation clock).length ≤ 8 := by
          rw [← shape]
          cases first <;> cases pcr90k <;> simp [adaptation, pcrBytes]
        have free := capacity_eq clock
        rw [packetLen] at free
        obtain ⟨positive, least, whole⟩ :=
          packet_full clock (by rw [packetLen]; omega) rest.length more
        generalize padded clock rest.length = field at positive least whole ⊢
        generalize taken_eq : min rest.length (capacity field) = taken at positive least whole ⊢
        have within : taken ≤ rest.length := taken_eq ▸ Nat.min_le_left _ _
        have length : (rest.take taken).length = taken := by
          rw [List.length_take, Nat.min_eq_left within]
        obtain ⟨number, next⟩ := nextCc_counted m counts pid counted
        obtain ⟨pieces, cuts, sends⟩ := ih
          { (m.nextCc pid).1 with sinceTables := (m.nextCc pid).1.sinceTables + 1 } _ next false
          (rest.drop taken) (by rw [List.length_drop]; omega)
        have packet := carries_packet pid known first (counts pid) field (rest.take taken)
          (List.ne_nil_of_length_pos (by omega)) (by rw [length]; exact whole)
        refine ⟨rest.take taken :: pieces, ⟨?_, ?_, ?_⟩, ⟨?_, ?_, ?_⟩⟩
        · rw [List.flatten_cons, cuts.whole, List.take_append_drop]
        · rw [List.forall_mem_cons]
          exact ⟨List.ne_nil_of_length_pos (by omega), cuts.solid⟩
        · intro piece head
          obtain rfl : rest.take taken = piece := by simpa using head
          omega
        · rw [number]
          have later := sends.emits
          rw [Function.update_self] at later
          exact emits_append _ _ _ _ (emits_single _ _ packet) later
        · have after := sends.counted
          rw [Function.update_self, Function.update_idem, Nat.add_assoc] at after
          rw [List.length_cons, Nat.add_comm pieces.length]
          exact after
        · have kept := sends.kept
          rw [kept]
          rfl

end Packetize

section Times

theorem readPts_ptsBytes (pts90k : Nat) :
    readPts (ptsBytes pts90k) = pts90k % 2 ^ 33 * 1000000 / 90000 := by
  have marked : ∀ bits < 8, (UInt8.ofNat (0x21 ||| bits <<< 1)).toNat / 2 % 8 = bits := by decide
  have closed : ∀ bits < 128, (UInt8.ofNat (bits <<< 1 ||| 1)).toNat / 2 = bits := by decide
  have whole (bits : Nat) (small : bits < 256) : (UInt8.ofNat bits).toNat = bits := by
    rw [UInt8.toNat_ofNat']
    omega
  have high : (pts90k >>> 30) &&& 0x07 = pts90k / 2 ^ 30 % 8 := by
    rw [Nat.shiftRight_eq_div_pow]
    exact Nat.and_two_pow_sub_one_eq_mod _ 3
  have second : (pts90k >>> 22) &&& 0xff = pts90k / 2 ^ 22 % 256 := by
    rw [Nat.shiftRight_eq_div_pow]
    exact Nat.and_two_pow_sub_one_eq_mod _ 8
  have third : (pts90k >>> 15) &&& 0x7f = pts90k / 2 ^ 15 % 128 := by
    rw [Nat.shiftRight_eq_div_pow]
    exact Nat.and_two_pow_sub_one_eq_mod _ 7
  have fourth : (pts90k >>> 7) &&& 0xff = pts90k / 2 ^ 7 % 256 := by
    rw [Nat.shiftRight_eq_div_pow]
    exact Nat.and_two_pow_sub_one_eq_mod _ 8
  have last : pts90k &&& 0x7f = pts90k % 128 := Nat.and_two_pow_sub_one_eq_mod _ 7
  rw [ptsBytes, high, second, third, fourth, last]
  show ((UInt8.ofNat (0x21 ||| (pts90k / 2 ^ 30 % 8) <<< 1)).toNat / 2 % 8 * 2 ^ 30 +
    (UInt8.ofNat (pts90k / 2 ^ 22 % 256)).toNat * 2 ^ 22 +
    (UInt8.ofNat ((pts90k / 2 ^ 15 % 128) <<< 1 ||| 1)).toNat / 2 % 128 * 2 ^ 15 +
    (UInt8.ofNat (pts90k / 2 ^ 7 % 256)).toNat * 2 ^ 7 +
    (UInt8.ofNat ((pts90k % 128) <<< 1 ||| 1)).toNat / 2) * 1000000 / 90000 = _
  rw [marked _ (Nat.mod_lt _ (by decide)), closed _ (Nat.mod_lt _ (by decide)),
    closed _ (Nat.mod_lt _ (by decide)), whole _ (Nat.mod_lt _ (by decide)),
    whole _ (Nat.mod_lt _ (by decide)), Nat.mod_mod]
  congr 2
  omega

theorem readPts_close (ptsUs : UInt64) (fits : ptsUs.toNat * 9 / 100 < 2 ^ 33) :
    readPts (ptsBytes (ptsUs * 9 / 100).toNat) ≤ ptsUs.toNat ∧
      ptsUs.toNat ≤ readPts (ptsBytes (ptsUs * 9 / 100).toNat) + 12 := by
  have ticks : (ptsUs * 9 / 100).toNat = ptsUs.toNat * 9 / 100 := by
    rw [UInt64.toNat_div, UInt64.toNat_mul]
    have nine : (9 : UInt64).toNat = 9 := rfl
    have hundred : (100 : UInt64).toNat = 100 := rfl
    rw [nine, hundred, Nat.mod_eq_of_lt (by omega)]
  rw [readPts_ptsBytes, ticks, Nat.mod_eq_of_lt fits]
  omega

end Times

section Units

def pesHead (streamId : UInt8) (declared : Nat) (pts90k : Nat) (stuffing : Nat) : List UInt8 :=
  [0, 0, 1, streamId] ++ beBytes 2 (declared % 2 ^ 16) ++
    [0x80, 0x80, UInt8.ofNat (5 + stuffing)] ++ ptsBytes pts90k ++ List.replicate stuffing 0xff

theorem parse_pesHead (streamId : UInt8) (declared pts90k stuffing : Nat) (body : List UInt8)
    (few : stuffing < 200) :
    parsePes (pesHead streamId declared pts90k stuffing ++ body) = some {
      ptsUs := some (readPts (ptsBytes pts90k))
      payloadLen := if 8 + stuffing ≤
        declared % 2 ^ 16 then some (declared % 2 ^ 16 - (8 + stuffing))
        else none
      body := body } := by
  have count : (UInt8.ofNat (5 + stuffing)).toNat = 5 + stuffing := by
    rw [UInt8.toNat_ofNat']
    omega
  have read : readBe (beBytes 2 (declared % 2 ^ 16)) = declared % 2 ^ 16 := by
    rw [beBytes, readBe_reverse, readLe_leBytes 2 _ (by omega)]
  have times : (ptsBytes pts90k).length = 5 := rfl
  have length : (pesHead streamId declared pts90k stuffing).length = 14 + stuffing := by
    simp [pesHead, beBytes, times]
    omega
  have magic : (pesHead streamId declared pts90k stuffing ++ body).take 3 = [0, 0, 1] := rfl
  have size : ((pesHead streamId declared pts90k stuffing ++ body).drop 4).take 2 =
      beBytes 2 (declared % 2 ^ 16) := rfl
  have stamped : (pesHead streamId declared pts90k stuffing ++ body).getD 7 0 = 0x80 := rfl
  have header : (pesHead streamId declared pts90k stuffing ++ body).getD 8 0 =
      UInt8.ofNat (5 + stuffing) := rfl
  have time : ((pesHead streamId declared pts90k stuffing ++ body).drop 9).take 5 =
      ptsBytes pts90k := rfl
  have rest : (pesHead streamId declared pts90k stuffing ++ body).drop (9 + (5 + stuffing)) =
      body := List.drop_left' (by omega)
  have long : ¬ ((pesHead streamId declared pts90k stuffing ++ body).length < 9 ∨
      (pesHead streamId declared pts90k stuffing ++ body).take 3 ≠ [0, 0, 1]) := by
    rw [magic, List.length_append, length]
    simp
    omega
  have enough : ¬ (pesHead streamId declared pts90k stuffing ++ body).length <
      9 + (5 + stuffing) := by
    rw [List.length_append, length]
    omega
  have three : 3 + (5 + stuffing) = 8 + stuffing := by omega
  rw [parsePes, if_neg long]
  simp only [size, read, header, count, stamped, time, rest, if_neg enough, three]
  simp

theorem pesWithStuffing_eq (streamId : UInt8) (payload : List UInt8) (ptsUs : UInt64)
    (bounded : Bool)
    (stuffing : Nat) : pesWithStuffing streamId payload ptsUs bounded stuffing =
      pesHead streamId (if bounded then payload.length + 5 + stuffing + 3 else 0)
        (ptsUs * 9 / 100).toNat stuffing ++ payload := by
  have times (pts90k : Nat) : (ptsBytes pts90k).length = 5 := rfl
  simp only [pesWithStuffing, pesHead, times]

theorem cuts_first (streamId : UInt8) (declared pts90k stuffing : Nat) (payload : List UInt8)
    (pieces : List (List UInt8)) (few : stuffing ≤ 100)
    (cuts : Cuts (pesHead streamId declared pts90k stuffing ++ payload) pieces) :
    ∃ body rest, pieces = (pesHead streamId declared pts90k stuffing ++ body) :: rest ∧
      body ++ rest.flatten = payload := by
  have times : (ptsBytes pts90k).length = 5 := rfl
  have length : (pesHead streamId declared pts90k stuffing).length = 14 + stuffing := by
    simp [pesHead, beBytes, times]
    omega
  cases pieces with
  | nil =>
      have sizes := congrArg List.length cuts.whole
      rw [List.flatten_nil, List.length_append, length, List.length_nil] at sizes
      omega
  | cons first rest =>
      have long := cuts.first first (by simp)
      have whole := cuts.whole
      rw [List.length_append, length] at long
      rw [List.flatten_cons] at whole
      rcases List.append_eq_append_iff.mp whole with ⟨wanted, head, more⟩ | ⟨body, head, more⟩
      · have sizes := congrArg List.length head
        rw [List.length_append, length] at sizes
        have none : wanted = [] := List.length_eq_zero_iff.mp (by omega)
        refine ⟨[], rest, by simp [head, none], by simp [more, none]⟩
      · exact ⟨body, rest, by rw [head], more.symm⟩

end Units

end Castr.Miracast.Source.TsMux

namespace Castr.Miracast.Ts

open Source.TsMux

def Track.pid : Track → UInt16
  | .video => videoPid
  | .audio => audioPid

/-- A unit as it is cut into the payloads of packets: the first tells its time and, for audio, its
length. -/
structure Cut where
  track : Track
  data : List UInt8
  ptsUs : Option Nat
  first : List UInt8
  rest : List (List UInt8)
  pes : Pes
  parsed : parsePes first = some pes
  stamped : pes.ptsUs = ptsUs
  whole : pes.body ++ rest.flatten = data
  bounded : pes.payloadLen = match track with
    | .video => none
    | .audio => some data.length
  solid : ∀ piece ∈ rest, piece ≠ []

def Cut.pieces (cut : Cut) : List (List UInt8) := cut.first :: cut.rest

def Cut.unit (cut : Cut) : AccessUnit := cut.track.unit cut.data cut.ptsUs

theorem video_cut (au : List UInt8) (ptsUs : UInt64) (pieces : List (List UInt8))
    (cuts : Cuts (pes streamIdVideo au ptsUs false) pieces) :
    ∃ cut : Cut, cut.pieces = pieces ∧ cut.track = .video ∧ cut.data = au ∧
      cut.ptsUs = some (readPts (ptsBytes (ptsUs * 9 / 100).toNat)) := by
  rw [pes, pesWithStuffing_eq] at cuts
  obtain ⟨body, rest, rfl, whole⟩ := cuts_first _ _ _ _ _ _ (by decide) cuts
  exact ⟨{
    track := .video
    data := au
    ptsUs := some (readPts (ptsBytes (ptsUs * 9 / 100).toNat))
    first := _
    rest := rest
    pes := _
    parsed := parse_pesHead streamIdVideo 0 (ptsUs * 9 / 100).toNat 0 body (by decide)
    stamped := rfl
    whole := whole
    bounded := rfl
    solid := fun piece member => cuts.solid piece (List.mem_cons_of_mem _ member) },
    rfl, rfl, rfl, rfl⟩

theorem audio_cut (frame : List UInt8) (ptsUs : UInt64) (fits : frame.length + 10 < 2 ^ 16)
    (pieces : List (List UInt8))
    (cuts : Cuts (pesWithStuffing streamIdPrivate1 frame ptsUs true 2) pieces) :
    ∃ cut : Cut, cut.pieces = pieces ∧ cut.track = .audio ∧ cut.data = frame := by
  rw [pesWithStuffing_eq] at cuts
  obtain ⟨body, rest, rfl, whole⟩ := cuts_first _ _ _ _ _ _ (by decide) cuts
  have declared : (frame.length + 5 + 2 + 3) % 2 ^ 16 = frame.length + 10 := Nat.mod_eq_of_lt fits
  have parsed := parse_pesHead streamIdPrivate1 (frame.length + 5 + 2 + 3)
    (ptsUs * 9 / 100).toNat 2 body (by decide)
  rw [declared, if_pos (by omega), Nat.add_sub_cancel] at parsed
  exact ⟨{
    track := .audio
    data := frame
    ptsUs := some (readPts (ptsBytes (ptsUs * 9 / 100).toNat))
    first := _
    rest := rest
    pes := _
    parsed := parsed
    stamped := rfl
    whole := whole
    bounded := rfl
    solid := fun piece member => cuts.solid piece (List.mem_cons_of_mem _ member) },
    rfl, rfl, rfl⟩

/-- What the packets of a stream are part of: a table, or a unit at one of its pieces. Each has its
place on its stream. -/
inductive Sent where
  | pat (place : Nat)
  | pmt (profile level : UInt8) (place : Nat)
  | piece (cut : Cut) (index : Nat) (place : Nat)

def tablePayload (section_ : List UInt8) : List UInt8 := resize (0x00 :: section_) 184

def Sent.carried : Sent → Carried
  | .pat place => ⟨0, true, ccOf place, tablePayload patSection⟩
  | .pmt profile level place =>
      ⟨pmtPid, true, ccOf place, tablePayload (pmtSection profile level)⟩
  | .piece cut index place =>
      ⟨cut.track.pid, index = 0, ccOf place, cut.pieces.getD index []⟩

def Cut.sent (cut : Cut) (place : Nat) : List Sent :=
  (List.range cut.pieces.length).map (fun index => .piece cut index (place + index))

inductive Block where
  | tables (profile level : UInt8)
  | unit (cut : Cut)

def Block.sent (counts : UInt16 → Nat) : Block → List Sent
  | .tables profile level => [.pat (counts 0), .pmt profile level (counts pmtPid)]
  | .unit cut => cut.sent (counts cut.track.pid)

/-- The packets of each stream, a block later. -/
def Block.counted (counts : UInt16 → Nat) : Block → UInt16 → Nat
  | .tables _ _ =>
      Function.update (Function.update counts 0 (counts 0 + 1)) pmtPid (counts pmtPid + 1)
  | .unit cut =>
      Function.update counts cut.track.pid (counts cut.track.pid + cut.pieces.length)

def sentOf (counts : UInt16 → Nat) : List Block → List Sent
  | [] => []
  | block :: blocks => block.sent counts ++ sentOf (block.counted counts) blocks

def countedBy (counts : UInt16 → Nat) : List Block → UInt16 → Nat
  | [] => counts
  | block :: blocks => countedBy (block.counted counts) blocks

theorem sentOf_append (counts : UInt16 → Nat) (front back : List Block) :
    sentOf counts (front ++ back) = sentOf counts front ++
      sentOf (countedBy counts front) back := by
  induction front generalizing counts with
  | nil => rfl
  | cons block blocks ih => rw [List.cons_append, sentOf, ih, sentOf, countedBy, List.append_assoc]

theorem countedBy_append (counts : UInt16 → Nat) (front back : List Block) :
    countedBy counts (front ++ back) = countedBy (countedBy counts front) back := by
  induction front generalizing counts with
  | nil => rfl
  | cons block blocks ih => exact ih (block.counted counts)

def cutsOf (track : Track) (blocks : List Block) : List Cut :=
  blocks.filterMap (fun block =>
    match block with
    | .tables _ _ => none
    | .unit cut => if cut.track = track then some cut else none)

theorem cutsOf_append (track : Track) (front back : List Block) :
    cutsOf track (front ++ back) = cutsOf track front ++ cutsOf track back :=
  List.filterMap_append

theorem cutsOf_unit (track : Track) (cut : Cut) :
    cutsOf track [.unit cut] = if cut.track = track then [cut] else [] := by
  by_cases same : cut.track = track <;> simp [cutsOf, same]

theorem piecesFrom_eq (pid : UInt16) (first : Bool) (place : Nat) (pieces : List (List UInt8)) :
    piecesFrom pid first place pieces = (List.range pieces.length).map (fun index =>
      ⟨pid, first && index = 0, ccOf (place + index), pieces.getD index []⟩) := by
  induction pieces generalizing first place with
  | nil => rfl
  | cons piece pieces ih =>
      rw [piecesFrom, ih, List.length_cons, List.range_succ_eq_map, List.map_cons, List.map_map]
      simp [Function.comp_def, Nat.add_assoc, Nat.add_comm 1]

theorem carried_sent (cut : Cut) (place : Nat) :
    (cut.sent place).map Sent.carried = piecesFrom cut.track.pid true place cut.pieces := by
  rw [piecesFrom_eq, Cut.sent, List.map_map]
  simp [Function.comp_def, Sent.carried]

end Castr.Miracast.Ts
