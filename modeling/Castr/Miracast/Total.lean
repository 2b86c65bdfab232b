import Castr.Lib.Slices
import Castr.Miracast.Session

/-! The media path with every index, slice and difference checked and every loop bounded: none of
them stops it, whatever arrives, and it does what the unchecked one does. -/

namespace Castr.Miracast

open Castr.Lib.Bytes (readBe chunks)
open Castr.Lib.Slices

namespace Rtp

def payloadStartChecked (buf : List UInt8) : Option (Option Nat) := do
  let flags ← fetch buf 0
  let off := 12 + (flags &&& 0x0f).toNat * 4
  if flags &&& 0x10 ≠ 0 then
    if buf.length < off + 4 then some none
    else do
      let hi ← fetch buf (off + 2)
      let lo ← fetch buf (off + 3)
      some (some (off + 4 + readBe [hi, lo] * 4))
  else some (some off)

def parseChecked (buf : List UInt8) : Option (Option Packet) :=
  if buf.length < 12 then some none
  else do
    let version ← fetch buf 0
    if version >>> 6 ≠ 2 then some none
    else do
      let start ← payloadStartChecked buf
      match start with
      | none => some none
      | some off =>
          if buf.length < off then some none
          else do
            let kind ← fetch buf 1
            let s2 ← fetch buf 2
            let s3 ← fetch buf 3
            let t4 ← fetch buf 4
            let t5 ← fetch buf 5
            let t6 ← fetch buf 6
            let t7 ← fetch buf 7
            let payload ← after buf off
            some (some {
              sequence := UInt16.ofNat (readBe [s2, s3])
              timestamp := UInt32.ofNat (readBe [t4, t5, t6, t7])
              payloadType := kind &&& 0x7f
              payload := payload })

theorem payloadStartChecked_eq {buf : List UInt8} (long : 12 ≤ buf.length) :
    payloadStartChecked buf = some (payloadStart buf) := by
  unfold payloadStartChecked payloadStart
  rw [fetch_eq 0 (by omega), Option.bind_eq_bind, Option.bind_some]
  dsimp only
  split
  · split
    · rfl
    · rename_i enough
      rw [fetch_eq 0 (by omega), fetch_eq 0 (by omega)]
      rfl
  · rfl

theorem parseChecked_eq (buf : List UInt8) : parseChecked buf = some (parse buf) := by
  unfold parseChecked parse
  by_cases short : buf.length < 12
  · rw [if_pos short, if_pos (Or.inl short)]
  · have long : 12 ≤ buf.length := Nat.le_of_not_lt short
    have four : (buf.drop 4).take 4 =
        [buf.getD 4 0, buf.getD 5 0, buf.getD 6 0, buf.getD 7 0] := by
      rw [show 4 = 2 + 2 from rfl, List.take_add, List.drop_drop, take_two 0 (by omega),
        take_two 0 (by omega)]
      rfl
    rw [if_neg short, fetch_eq 0 (by omega), Option.bind_eq_bind, Option.bind_some]
    by_cases version : buf.getD 0 0 >>> 6 ≠ 2
    · rw [if_pos version, if_pos (Or.inr version)]
    · rw [if_neg version, if_neg (not_or.mpr ⟨short, version⟩), payloadStartChecked_eq long,
        Option.bind_eq_bind, Option.bind_some]
      cases payloadStart buf with
      | none => rfl
      | some off =>
          dsimp only
          split
          · rfl
          · rename_i inside
            rw [fetch_eq 0 (by omega), fetch_eq 0 (by omega), fetch_eq 0 (by omega),
              fetch_eq 0 (by omega), fetch_eq 0 (by omega), fetch_eq 0 (by omega),
              fetch_eq 0 (by omega), after_eq (by omega), four, take_two 0 (by omega)]
            rfl

namespace Reorder

structure Releasing where
  held : List Packet
  next : Option UInt16
  lost : Nat
  out : List Packet

def Releasing.ended (window : Nat) (s : Releasing) : Reorder × List Packet :=
  (⟨window, s.held, s.next, s.lost⟩, s.out)

def Releasing.letGo (s : Releasing) (lost : Nat) :
    Option (Releasing ⊕ (Reorder × List Packet)) := do
  let (head, rest) ← removeFirst s.held
  some (.inl ⟨rest, some (head.sequence + 1), lost, s.out ++ [head]⟩)

def Releasing.turn (window : Nat) (s : Releasing) :
    Option (Releasing ⊕ (Reorder × List Packet)) :=
  match s.held.head? with
  | none => some (.inr (s.ended window))
  | some head =>
      match s.next with
      | none => s.letGo s.lost
      | some seq =>
          if head.sequence = seq then s.letGo s.lost
          else if window < s.held.length then
            s.letGo (s.lost + max (head.sequence - seq).toNat 1)
          else some (.inr (s.ended window))

def pushChecked (r : Reorder) (p : Packet) : Option (Reorder × List Packet) :=
  if r.stale p.sequence then some (r, [])
  else do
    let held ← insertAt r.held (r.held.findIdx (fun h => seqGe h.sequence p.sequence)) p
    loop (Releasing.turn r.window) (held.length + 1) ⟨held, r.next, r.lost, []⟩

/-- What is still to come of a release under way. -/
def Releasing.ahead (window : Nat) (s : Releasing) : Reorder × List Packet :=
  let rest := release window s.next s.lost s.held
  (rest.1, s.out ++ rest.2)

theorem turn_ahead (window : Nat) (s : Releasing) :
    s.turn window = some (.inr (s.ahead window)) ∨
      ∃ next, s.turn window = some (.inl next) ∧ next.held.length < s.held.length ∧
        next.ahead window = s.ahead window := by
  obtain ⟨held, next, lost, out⟩ := s
  cases held with
  | nil => exact .inl (by simp [Releasing.turn, Releasing.ended, Releasing.ahead, release])
  | cons head rest =>
      have shorter : rest.length < (head :: rest).length := Nat.lt_succ_self _
      cases next with
      | none => exact .inr ⟨_, rfl, shorter, by simp [Releasing.ahead, release]⟩
      | some seq =>
          by_cases here : head.sequence = seq
          · refine .inr ⟨⟨rest, some (head.sequence + 1), lost, out ++ [head]⟩, ?_, shorter, ?_⟩
            · simp [Releasing.turn, Releasing.letGo, removeFirst, here]
            · simp [Releasing.ahead, release, here]
          · by_cases full : window < (head :: rest).length
            · refine .inr ⟨⟨rest, some (head.sequence + 1),
                lost + max (head.sequence - seq).toNat 1, out ++ [head]⟩, ?_, shorter, ?_⟩
              · simp only [Releasing.turn, List.head?_cons, if_neg here, if_pos full]
                rfl
              · simp only [Releasing.ahead, release, if_neg here, if_pos full]
                rw [List.append_assoc, List.singleton_append]
            · refine .inl ?_
              simp only [Releasing.turn, List.head?_cons, if_neg here, if_neg full,
                Releasing.ahead, Releasing.ended, release, List.append_nil]

theorem pushChecked_eq (r : Reorder) (p : Packet) : r.pushChecked p = some (r.push p) := by
  unfold pushChecked push
  split
  · rfl
  · rw [insertAt_eq List.findIdx_le_length, Option.bind_eq_bind, Option.bind_some]
    exact loop_eq (Releasing.turn r.window) (fun s => s.held.length) (Releasing.ahead r.window)
      (turn_ahead r.window) _ _ (Nat.lt_succ_self _)

end Reorder

end Rtp

namespace Ts

def Assembly.appendChecked (asm : Assembly) (bytes : List UInt8) : Option Assembly :=
  match asm.expected with
  | some want => do
      let room := want - asm.data.length
      let fits ← between bytes 0 (min room bytes.length)
      some { asm with data := asm.data ++ fits }
  | none => some { asm with data := asm.data ++ bytes }

theorem Assembly.appendChecked_eq (asm : Assembly) (bytes : List UInt8) :
    asm.appendChecked bytes = some (asm.append bytes) := by
  unfold appendChecked append
  cases asm.expected with
  | none => rfl
  | some want =>
      dsimp only
      rw [between_eq (Nat.zero_le _) (Nat.min_le_right _ _), List.drop_zero, Nat.sub_zero,
        Option.bind_eq_bind, Option.bind_some, ← List.take_eq_take_min]

def readPtsChecked (b : List UInt8) : Option Nat := do
  let b0 ← fetch b 0
  let b1 ← fetch b 1
  let b2 ← fetch b 2
  let b3 ← fetch b 3
  let b4 ← fetch b 4
  some ((((b0.toNat / 2) % 8) * 2 ^ 30 + b1.toNat * 2 ^ 22 + ((b2.toNat / 2) % 128) * 2 ^ 15 +
    b3.toNat * 2 ^ 7 + b4.toNat / 2) * 1000000 / 90000)

theorem readPtsChecked_eq {b : List UInt8} (five : 5 ≤ b.length) :
    readPtsChecked b = some (readPts b) := by
  unfold readPtsChecked readPts
  rw [fetch_eq 0 (by omega), fetch_eq 0 (by omega), fetch_eq 0 (by omega), fetch_eq 0 (by omega),
    fetch_eq 0 (by omega)]
  rfl

def parsePesChecked (p : List UInt8) : Option (Option Pes) :=
  if p.length < 9 then some none
  else do
    let p0 ← fetch p 0
    let p1 ← fetch p 1
    let p2 ← fetch p 2
    if p0 ≠ 0 ∨ p1 ≠ 0 ∨ p2 ≠ 1 then some none
    else do
      let p4 ← fetch p 4
      let p5 ← fetch p 5
      let flags ← fetch p 7
      let p8 ← fetch p 8
      let packetLen := readBe [p4, p5]
      let headerLen := p8.toNat
      if p.length < 9 + headerLen then some none
      else do
        let ptsUs ←
          if flags &&& 0x80 ≠ 0 ∧ 5 ≤ headerLen then do
            let b ← between p 9 14
            (readPtsChecked b).map some
          else some none
        let body ← after p (9 + headerLen)
        some (some {
          ptsUs := ptsUs
          payloadLen :=
            if 3 + headerLen ≤ packetLen then some (packetLen - (3 + headerLen)) else none
          body := body })

theorem parsePesChecked_eq (p : List UInt8) : parsePesChecked p = some (parsePes p) := by
  unfold parsePesChecked parsePes
  by_cases short : p.length < 9
  · rw [if_pos short, if_pos (Or.inl short)]
  · have three : p.take 3 = [p.getD 0 0, p.getD 1 0, p.getD 2 0] := by
      rw [show 3 = 2 + 1 from rfl, List.take_add, ← List.drop_zero (l := p), take_two 0 (by omega),
        List.drop_zero, List.take_one, List.head?_drop, List.getElem?_eq_getElem (by omega),
        List.getD_eq_getElem p _ (by omega : 2 < p.length)]
      rfl
    have start : (p.length < 9 ∨ p.take 3 ≠ [0, 0, 1]) ↔
        (p.getD 0 0 ≠ 0 ∨ p.getD 1 0 ≠ 0 ∨ p.getD 2 0 ≠ 1) := by
      rw [three]
      simp only [short, false_or, ne_eq, List.cons.injEq, and_true]
      tauto
    rw [if_neg short, fetch_eq 0 (by omega), fetch_eq 0 (by omega), fetch_eq 0 (by omega)]
    simp only [Option.bind_eq_bind, Option.bind_some, if_congr start rfl rfl]
    by_cases begins : p.getD 0 0 ≠ 0 ∨ p.getD 1 0 ≠ 0 ∨ p.getD 2 0 ≠ 1
    · rw [if_pos begins, if_pos begins]
    · rw [if_neg begins, if_neg begins, fetch_eq 0 (by omega), fetch_eq 0 (by omega),
        fetch_eq 0 (by omega), fetch_eq 0 (by omega), take_two 0 (by omega)]
      simp only [Option.bind_some]
      split
      · rfl
      · rename_i whole
        rw [after_eq (by omega)]
        by_cases stamped : p.getD 7 0 &&& 0x80 ≠ 0 ∧ 5 ≤ (p.getD 8 0).toNat
        · have five : 5 ≤ ((p.drop 9).take (14 - 9)).length := by
            rw [List.length_take, List.length_drop]
            omega
          rw [if_pos stamped, if_pos stamped, between_eq (by decide) (by omega), Option.bind_some,
            readPtsChecked_eq five]
          rfl
        · rw [if_neg stamped, if_neg stamped]
          rfl

def Assembly.restartChecked (asm : Assembly) (payload : List UInt8) :
    Option (Assembly × Option (List UInt8 × Option Nat)) := do
  let done :=
    if asm.isOpen ∧ !asm.damaged ∧ asm.data ≠ [] then some (asm.data, asm.ptsUs) else none
  let header ← parsePesChecked payload
  let next ←
    match header with
    | some pes =>
        appendChecked { asm with
          data := []
          damaged := false
          isOpen := true
          ptsUs := pes.ptsUs
          expected := pes.payloadLen } pes.body
    | none => some { asm with data := [], damaged := true, isOpen := false, expected := none }
  some (next, done)

def Assembly.takeChecked (asm : Assembly) (payload : List UInt8) (start : Bool) :
    Option (Assembly × List (List UInt8 × Option Nat)) := do
  let fed ←
    if start then asm.restartChecked payload
    else if asm.isOpen then (asm.appendChecked payload).map (fun next => (next, none))
    else some (asm, none)
  let done := fed.1.finish
  some (done.1, fed.2.toList ++ done.2.toList)

theorem Assembly.takeChecked_eq (asm : Assembly) (payload : List UInt8) (start : Bool) :
    asm.takeChecked payload start = some (asm.take payload start) := by
  unfold takeChecked take restartChecked restart
  simp only [parsePesChecked_eq, appendChecked_eq, Option.bind_eq_bind, Option.bind_some]
  cases start with
  | true => cases parsePes payload <;> simp
  | false => cases asm.isOpen <;> simp

namespace Demux

def sectionOfChecked (payload : List UInt8) (start : Bool) (tableId : UInt8) :
    Option (Option (List UInt8)) :=
  if start = false ∨ payload = [] then some none
  else do
    let pointer ← fetch payload 0
    -- `get` of a range past the end is no panic.
    if payload.length < 1 + pointer.toNat then some none
    else do
      let s := payload.drop (1 + pointer.toNat)
      if s.length < 12 then some none
      else do
        let table ← fetch s 0
        some (if table ≠ tableId then none else some s)

theorem sectionOfChecked_eq (payload : List UInt8) (start : Bool) (tableId : UInt8) :
    sectionOfChecked payload start tableId = some (sectionOf payload start tableId) := by
  unfold sectionOfChecked sectionOf
  by_cases idle : start = false ∨ payload = []
  · rw [if_pos idle, if_pos (idle.imp_right Or.inl)]
  · have filled : payload ≠ [] := fun empty => idle (Or.inr empty)
    rw [if_neg idle, fetch_eq 0 (List.length_pos_iff.mpr filled), Option.bind_eq_bind,
      Option.bind_some]
    by_cases short : payload.length < 1 + (payload.getD 0 0).toNat
    · rw [if_pos short, if_pos (Or.inr (Or.inr short))]
    · have begins : ¬ (start = false ∨ payload = [] ∨
          payload.length < 1 + (payload.getD 0 0).toNat) := by
        rintro (off | empty | less)
        · exact idle (Or.inl off)
        · exact filled empty
        · exact short less
      rw [if_neg short, if_neg begins]
      dsimp only
      by_cases few : (payload.drop (1 + (payload.getD 0 0).toNat)).length < 12
      · rw [if_pos few, if_pos (Or.inl few)]
      · rw [if_neg few, fetch_eq 0 (by omega), Option.bind_some]
        simp only [few, false_or]

def readPatChecked (d : Demux) (payload : List UInt8) (start : Bool) : Option Demux := do
  let table ← sectionOfChecked payload start 0x00
  match table with
  | none => some d
  | some s => do
      let program ← between s 8 12
      let hi ← fetch program 2
      let lo ← fetch program 3
      some (if pidOf hi lo ≠ 0 then { d with pmtPid := some (pidOf hi lo) } else d)

def streamTurn (s : List UInt8) (stop : Nat) (at_ : Demux × Nat) :
    Option ((Demux × Nat) ⊕ Demux) :=
  let (d, i) := at_
  if i + 5 ≤ stop then do
    let streamType ← fetch s i
    let pidHi ← fetch s (i + 1)
    let pidLo ← fetch s (i + 2)
    let infoHi ← fetch s (i + 3)
    let infoLo ← fetch s (i + 4)
    let pid := pidOf pidHi pidLo
    let named :=
      if streamType = streamTypeH264 then { d with videoPid := some pid }
      else if streamType = streamTypeLpcm then { d with audioPid := some pid }
      else d
    some (.inl (named, i + 5 + low 12 infoHi infoLo))
  else some (.inr d)

def readPmtChecked (d : Demux) (payload : List UInt8) (start : Bool) : Option Demux := do
  let table ← sectionOfChecked payload start 0x02
  match table with
  | none => some d
  | some s => do
      let lenHi ← fetch s 1
      let lenLo ← fetch s 2
      let sectionLen := low 12 lenHi lenLo + 3
      if sectionLen < 16 then some d
      else do
        let infoHi ← fetch s 10
        let infoLo ← fetch s 11
        let stop := min (sectionLen - 4) s.length
        loop (streamTurn s stop) (stop + 1) (d, 12 + low 12 infoHi infoLo)

theorem sectionOf_long {payload s : List UInt8} {start : Bool} {tableId : UInt8}
    (found : sectionOf payload start tableId = some s) : 12 ≤ s.length := by
  unfold sectionOf at found
  split at found
  · cases found
  · dsimp only at found
    split at found
    · cases found
    · rename_i long
      cases found
      exact Nat.le_of_not_lt (fun short => long (Or.inl short))

theorem readPatChecked_eq (d : Demux) (payload : List UInt8) (start : Bool) :
    d.readPatChecked payload start = some (d.readPat payload start) := by
  unfold readPatChecked readPat
  rw [sectionOfChecked_eq, Option.bind_eq_bind, Option.bind_some]
  cases found : sectionOf payload start 0x00 with
  | none => rfl
  | some s =>
      have long := sectionOf_long found
      have length : ((s.drop 8).take (12 - 8)).length = 4 := by
        rw [List.length_take, List.length_drop]
        omega
      have program : ∀ i < 4, ((s.drop 8).take (12 - 8)).getD i 0 = s.getD (8 + i) 0 := by
        intro i inside
        rw [List.getD_eq_getElem _ _ (by omega), List.getD_eq_getElem _ _ (by omega),
          List.getElem_take, List.getElem_drop]
      dsimp only
      rw [between_eq (by decide) long, Option.bind_eq_bind, Option.bind_some,
        fetch_eq 0 (by omega), Option.bind_eq_bind, Option.bind_some, fetch_eq 0 (by omega),
        Option.bind_some, program 2 (by decide), program 3 (by decide)]

theorem readStreams_enough (s : List UInt8) (stop : Nat) (d : Demux) (i fuel more : Nat)
    (enough : stop - i ≤ fuel) (also : stop - i ≤ more) :
    d.readStreams s stop fuel i = d.readStreams s stop more i := by
  induction fuel generalizing d i more with
  | zero =>
      cases more with
      | zero => rfl
      | succ more => rw [readStreams, readStreams, if_neg (by omega)]
  | succ fuel ih =>
      cases more with
      | zero => rw [readStreams, readStreams, if_neg (by omega)]
      | succ more =>
          rw [readStreams, readStreams]
          split
          · exact ih _ _ _ (by omega) (by omega)
          · rfl

theorem streamTurn_ahead (s : List UInt8) (stop : Nat) (inside : stop ≤ s.length)
    (at_ : Demux × Nat) :
    streamTurn s stop at_ = some (.inr (at_.1.readStreams s stop (stop - at_.2) at_.2)) ∨
      ∃ next, streamTurn s stop at_ = some (.inl next) ∧ stop - next.2 < stop - at_.2 ∧
        next.1.readStreams s stop (stop - next.2) next.2 =
          at_.1.readStreams s stop (stop - at_.2) at_.2 := by
  obtain ⟨d, i⟩ := at_
  unfold streamTurn
  dsimp only
  by_cases entry : i + 5 ≤ stop
  · have turns : stop - i = (stop - i - 1) + 1 := by omega
    rw [if_pos entry, fetch_eq 0 (by omega), fetch_eq 0 (by omega), fetch_eq 0 (by omega),
      fetch_eq 0 (by omega), fetch_eq 0 (by omega)]
    refine .inr ⟨_, rfl, by dsimp only; omega, ?_⟩
    rw [turns, readStreams, if_pos entry]
    exact readStreams_enough s stop _ _ _ _ (Nat.le_refl _) (by omega)
  · refine .inl ?_
    rw [if_neg entry]
    cases turns : stop - i with
    | zero => rfl
    | succ left => rw [readStreams, if_neg entry]

theorem readPmtChecked_eq (d : Demux) (payload : List UInt8) (start : Bool) :
    d.readPmtChecked payload start = some (d.readPmt payload start) := by
  unfold readPmtChecked readPmt
  rw [sectionOfChecked_eq, Option.bind_eq_bind, Option.bind_some]
  cases found : sectionOf payload start 0x02 with
  | none => rfl
  | some s =>
      have long := sectionOf_long found
      dsimp only
      rw [fetch_eq 0 (by omega), fetch_eq 0 (by omega)]
      simp only [Option.bind_eq_bind, Option.bind_some]
      split
      · rfl
      · rw [fetch_eq 0 (by omega), fetch_eq 0 (by omega)]
        simp only [Option.bind_some]
        have ends := loop_eq
          (streamTurn s (min (low 12 (s.getD 1 0) (s.getD 2 0) + 3 - 4) s.length))
          (fun at_ => min (low 12 (s.getD 1 0) (s.getD 2 0) + 3 - 4) s.length - at_.2) _
          (streamTurn_ahead s _ (Nat.min_le_right _ _))
        rw [ends _ _ (Nat.lt_succ_of_le (Nat.sub_le _ _))]
        exact congrArg some (readStreams_enough s _ d _ _ _ (Nat.le_refl _)
          (by have := Nat.min_le_right (low 12 (s.getD 1 0) (s.getD 2 0) + 3 - 4) s.length; omega))

end Demux

def offsetChecked (packet : List UInt8) (flags : UInt8) : Option Nat :=
  if flags &&& 0x20 ≠ 0 then (fetch packet 4).map (fun len => 5 + len.toNat) else some 4

def payloadOfChecked (packet : List UInt8) : Option (Option (List UInt8)) := do
  let flags ← fetch packet 3
  if flags &&& 0x10 = 0 then some none
  else do
    let off ← offsetChecked packet flags
    if packetLen ≤ off then some none else (after packet off).map some

theorem payloadOfChecked_eq {packet : List UInt8} (whole : packet.length = packetLen) :
    payloadOfChecked packet = some (payloadOf packet) := by
  have long : packet.length = 188 := whole
  unfold payloadOfChecked payloadOf
  rw [fetch_eq 0 (by omega), Option.bind_eq_bind, Option.bind_some]
  dsimp only
  have off : offsetChecked packet (packet.getD 3 0) =
      some (if packet.getD 3 0 &&& 0x20 ≠ 0 then 5 + (packet.getD 4 0).toNat else 4) := by
    unfold offsetChecked
    rw [fetch_eq 0 (by omega)]
    split <;> rfl
  rw [off, Option.bind_eq_bind, Option.bind_some]
  by_cases empty : packet.getD 3 0 &&& 0x10 = 0
  · rw [if_pos empty, if_pos (Or.inl empty)]
  · rw [if_neg empty]
    simp only [empty, false_or]
    generalize (if packet.getD 3 0 &&& 0x20 ≠ 0 then 5 + (packet.getD 4 0).toNat else 4) = off
    by_cases past : packetLen ≤ off
    · rw [if_pos past, if_pos past]
    · rw [if_neg past, if_neg past, after_eq (by rw [whole]; exact Nat.le_of_not_le past),
        Option.map_some]

namespace Demux

def pushChecked (d : Demux) (packet : List UInt8) : Option (Demux × List AccessUnit) :=
  if packet.length ≠ packetLen then some (d, [])
  else do
    let first ← fetch packet 0
    if first ≠ sync then some (d, [])
    else do
      let hi ← fetch packet 1
      let lo ← fetch packet 2
      let flags ← fetch packet 3
      let payload ← payloadOfChecked packet
      match payload with
      | none => some (d, [])
      | some payload =>
          let pid := pidOf hi lo
          let start : Bool := hi &&& 0x40 ≠ 0
          let d := d.countContinuity pid (flags &&& 0x0f)
          if pid = 0 then (d.readPatChecked payload start).map (fun next => (next, []))
          else if d.pmtPid = some pid then
            (d.readPmtChecked payload start).map (fun next => (next, []))
          else
            match d.trackOf pid with
            | none => some (d, [])
            | some track => do
                let fed ← (d.assembly track).takeChecked payload start
                some (d.setAssembly track fed.1, fed.2.map (fun unit => track.unit unit.1 unit.2))

theorem pushChecked_eq (d : Demux) (packet : List UInt8) :
    d.pushChecked packet = some (d.push packet) := by
  unfold pushChecked push
  by_cases whole : packet.length ≠ packetLen
  · rw [if_pos whole, if_pos (Or.inl whole)]
  · have length : packet.length = packetLen := not_not.mp whole
    have long : packet.length = 188 := length
    rw [if_neg whole, fetch_eq 0 (by omega), Option.bind_eq_bind, Option.bind_some]
    by_cases foreign : packet.getD 0 0 ≠ sync
    · rw [if_pos foreign, if_pos (Or.inr foreign)]
    · rw [if_neg foreign, if_neg (not_or.mpr ⟨whole, foreign⟩), fetch_eq 0 (by omega),
        fetch_eq 0 (by omega), fetch_eq 0 (by omega), payloadOfChecked_eq length]
      simp only [Option.bind_eq_bind, Option.bind_some]
      cases payloadOf packet with
      | none => rfl
      | some payload =>
          simp only [readPatChecked_eq, readPmtChecked_eq, Option.map_some,
            Assembly.takeChecked_eq, Option.bind_some]
          generalize d.countContinuity (pidOf (packet.getD 1 0) (packet.getD 2 0))
            (packet.getD 3 0 &&& 0x0f) = d
          split
          · rfl
          · split
            · rfl
            · cases d.trackOf (pidOf (packet.getD 1 0) (packet.getD 2 0)) <;> rfl

def pushAllChecked (d : Demux) : List (List UInt8) → Option (Demux × List AccessUnit)
  | [] => some (d, [])
  | packet :: packets => do
      let fed ← d.pushChecked packet
      let rest ← fed.1.pushAllChecked packets
      some (rest.1, fed.2 ++ rest.2)

theorem pushAllChecked_eq (d : Demux) (packets : List (List UInt8)) :
    d.pushAllChecked packets = some (d.pushAll packets) := by
  induction packets generalizing d with
  | nil => rfl
  | cons packet packets ih =>
      rw [pushAllChecked, pushChecked_eq, Option.bind_eq_bind, Option.bind_some, ih]
      rfl

end Demux

end Ts

structure MediaPath where
  reorder : Rtp.Reorder
  demux : Ts.Demux

namespace MediaPath

def new (window : Nat) : MediaPath := ⟨.new window, .new⟩

/-- The transport packets that a datagram brings to the demultiplexer. -/
def released (m : MediaPath) (datagram : List UInt8) : List (List UInt8) :=
  match Rtp.parse datagram with
  | none => []
  | some packet =>
      if packet.payloadType ≠ ptMp2t then []
      else (m.reorder.push packet).2.flatMap (fun p => chunks Ts.packetLen p.payload)

def receive (m : MediaPath) (datagram : List UInt8) : MediaPath × List Ts.AccessUnit :=
  match Rtp.parse datagram with
  | none => (m, [])
  | some packet =>
      if packet.payloadType ≠ ptMp2t then (m, [])
      else
        let pushed := m.reorder.push packet
        let fed := m.demux.pushAll (pushed.2.flatMap (fun p => chunks Ts.packetLen p.payload))
        (⟨pushed.1, fed.1⟩, fed.2)

def receiveChecked (m : MediaPath) (datagram : List UInt8) :
    Option (MediaPath × List Ts.AccessUnit) := do
  let parsed ← Rtp.parseChecked datagram
  match parsed with
  | none => some (m, [])
  | some packet =>
      if packet.payloadType ≠ ptMp2t then some (m, [])
      else do
        let pushed ← m.reorder.pushChecked packet
        let fed ← m.demux.pushAllChecked
          (pushed.2.flatMap (fun p => chunks Ts.packetLen p.payload))
        some (⟨pushed.1, fed.1⟩, fed.2)

theorem receiveChecked_eq (m : MediaPath) (datagram : List UInt8) :
    m.receiveChecked datagram = some (m.receive datagram) := by
  unfold receiveChecked receive
  rw [Rtp.parseChecked_eq, Option.bind_eq_bind, Option.bind_some]
  cases Rtp.parse datagram with
  | none => rfl
  | some packet =>
      dsimp only
      split
      · rfl
      · rw [Rtp.Reorder.pushChecked_eq, Option.bind_eq_bind, Option.bind_some,
          Ts.Demux.pushAllChecked_eq]
        rfl

end MediaPath

end Castr.Miracast
