import Castr.Lib.Bytes
import Castr.Lib.Slices
import Castr.Lib.Tagged

/-! Leasing the one address: what is read of a request, whatever arrives, and what a reply says. -/

namespace Castr.Miracast.Dhcp

open Castr.Lib.Bytes (leBytes readBe readLe readLe_leBytes)
open Castr.Lib.Slices
open Castr.Lib.Tagged

structure Ipv4Addr where
  a : UInt8
  b : UInt8
  c : UInt8
  d : UInt8
  deriving DecidableEq, Repr

def Ipv4Addr.octets (ip : Ipv4Addr) : List UInt8 := [ip.a, ip.b, ip.c, ip.d]

abbrev Mac := { bytes : List UInt8 // bytes.length = 6 }

def magic : List UInt8 := [99, 130, 83, 99]
def optSubnet : UInt8 := 1
def optRouter : UInt8 := 3
def optLeaseTime : UInt8 := 51
def optMessageType : UInt8 := 53
def optServerId : UInt8 := 54
def optRequestedIp : UInt8 := 50
def optClientId : UInt8 := 61
def optEnd : UInt8 := 255
def minMessage : Nat := 300
def offYiaddr : Nat := 16
def offSiaddr : Nat := 20
def offChaddr : Nat := 28
def offMagic : Nat := 236
def offOptions : Nat := 240

inductive Kind where
  | discover
  | request
  | other
  deriving DecidableEq, Repr

structure Request where
  kind : Kind
  xid : UInt32
  mac : Mac
  requestedIp : Option Ipv4Addr
  clientId : Option (List UInt8)
  deriving DecidableEq, Repr

structure Lease where
  server : Ipv4Addr
  client : Ipv4Addr
  netmask : Ipv4Addr
  leaseSecs : UInt32
  deriving DecidableEq, Repr

structure Scan where
  i : Nat
  kind : Kind
  requestedIp : Option Ipv4Addr
  clientId : Option (List UInt8)

def Kind.ofByte (byte : UInt8) : Kind :=
  if byte = 1 then .discover else if byte = 3 then .request else .other

def Scan.noteKind (s : Scan) (value : List UInt8) : Option Scan := do
  let byte ← fetch value 0
  some { s with kind := Kind.ofByte byte }

def Scan.noteRequestedIp (s : Scan) (value : List UInt8) : Option Scan := do
  let a ← fetch value 0
  let b ← fetch value 1
  let c ← fetch value 2
  let d ← fetch value 3
  some { s with requestedIp := some ⟨a, b, c, d⟩ }

def Scan.note (s : Scan) (code : UInt8) (len : Nat) (value : List UInt8) : Option Scan :=
  if code = optMessageType ∧ len = 1 then s.noteKind value
  else if code = optRequestedIp ∧ len = 4 then s.noteRequestedIp value
  else if code = optClientId ∧ 0 < len then some { s with clientId := some value }
  else some s

/-- One turn of the loop; `none` is a panic, and `some (.inr none)` a request that is not one. -/
def Scan.turn (buf : List UInt8) (xid : UInt32) (mac : Mac) (s : Scan) :
    Option (Scan ⊕ Option Request) :=
  if s.i + 2 ≤ buf.length then do
    let code ← fetch buf s.i
    if code = optEnd then some (.inr (some ⟨s.kind, xid, mac, s.requestedIp, s.clientId⟩))
    else if code = 0 then some (.inl { s with i := s.i + 1 })
    else do
      let size ← fetch buf (s.i + 1)
      match getRange buf (s.i + 2) (s.i + 2 + size.toNat) with
      | none => some (.inr none)
      | some value => do
          let noted ← s.note code size.toNat value
          some (.inl { noted with i := s.i + 2 + size.toNat })
  else some (.inr (some ⟨s.kind, xid, mac, s.requestedIp, s.clientId⟩))

/-- Copying into an array of six bytes; another length panics. -/
def Mac.of (bytes : List UInt8) : Option Mac :=
  if six : bytes.length = 6 then some ⟨bytes, six⟩ else none

def readHeader (buf : List UInt8) : Option (UInt32 × Mac) := do
  let x4 ← fetch buf 4
  let x5 ← fetch buf 5
  let x6 ← fetch buf 6
  let x7 ← fetch buf 7
  let chaddr ← between buf offChaddr (offChaddr + 6)
  let mac ← Mac.of chaddr
  some (UInt32.ofNat (readBe [x4, x5, x6, x7]), mac)

def parse (buf : List UInt8) : Option (Option Request) :=
  if buf.length < offOptions then some none
  else do
    let op ← fetch buf 0
    if op ≠ 1 then some none
    else do
      let cookie ← between buf offMagic offOptions
      if cookie ≠ magic then some none
      else do
        let (xid, mac) ← readHeader buf
        loop (Scan.turn buf xid mac) (buf.length + 1) ⟨offOptions, .other, none, none⟩

def pushOption (p : List UInt8) (code : UInt8) (value : List UInt8) : List UInt8 :=
  p ++ [code] ++ [UInt8.ofNat value.length] ++ value

def messageType (r : Request) (lease : Lease) : Option UInt8 :=
  match r.kind with
  | .discover => some 2
  | .request =>
      match r.requestedIp with
      | none => some 5
      | some ip => if ip = lease.client then some 5 else some 6
  | .other => none

def writeYiaddr (p : List UInt8) (type : UInt8) (lease : Lease) : Option (List UInt8) :=
  if type ≠ 6 then copyInto p offYiaddr (offYiaddr + 4) lease.client.octets else some p

def writeHeader (r : Request) (lease : Lease) (type : UInt8) : Option (List UInt8) := do
  let p := List.replicate offOptions 0
  let p ← store p 0 2
  let p ← store p 1 1
  let p ← store p 2 6
  let p ← copyInto p 4 8 (leBytes 4 r.xid.toNat).reverse
  let p ← writeYiaddr p type lease
  let p ← copyInto p offSiaddr (offSiaddr + 4) lease.server.octets
  let p ← copyInto p offChaddr (offChaddr + 6) r.mac.1
  copyInto p offMagic offOptions magic

def pushOptions (p : List UInt8) (r : Request) (lease : Lease) (type : UInt8) : List UInt8 :=
  let p := pushOption p optMessageType [type]
  let p := pushOption p optServerId lease.server.octets
  let p :=
    match r.clientId with
    | some id => pushOption p optClientId id
    | none => p
  let p :=
    if type ≠ 6 then
      pushOption (pushOption (pushOption p optSubnet lease.netmask.octets) optRouter
        lease.server.octets) optLeaseTime (leBytes 4 lease.leaseSecs.toNat).reverse
    else p
  p ++ [optEnd]

/-- `p.resize(minMessage, 0)`, where that is longer. -/
def padded (p : List UInt8) : List UInt8 :=
  if p.length < minMessage then p ++ List.replicate (minMessage - p.length) 0 else p

def reply (r : Request) (lease : Lease) : Option (Option (List UInt8)) :=
  match messageType r lease with
  | none => some none
  | some type => do
      let p ← writeHeader r lease type
      some (some (padded (pushOptions p r lease type)))

section Parsing

/-- What an option says about the kind of the message, where it does. -/
def kindOf (item : Item) : Option Kind :=
  match item.2 with
  | [byte] => if item.1 = optMessageType then some (Kind.ofByte byte) else none
  | _ => none

def requestedIpOf (item : Item) : Option Ipv4Addr :=
  match item.2 with
  | [a, b, c, d] => if item.1 = optRequestedIp then some ⟨a, b, c, d⟩ else none
  | _ => none

def clientIdOf (item : Item) : Option (List UInt8) :=
  if item.1 = optClientId ∧ item.2 ≠ [] then some item.2 else none

def Scan.heard (xid : UInt32) (mac : Mac) (s : Scan) (items : List Item) : Request where
  kind := ((lastOf kindOf items).or (some s.kind)).getD .other
  xid
  mac
  requestedIp := (lastOf requestedIpOf items).or s.requestedIp
  clientId := (lastOf clientIdOf items).or s.clientId

structure Scan.Notes (s : Scan) (item : Item) (noted : Scan) : Prop where
  kind : some noted.kind = (kindOf item).or (some s.kind)
  requestedIp : noted.requestedIp = (requestedIpOf item).or s.requestedIp
  clientId : noted.clientId = (clientIdOf item).or s.clientId

/-- An option is noted without a panic, and each part is replaced by what it says. -/
theorem note_notes (s : Scan) (code : UInt8) (value : List UInt8) :
    ∃ noted, s.note code value.length value = some noted ∧ s.Notes (code, value) noted := by
  unfold Scan.note
  split
  · rename_i kind
    obtain ⟨rfl, one⟩ := kind
    obtain ⟨byte, rfl⟩ := List.length_eq_one_iff.mp one
    exact ⟨_, rfl, rfl, rfl, rfl⟩
  · rename_i notKind
    split
    · rename_i requested
      obtain ⟨rfl, four⟩ := requested
      match value, four with
      | [a, b, c, d], _ => exact ⟨_, rfl, rfl, rfl, rfl⟩
    · rename_i notRequested
      have kind : kindOf (code, value) = none := by
        unfold kindOf
        split
        · rename_i byte one
          rw [if_neg]
          intro same
          exact notKind ⟨same, congrArg List.length one⟩
        · rfl
      have requestedIp : requestedIpOf (code, value) = none := by
        unfold requestedIpOf
        split
        · rename_i a b c d four
          rw [if_neg]
          intro same
          exact notRequested ⟨same, congrArg List.length four⟩
        · rfl
      split
      · rename_i id
        have clientId : clientIdOf (code, value) = some value :=
          if_pos ⟨id.1, List.ne_nil_of_length_pos id.2⟩
        exact ⟨_, rfl, by rw [kind]; rfl, by rw [requestedIp]; rfl, by rw [clientId]; rfl⟩
      · rename_i notId
        have clientId : clientIdOf (code, value) = none :=
          if_neg (fun id => notId ⟨id.1, List.length_pos_iff.mpr id.2⟩)
        exact ⟨_, rfl, by rw [kind]; rfl, by rw [requestedIp]; rfl, by rw [clientId]; rfl⟩

theorem heard_notes {s noted : Scan} {item : Item} (notes : s.Notes item noted) (xid : UInt32)
    (mac : Mac) (items : List Item) (i : Nat) :
    Scan.heard xid mac { noted with i := i } items = s.heard xid mac (item :: items) := by
  unfold Scan.heard
  rw [lastOf_cons, lastOf_cons, lastOf_cons, Option.or_assoc, Option.or_assoc, Option.or_assoc,
    ← notes.kind, ← notes.requestedIp, ← notes.clientId]

def Scan.ahead (buf : List UInt8) (xid : UInt32) (mac : Mac) (s : Scan) : Option Request :=
  (walk 0 optEnd (buf.drop s.i)).map (fun walked => s.heard xid mac walked.1)

/-- Each turn goes on to the rest of the options, or returns what was heard. -/
theorem turn_ahead (buf : List UInt8) (xid : UInt32) (mac : Mac) (s : Scan) :
    s.turn buf xid mac = some (.inr (s.ahead buf xid mac)) ∨
      ∃ next, s.turn buf xid mac = some (.inl next) ∧
        buf.length - next.i < buf.length - s.i ∧
          next.ahead buf xid mac = s.ahead buf xid mac := by
  unfold Scan.turn
  by_cases more : s.i + 2 ≤ buf.length
  · have here : buf.drop s.i =
        buf.getD s.i 0 :: buf.getD (s.i + 1) 0 :: buf.drop (s.i + 2) := by
      rw [List.drop_eq_getElem_cons (by omega), List.drop_eq_getElem_cons (by omega),
        List.getD_eq_getElem _ _ (by omega), List.getD_eq_getElem _ _ (by omega)]
    rw [if_pos more, fetch_eq 0 (by omega), fetch_eq 0 (by omega), Option.bind_eq_bind,
      Option.bind_some]
    generalize buf.getD s.i 0 = code at here ⊢
    generalize buf.getD (s.i + 1) 0 = size at here ⊢
    by_cases stop : code = optEnd
    · left
      rw [if_pos stop, Scan.ahead, here, stop, walk_stop]
      rfl
    · rw [if_neg stop]
      by_cases pad : code = 0
      · right
        rw [if_pos pad]
        refine ⟨_, rfl, by dsimp only; omega, ?_⟩
        have behind : buf.drop (s.i + 1) = size :: buf.drop (s.i + 2) := by
          rw [← List.tail_drop, here]
          rfl
        rw [Scan.ahead, Scan.ahead, here, walk, if_neg stop, if_pos pad, behind]
        rfl
      · rw [if_neg pad, Option.bind_some, getRange_eq]
        by_cases inside : size.toNat ≤ (buf.drop (s.i + 2)).length
        · right
          obtain ⟨noted, taken, notes⟩ :=
            note_notes s code ((buf.drop (s.i + 2)).take size.toNat)
          rw [List.length_take, Nat.min_eq_left inside] at taken
          rw [if_pos ⟨inside, more⟩]
          dsimp only
          rw [taken]
          refine ⟨_, rfl, by dsimp only; omega, ?_⟩
          rw [Scan.ahead, Scan.ahead, here, walk, if_neg stop, if_neg pad, if_pos inside,
            Option.map_map, List.drop_drop]
          exact congrArg (Option.map · _) (funext (fun walked =>
            heard_notes notes xid mac walked.1 _))
        · left
          rw [if_neg (fun both => inside both.1), Scan.ahead, here, walk, if_neg stop, if_neg pad,
            if_neg inside]
          rfl
  · left
    rw [if_neg more, Scan.ahead]
    have few : (buf.drop s.i).length < 2 := by
      rw [List.length_drop]
      omega
    cases behind : buf.drop s.i with
    | nil =>
        rw [walk]
        rfl
    | cons code rest =>
        obtain rfl : rest = [] := by
          rw [behind, List.length_cons] at few
          exact List.length_eq_zero_iff.mp (by omega)
        rw [walk]
        rfl

/-- What is read of a request: of its options up to the end tag, those that count. -/
structure Received (buf : List UInt8) (options : List Item) (r : Request) : Prop where
  walked : ∃ rest, walk 0 optEnd (buf.drop offOptions) = some (options, rest)
  xid : (leBytes 4 r.xid.toNat).reverse = (buf.drop 4).take 4
  mac : r.mac.1 = (buf.drop offChaddr).take 6
  kind : r.kind = (lastOf kindOf options).getD .other
  requestedIp : r.requestedIp = lastOf requestedIpOf options
  clientId : r.clientId = lastOf clientIdOf options

theorem readLe_cons (byte : UInt8) (bytes : List UInt8) :
    readLe (byte :: bytes) = byte.toNat + 256 * readLe bytes := Nat.ofDigits_cons

theorem leBytes_readLe (bytes : List UInt8) : leBytes bytes.length (readLe bytes) = bytes := by
  induction bytes with
  | nil => rfl
  | cons byte bytes ih =>
      have small := byte.toNat_lt
      rw [readLe_cons, List.length_cons, leBytes, Nat.add_mul_mod_self_left,
        Nat.add_mul_div_left _ _ (by decide), Nat.mod_eq_of_lt small, Nat.div_eq_of_lt small,
        Nat.zero_add, ih, UInt8.ofNat_toNat]

theorem word_bytes (a b c d : UInt8) :
    (leBytes 4 (UInt32.ofNat (readBe [a, b, c, d])).toNat).reverse = [a, b, c, d] := by
  have small : readLe [d, c, b, a] < 2 ^ 32 := by
    have := a.toNat_lt
    have := b.toNat_lt
    have := c.toNat_lt
    have := d.toNat_lt
    rw [readLe_cons, readLe_cons, readLe_cons, readLe_cons, show readLe [] = 0 from rfl]
    omega
  have word : (UInt32.ofNat (readBe [a, b, c, d])).toNat = readLe [d, c, b, a] := by
    rw [UInt32.toNat_ofNat']
    exact Nat.mod_eq_of_lt small
  rw [word]
  exact congrArg List.reverse (leBytes_readLe [d, c, b, a])

theorem readHeader_eq {buf : List UInt8} (long : offOptions ≤ buf.length) :
    ∃ xid mac, readHeader buf = some (xid, mac) ∧
      (leBytes 4 xid.toNat).reverse = (buf.drop 4).take 4 ∧
        mac.1 = (buf.drop offChaddr).take 6 := by
  unfold offOptions at long
  have six : ((buf.drop 28).take 6).length = 6 := by
    rw [List.length_take, List.length_drop]
    omega
  have four : (buf.drop 4).take 4 =
      [buf.getD 4 0, buf.getD 5 0, buf.getD 6 0, buf.getD 7 0] := by
    rw [show 4 = 2 + 2 from rfl, List.take_add, List.drop_drop, take_two 0 (by omega),
      take_two 0 (by omega)]
    rfl
  refine ⟨UInt32.ofNat (readBe [buf.getD 4 0, buf.getD 5 0, buf.getD 6 0, buf.getD 7 0]),
    ⟨(buf.drop 28).take 6, six⟩, ?_, ?_, rfl⟩
  · unfold readHeader offChaddr
    rw [fetch_eq 0 (by omega), fetch_eq 0 (by omega), fetch_eq 0 (by omega),
      fetch_eq 0 (by omega), between_eq (by omega) (by omega)]
    change (Mac.of ((buf.drop 28).take 6)).bind _ = _
    rw [Mac.of, dif_pos six]
    rfl
  · rw [word_bytes, four]

theorem parse_received (buf : List UInt8) :
    ∃ result, parse buf = some result ∧
      ∀ request, result = some request → ∃ options, Received buf options request := by
  unfold parse
  by_cases short : buf.length < offOptions
  · exact ⟨none, if_pos short, fun _ read => nomatch read⟩
  · have long : offOptions ≤ buf.length := Nat.le_of_not_lt short
    have size : 240 ≤ buf.length := long
    rw [if_neg short, fetch_eq 0 (by omega), Option.bind_eq_bind, Option.bind_some]
    split
    · exact ⟨none, rfl, fun _ read => nomatch read⟩
    · rw [between_eq (by decide) long, Option.bind_eq_bind, Option.bind_some]
      split
      · exact ⟨none, rfl, fun _ read => nomatch read⟩
      · obtain ⟨xid, mac, header, word, chaddr⟩ := readHeader_eq long
        rw [header, Option.bind_eq_bind, Option.bind_some]
        refine ⟨_, loop_eq (Scan.turn buf xid mac) (fun s => buf.length - s.i)
          (Scan.ahead buf xid mac) (turn_ahead buf xid mac) _ _ (by dsimp only; omega), ?_⟩
        intro request read
        obtain ⟨⟨options, rest⟩, walked, rfl⟩ := Option.map_eq_some_iff.mp read
        refine ⟨options, ⟨rest, walked⟩, word, chaddr, ?_, ?_, ?_⟩
        · change ((lastOf kindOf options).or (some Kind.other)).getD .other = _
          cases lastOf kindOf options <;> rfl
        · exact Option.or_none
        · exact Option.or_none

end Parsing

section Replying

structure Header (r : Request) (lease : Lease) (type : UInt8) (p : List UInt8) : Prop where
  length : p.length = offOptions
  op : (p.drop 0).take 1 = [2]
  xid : (p.drop 4).take 4 = (leBytes 4 r.xid.toNat).reverse
  yiaddr : (p.drop offYiaddr).take 4 = if type = 6 then [0, 0, 0, 0] else lease.client.octets
  mac : (p.drop offChaddr).take 6 = r.mac.1
  cookie : (p.drop offMagic).take 4 = magic

theorem writeYiaddr_eq (p : List UInt8) (type : UInt8) (lease : Lease) (long : 20 ≤ p.length)
    (zero : (p.drop 16).take 4 = [0, 0, 0, 0]) :
    ∃ q, writeYiaddr p type lease = some q ∧
      Patched p q 16 20 (if type = 6 then [0, 0, 0, 0] else lease.client.octets) := by
  unfold writeYiaddr
  by_cases nak : type = 6
  · rw [if_neg (not_not_intro nak), if_pos nak]
    exact ⟨p, rfl, rfl, zero, fun _ _ _ => rfl⟩
  · rw [if_pos nak, if_neg nak]
    exact copyInto_patched (by decide) long rfl

theorem writeHeader_header (r : Request) (lease : Lease) (type : UInt8) :
    ∃ p, writeHeader r lease type = some p ∧ Header r lease type p := by
  have blank : (List.replicate 240 (0 : UInt8)).length = 240 := List.length_replicate
  obtain ⟨p₁, w₁, op⟩ := store_patched
    (show 0 < (List.replicate 240 (0 : UInt8)).length by omega) (2 : UInt8)
  have l₁ := op.length.trans blank
  obtain ⟨p₂, w₂, ethernet⟩ := store_patched (show 1 < p₁.length by omega) (1 : UInt8)
  have l₂ := ethernet.length.trans l₁
  obtain ⟨p₃, w₃, width⟩ := store_patched (show 2 < p₂.length by omega) (6 : UInt8)
  have l₃ := width.length.trans l₂
  obtain ⟨p₄, w₄, xid⟩ := copyInto_patched (show 4 ≤ 8 by decide) (show 8 ≤ p₃.length by omega)
    (show (leBytes 4 r.xid.toNat).reverse.length = 8 - 4 from rfl)
  have l₄ := xid.length.trans l₃
  have zero : (p₄.drop 16).take 4 = [0, 0, 0, 0] := by
    rw [xid.outside 16 4 (by decide), width.outside 16 4 (by decide),
      ethernet.outside 16 4 (by decide), op.outside 16 4 (by decide), List.drop_replicate,
      List.take_replicate]
    rfl
  obtain ⟨p₅, w₅, yiaddr⟩ := writeYiaddr_eq p₄ type lease (by omega) zero
  have l₅ := yiaddr.length.trans l₄
  obtain ⟨p₆, w₆, siaddr⟩ := copyInto_patched (show 20 ≤ 24 by decide)
    (show 24 ≤ p₅.length by omega) (show lease.server.octets.length = 24 - 20 from rfl)
  have l₆ := siaddr.length.trans l₅
  obtain ⟨p₇, w₇, mac⟩ := copyInto_patched (show 28 ≤ 34 by decide)
    (show 34 ≤ p₆.length by omega) (show r.mac.1.length = 34 - 28 from r.mac.2)
  have l₇ := mac.length.trans l₆
  obtain ⟨p₈, w₈, cookie⟩ := copyInto_patched (show 236 ≤ 240 by decide)
    (show 240 ≤ p₇.length by omega) (show magic.length = 240 - 236 from rfl)
  have l₈ := cookie.length.trans l₇
  refine ⟨p₈, ?_, l₈, ?_, ?_, ?_, ?_, cookie.inside⟩
  · unfold writeHeader offOptions offSiaddr offChaddr offMagic
    simp only [w₁, w₂, w₃, w₄, w₅, w₆, w₇, w₈, Option.bind_eq_bind, Option.bind_some]
  · rw [cookie.outside 0 1 (by decide), mac.outside 0 1 (by decide), siaddr.outside 0 1 (by decide),
      yiaddr.outside 0 1 (by decide), xid.outside 0 1 (by decide), width.outside 0 1 (by decide),
      ethernet.outside 0 1 (by decide)]
    exact op.inside
  · rw [cookie.outside 4 4 (by decide), mac.outside 4 4 (by decide), siaddr.outside 4 4 (by decide),
      yiaddr.outside 4 4 (by decide)]
    exact xid.inside
  · unfold offYiaddr
    rw [cookie.outside 16 4 (by decide), mac.outside 16 4 (by decide),
      siaddr.outside 16 4 (by decide)]
    exact yiaddr.inside
  · unfold offChaddr
    rw [cookie.outside 28 6 (by decide)]
    exact mac.inside

def options (r : Request) (lease : Lease) (type : UInt8) : List Item :=
  [(optMessageType, [type]), (optServerId, lease.server.octets)] ++
    (r.clientId.map (fun id => (optClientId, id))).toList ++
      if type = 6 then []
      else [(optSubnet, lease.netmask.octets), (optRouter, lease.server.octets),
        (optLeaseTime, (leBytes 4 lease.leaseSecs.toNat).reverse)]

theorem pushOptions_eq (p : List UInt8) (r : Request) (lease : Lease) (type : UInt8) :
    pushOptions p r lease type = p ++ ((options r lease type).flatMap encode ++ [optEnd]) := by
  unfold pushOptions options pushOption
  cases r.clientId <;> by_cases nak : type = 6 <;> simp [nak, encode]

theorem padded_eq (p : List UInt8) : padded p = p ++ List.replicate (minMessage - p.length) 0 := by
  unfold padded
  split
  · rfl
  · rw [Nat.sub_eq_zero_of_le (by omega), List.replicate_zero, List.append_nil]

def ofCode (code : UInt8) (sent : List Item) : List Item := sent.filter (fun item => item.1 = code)

/-- What the type of a reply is to be: an offer, an acknowledgement or a refusal. -/
structure Answers (received : List Item) (lease : Lease) (type : UInt8) : Prop where
  discover : lastOf kindOf received = some .discover → type = 2
  granted : lastOf kindOf received = some .request →
    (∀ ip, lastOf requestedIpOf received = some ip → ip = lease.client) → type = 5
  refused : lastOf kindOf received = some .request →
    (∃ ip, lastOf requestedIpOf received = some ip ∧ ip ≠ lease.client) → type = 6

/-- A well-formed reply of a type, to what was received. -/
structure WellFormed (buf : List UInt8) (received : List Item) (lease : Lease) (type : UInt8)
    (bytes : List UInt8) (sent : List Item) : Prop where
  long : 300 ≤ bytes.length
  op : (bytes.drop 0).take 1 = [2]
  xid : (bytes.drop 4).take 4 = (buf.drop 4).take 4
  mac : (bytes.drop offChaddr).take 6 = (buf.drop offChaddr).take 6
  cookie : (bytes.drop offMagic).take 4 = magic
  walked : ∃ pad, walk 0 optEnd (bytes.drop offOptions) = some (sent, optEnd :: pad)
  messageType : ofCode optMessageType sent = [(optMessageType, [type])]
  clientId : ofCode optClientId sent =
    ((lastOf clientIdOf received).map (fun id => (optClientId, id))).toList
  leased : type ≠ 6 → (bytes.drop offYiaddr).take 4 = lease.client.octets ∧
    ofCode optSubnet sent = [(optSubnet, lease.netmask.octets)] ∧
    ofCode optRouter sent = [(optRouter, lease.server.octets)] ∧
    ofCode optLeaseTime sent = [(optLeaseTime, (leBytes 4 lease.leaseSecs.toNat).reverse)]
  refused : type = 6 → (bytes.drop offYiaddr).take 4 = [0, 0, 0, 0] ∧
    ofCode optSubnet sent = [] ∧ ofCode optRouter sent = [] ∧ ofCode optLeaseTime sent = []

theorem plain_of {code : UInt8} {value : List UInt8} (known : code ≠ 0 ∧ code ≠ optEnd)
    (short : value.length ≤ 255) : Plain 0 optEnd (code, value) := ⟨known.1, known.2, short⟩

theorem options_plain {buf : List UInt8} {received : List Item} {r : Request}
    (heard : Received buf received r) (lease : Lease) (type : UInt8) :
    ∀ item ∈ options r lease type, Plain 0 optEnd item := by
  have short : ∀ id, r.clientId = some id → id.length ≤ 255 := by
    intro id echoed
    rw [heard.clientId] at echoed
    obtain ⟨item, member, said⟩ := lastOf_mem clientIdOf echoed
    obtain ⟨rest, walked⟩ := heard.walked
    have short := walk_short _ walked item member
    unfold clientIdOf at said
    split at said
    · cases said
      exact short
    · exact nomatch said
  have octets : 4 ≤ 255 := by decide
  intro item member
  rcases List.mem_append.mp member with front | granted
  · rcases List.mem_append.mp front with always | echoed
    · rcases List.mem_cons.mp always with rfl | server
      · exact plain_of (by decide) (show 1 ≤ 255 by decide)
      · rw [List.mem_singleton.mp server]
        exact plain_of (by decide) octets
    · obtain ⟨id, same, rfl⟩ := Option.map_eq_some_iff.mp (Option.mem_toList.mp echoed)
      exact plain_of (by decide) (short id same)
  · by_cases nak : type = 6
    · rw [if_pos nak] at granted
      exact absurd granted List.not_mem_nil
    · rw [if_neg nak] at granted
      rcases List.mem_cons.mp granted with rfl | granted
      · exact plain_of (by decide) octets
      · rcases List.mem_cons.mp granted with rfl | granted
        · exact plain_of (by decide) octets
        · rw [List.mem_singleton.mp granted]
          exact plain_of (by decide) octets

theorem messageType_answers {buf : List UInt8} {received : List Item} {r : Request}
    (heard : Received buf received r) {lease : Lease} {type : UInt8}
    (typed : messageType r lease = some type) : Answers received lease type := by
  have kind := heard.kind
  unfold messageType at typed
  rw [heard.requestedIp] at typed
  refine ⟨?_, ?_, ?_⟩
  · intro discover
    rw [discover] at kind
    rw [kind] at typed
    exact (Option.some.inj typed).symm
  · intro request granted
    rw [request] at kind
    rw [kind] at typed
    dsimp only [Option.getD_some] at typed
    split at typed
    · exact (Option.some.inj typed).symm
    · rename_i ip asked
      rw [if_pos (granted ip asked)] at typed
      exact (Option.some.inj typed).symm
  · rintro request ⟨ip, asked, other⟩
    rw [request] at kind
    rw [kind, asked] at typed
    dsimp only [Option.getD_some] at typed
    rw [if_neg other] at typed
    exact (Option.some.inj typed).symm

theorem messageType_none {buf : List UInt8} {received : List Item} {r : Request}
    (heard : Received buf received r) (lease : Lease) :
    (lastOf kindOf received).getD .other = .other ↔ messageType r lease = none := by
  rw [← heard.kind]
  unfold messageType
  cases r.kind with
  | discover => simp
  | request =>
      cases r.requestedIp with
      | none => simp
      | some ip => by_cases granted : ip = lease.client <;> simp [granted]
  | other => simp

theorem options_codes (r : Request) (lease : Lease) (type : UInt8) :
    ofCode optMessageType (options r lease type) = [(optMessageType, [type])] ∧
      ofCode optClientId (options r lease type) =
        (r.clientId.map (fun id => (optClientId, id))).toList ∧
      (type ≠ 6 → ofCode optSubnet (options r lease type) = [(optSubnet, lease.netmask.octets)] ∧
        ofCode optRouter (options r lease type) = [(optRouter, lease.server.octets)] ∧
        ofCode optLeaseTime (options r lease type) =
          [(optLeaseTime, (leBytes 4 lease.leaseSecs.toNat).reverse)]) ∧
      (type = 6 → ofCode optSubnet (options r lease type) = [] ∧
        ofCode optRouter (options r lease type) = [] ∧
        ofCode optLeaseTime (options r lease type) = []) := by
  unfold options
  cases r.clientId with
  | none =>
      by_cases nak : type = 6
      · rw [if_pos nak]
        exact ⟨rfl, rfl, absurd nak, fun _ => ⟨rfl, rfl, rfl⟩⟩
      · rw [if_neg nak]
        exact ⟨rfl, rfl, fun _ => ⟨rfl, rfl, rfl⟩, fun same => absurd same nak⟩
  | some id =>
      by_cases nak : type = 6
      · rw [if_pos nak]
        exact ⟨rfl, rfl, absurd nak, fun _ => ⟨rfl, rfl, rfl⟩⟩
      · rw [if_neg nak]
        exact ⟨rfl, rfl, fun _ => ⟨rfl, rfl, rfl⟩, fun same => absurd same nak⟩

/-- A reply is written without a panic, and is well formed. -/
theorem reply_typed {buf : List UInt8} {received : List Item} {r : Request}
    (heard : Received buf received r) {lease : Lease} {type : UInt8}
    (typed : messageType r lease = some type) :
    ∃ bytes, reply r lease = some (some bytes) ∧
      WellFormed buf received lease type bytes (options r lease type) := by
  obtain ⟨p, written, header⟩ := writeHeader_header r lease type
  have length : p.length = 240 := header.length
  have whole := padded_eq (pushOptions p r lease type)
  generalize minMessage - (pushOptions p r lease type).length = few at whole
  rw [pushOptions_eq, List.append_assoc, List.append_assoc, ← pushOptions_eq] at whole
  have read := walk_encode _ (options_plain heard lease type) (List.replicate few 0)
  generalize tail : (options r lease type).flatMap encode ++
    ([optEnd] ++ List.replicate few 0) = rest at whole
  have window : ∀ i n, i + n ≤ 240 → ((p ++ rest).drop i).take n = (p.drop i).take n := by
    intro i n inside
    rw [List.drop_append_of_le_length (by omega), List.take_append_of_le_length
      (by rw [List.length_drop]; omega)]
  refine ⟨p ++ rest, ?_, ?_⟩
  · unfold reply
    rw [typed, ← whole]
    dsimp only
    rw [written]
    rfl
  · have fields := options_codes r lease type
    refine ⟨?_, ?_, ?_, ?_, ?_, ⟨List.replicate few 0, ?_⟩, fields.1, ?_, ?_, ?_⟩
    · rw [← whole, padded_eq, List.length_append, List.length_replicate]
      unfold minMessage
      omega
    · rw [window 0 1 (by decide)]
      exact header.op
    · rw [window 4 4 (by decide), header.xid]
      exact heard.xid
    · rw [window offChaddr 6 (by decide), header.mac]
      exact heard.mac
    · rw [window offMagic 4 (by decide)]
      exact header.cookie
    · rw [← header.length, List.drop_left, ← tail]
      exact read
    · rw [fields.2.1, heard.clientId]
    · intro leased
      rw [window offYiaddr 4 (by decide), header.yiaddr, if_neg leased]
      exact ⟨rfl, fields.2.2.1 leased⟩
    · intro refused
      rw [window offYiaddr 4 (by decide), header.yiaddr, if_pos refused]
      exact ⟨rfl, fields.2.2.2 refused⟩

theorem reply_wellFormed (buf : List UInt8) (lease : Lease) :
    ∃ result, parse buf = some result ∧ ∀ request, result = some request →
      ∃ received rest answer, walk 0 optEnd (buf.drop offOptions) = some (received, rest) ∧
        reply request lease = some answer ∧
        ((lastOf kindOf received).getD .other = .other ↔ answer = none) ∧
        ∀ bytes, answer = some bytes → ∃ type sent,
          Answers received lease type ∧ WellFormed buf received lease type bytes sent := by
  obtain ⟨result, parsed, reads⟩ := parse_received buf
  refine ⟨result, parsed, fun request read => ?_⟩
  obtain ⟨received, heard⟩ := reads request read
  obtain ⟨rest, walked⟩ := heard.walked
  have silent := messageType_none heard lease
  cases typed : messageType request lease with
  | none =>
      refine ⟨received, rest, none, walked, ?_, silent.trans (by simp [typed]), fun _ => nofun⟩
      rw [reply, typed]
  | some type =>
      obtain ⟨bytes, replied, formed⟩ := reply_typed heard typed
      refine ⟨received, rest, some bytes, walked, replied, silent.trans (by simp [typed]), ?_⟩
      intro sent same
      cases same
      exact ⟨type, _, messageType_answers heard typed, formed⟩

end Replying

end Castr.Miracast.Dhcp
