import Castr.Lib.Halting
import Castr.Miracast.Splicing
import Castr.Miracast.Total

/-! Units whose header declares their length: what of them is handed on. -/

namespace Castr.Miracast

open Castr.Lib
open Castr.Lib.Bytes (readBe)

namespace Ts

/-- The two lengths that a header gives: of all that follows them, and of the rest of itself. -/
structure Header where
  packetLen : Nat
  headerLen : Nat
  deriving DecidableEq, Repr

def headerOf (p : List UInt8) : Header := ⟨readBe ((p.drop 4).take 2), (p.getD 8 0).toNat⟩

/-- The payload that a header declares; 0 is no declaration. -/
def Header.declared (h : Header) : Option Nat :=
  if h.packetLen = 0 then none else some (h.packetLen - (3 + h.headerLen))

/-- A length that is declared has room for the rest of the header. -/
def Header.Honest (h : Header) : Prop := h.packetLen = 0 ∨ 3 + h.headerLen ≤ h.packetLen

def carriedOf (packet : List UInt8) : Option Carried :=
  if packet.length ≠ packetLen ∨ packet.getD 0 0 ≠ sync then none
  else (payloadOf packet).map (fun payload => {
    pid := pidOf (packet.getD 1 0) (packet.getD 2 0)
    start := packet.getD 1 0 &&& 0x40 ≠ 0
    cc := packet.getD 3 0 &&& 0x0f
    payload := payload })

def Demux.listens (d : Demux) (c : Carried) : Option Track :=
  if c.pid = 0 ∨ d.pmtPid = some c.pid then none else d.trackOf c.pid

def AccessUnit.data : AccessUnit → List UInt8
  | .video data _ => data
  | .audio data _ => data

/-- A unit that was handed on, under which header, and whether its last byte did it. -/
structure Emitted where
  header : Header
  data : List UInt8
  complete : Bool
  deriving DecidableEq, Repr

/-- A demultiplexer, and for each stream the header of the unit under way. -/
structure Watch where
  demux : Demux
  header : Track → Header

/-- What is under way once it has taken a payload, before it is asked whether that was all. -/
def Assembly.fed (asm : Assembly) (payload : List UInt8) (start : Bool) : Assembly :=
  if start then (asm.restart payload).1 else if asm.isOpen then asm.append payload else asm

def Assembly.handed (asm : Assembly) (payload : List UInt8) (start : Bool)
    (before opened : Header) : List Emitted :=
  (if start then asm.done else none).toList.map (fun unit => ⟨before, unit.1, false⟩) ++
    (asm.fed payload start).finish.2.toList.map (fun unit => ⟨opened, unit.1, true⟩)

namespace Watch

def new : Watch := ⟨.new, fun _ => ⟨0, 0⟩⟩

def step (w : Watch) (c : Carried) : Watch × List Emitted :=
  match w.demux.listens c with
  | none => ({ w with demux := (w.demux.take c).1 }, [])
  | some track =>
      let asm := (w.demux.countContinuity c.pid c.cc).assembly track
      let opened := if c.start then headerOf c.payload else w.header track
      (⟨(w.demux.take c).1, Function.update w.header track opened⟩,
        asm.handed c.payload c.start (w.header track) opened)

end Watch

section Step

variable {d : Demux} {c : Carried} {asm : Assembly}

theorem carriedOf_carries {packet : List UInt8} (read : carriedOf packet = some c) :
    Carries packet c := by
  unfold carriedOf at read
  split at read
  · cases read
  · rename_i valid
    obtain ⟨whole, synced⟩ := not_or.mp valid
    obtain ⟨payload, found, rfl⟩ := Option.map_eq_some_iff.mp read
    exact ⟨not_not.mp whole, not_not.mp synced, found, rfl, rfl, rfl⟩

theorem push_unread {packet : List UInt8} (unread : carriedOf packet = none) :
    d.push packet = (d, []) := by
  unfold carriedOf at unread
  unfold Demux.push
  split at unread
  · rename_i invalid
    rw [if_pos invalid]
  · rename_i valid
    rw [if_neg valid, Option.map_eq_none_iff.mp unread]

theorem pushAll_carried (d : Demux) (packets : List (List UInt8)) :
    d.pushAll packets = (Run.final Demux.take d (packets.filterMap carriedOf),
      (Run.outputs Demux.take d (packets.filterMap carriedOf)).flatten) := by
  induction packets generalizing d with
  | nil => rfl
  | cons packet packets ih =>
      rw [Demux.pushAll, List.filterMap_cons]
      cases read : carriedOf packet with
      | none =>
          rw [push_unread read, ih]
          rfl
      | some c =>
          rw [push_carries d packet c (carriedOf_carries read), ih]
          rfl

theorem readStreams_assembly (s : List UInt8) (stop fuel i : Nat) (track : Track) :
    (d.readStreams s stop fuel i).assembly track = d.assembly track := by
  induction fuel generalizing d i with
  | zero => rfl
  | succ fuel ih =>
      rw [Demux.readStreams]
      split
      · rw [ih]
        split
        · cases track <;> rfl
        · split
          · cases track <;> rfl
          · rfl
      · rfl

theorem take_unheard (unheard : d.listens c = none) :
    (d.take c).2 = [] ∧ ∀ track, (d.take c).1.assembly track =
      (d.countContinuity c.pid c.cc).assembly track := by
  obtain ⟨pmt, video, audio, _⟩ := countContinuity_same d c.pid c.cc
  have named : (d.countContinuity c.pid c.cc).trackOf c.pid = d.trackOf c.pid := by
    rw [Demux.trackOf, Demux.trackOf, video, audio]
  unfold Demux.take
  dsimp only
  split
  · refine ⟨rfl, fun track => ?_⟩
    unfold Demux.readPat
    split
    · rfl
    · dsimp only
      split
      · cases track <;> rfl
      · rfl
  · rename_i nonzero
    split
    · refine ⟨rfl, fun track => ?_⟩
      unfold Demux.readPmt
      split
      · rfl
      · dsimp only
        split
        · rfl
        · exact readStreams_assembly _ _ _ _ track
    · rename_i apart
      rw [pmt] at apart
      rw [Demux.listens, if_neg (not_or.mpr ⟨nonzero, apart⟩)] at unheard
      rw [named, unheard]
      exact ⟨rfl, fun _ => rfl⟩

theorem take_heard {track : Track} (heard : d.listens c = some track) :
    d.take c =
      ((d.countContinuity c.pid c.cc).setAssembly track
        (((d.countContinuity c.pid c.cc).assembly track).take c.payload c.start).1,
      (((d.countContinuity c.pid c.cc).assembly track).take c.payload c.start).2.map
        (fun unit => track.unit unit.1 unit.2)) := by
  obtain ⟨pmt, video, audio, _⟩ := countContinuity_same d c.pid c.cc
  have named : (d.countContinuity c.pid c.cc).trackOf c.pid = d.trackOf c.pid := by
    rw [Demux.trackOf, Demux.trackOf, video, audio]
  unfold Demux.listens at heard
  split at heard
  · cases heard
  · rename_i other
    obtain ⟨nonzero, apart⟩ := not_or.mp other
    unfold Demux.take
    dsimp only
    rw [if_neg nonzero, pmt, if_neg apart, named, heard]

def Assembly.Bounded (asm : Assembly) (h : Header) : Prop :=
  asm.isOpen = true → asm.expected = h.declared ∧ ∀ want ∈ asm.expected, asm.data.length ≤ want

variable {h : Header} {payload : List UInt8}

theorem bounded_mark (broken : Bool) (bounded : asm.Bounded h) : (asm.mark broken).Bounded h := by
  cases broken with
  | false => exact bounded
  | true => exact bounded

theorem bounded_append (bounded : asm.Bounded h) : (asm.append payload).Bounded h := by
  cases expected : asm.expected with
  | none =>
      have grown : asm.append payload = { asm with data := asm.data ++ payload } := by
        rw [Assembly.append, expected]
      rw [grown]
      intro isOpen
      refine ⟨(bounded isOpen).1, ?_⟩
      intro want is
      cases expected.symm.trans is
  | some want =>
      have grown : asm.append payload =
          { asm with data := asm.data ++ payload.take (want - asm.data.length) } := by
        rw [Assembly.append, expected]
      rw [grown]
      intro isOpen
      obtain ⟨same, within⟩ := bounded isOpen
      refine ⟨same, ?_⟩
      intro other is
      obtain rfl : want = other := Option.some.inj (expected.symm.trans is)
      have short := within want expected
      rw [List.length_append, List.length_take]
      omega

theorem parsePes_declared {pes : Pes} (parsed : parsePes payload = some pes)
    (honest : (headerOf payload).Honest) : pes.payloadLen = (headerOf payload).declared := by
  unfold parsePes at parsed
  split at parsed
  · cases parsed
  · dsimp only at parsed
    split at parsed
    · cases parsed
    · cases parsed
      change (if 3 + (headerOf payload).headerLen ≤ (headerOf payload).packetLen then
        some ((headerOf payload).packetLen - (3 + (headerOf payload).headerLen)) else none) = _
      unfold Header.declared
      rcases honest with none | room
      · rw [if_pos none, if_neg (by omega)]
      · rw [if_pos room, if_neg (by omega)]

theorem bounded_restart (honest : ∀ pes, parsePes payload = some pes → (headerOf payload).Honest) :
    (asm.restart payload).1.Bounded (headerOf payload) := by
  unfold Assembly.restart
  cases parsed : parsePes payload with
  | none => exact nofun
  | some pes =>
      refine bounded_append (fun _ => ⟨parsePes_declared parsed (honest pes parsed), ?_⟩)
      simp

theorem finish_bounded (bounded : asm.Bounded h) : asm.finish.1.Bounded h := by
  unfold Assembly.finish
  split
  · exact nofun
  · exact bounded

theorem finish_exact {unit : List UInt8 × Option Nat} (bounded : asm.Bounded h)
    (finished : asm.finish.2 = some unit) : ∀ want ∈ h.declared, unit.1.length = want := by
  unfold Assembly.finish at finished
  split at finished
  · rename_i whole
    cases finished
    intro want declared
    obtain ⟨same, within⟩ := bounded whole.1
    have expected : asm.expected = some want := same.trans declared
    have most := within want expected
    have least := whole.2.1
    rw [Assembly.complete, expected, Option.any_some, decide_eq_true_eq] at least
    exact Nat.le_antisymm most least
  · cases finished

theorem take_fed (asm : Assembly) (payload : List UInt8) (start : Bool) :
    asm.take payload start = ((asm.fed payload start).finish.1,
      (if start then asm.done else none).toList ++ (asm.fed payload start).finish.2.toList) := by
  unfold Assembly.take Assembly.fed
  cases start <;> rfl

theorem handed_data (asm : Assembly) (payload : List UInt8) (start : Bool)
    (before opened : Header) : (asm.handed payload start before opened).map Emitted.data =
      (asm.take payload start).2.map Prod.fst := by
  rw [take_fed, Assembly.handed, List.map_append, List.map_append, List.map_map, List.map_map]
  rfl

theorem bounded_fed {start : Bool} (bounded : asm.Bounded h)
    (honest : start = true → ∀ pes, parsePes payload = some pes → (headerOf payload).Honest) :
    (asm.fed payload start).Bounded (if start then headerOf payload else h) := by
  unfold Assembly.fed
  cases start with
  | true => exact bounded_restart (honest rfl)
  | false =>
      simp only [Bool.false_eq_true, if_false]
      split
      · exact bounded_append bounded
      · exact bounded

theorem expected_mark (asm : Assembly) (broken : Bool) :
    (asm.mark broken).expected = asm.expected := by
  cases broken <;> rfl

theorem done_declared {unit : List UInt8 × Option Nat} {want : Nat} (bounded : asm.Bounded h)
    (found : asm.done = some unit) (declared : want ∈ h.declared) : asm.expected = some want := by
  unfold Assembly.done at found
  split at found
  · rename_i whole
    exact (bounded whole.1).1.trans declared
  · cases found

theorem done_bounded {unit : List UInt8 × Option Nat} (bounded : asm.Bounded h)
    (found : asm.done = some unit) : ∀ want ∈ h.declared, unit.1.length ≤ want := by
  unfold Assembly.done at found
  split at found
  · rename_i whole
    cases found
    intro want declared
    obtain ⟨same, within⟩ := bounded whole.1
    exact within want (same.trans declared)
  · cases found

end Step

/-- What a start says of its own length is no lie. -/
def Demux.Honest (d : Demux) (c : Carried) : Prop :=
  d.listens c ≠ none → c.start = true → ∀ pes, parsePes c.payload = some pes →
    (headerOf c.payload).Honest

/-- No start comes while a unit of a declared length is short of it. -/
def Demux.Patient (d : Demux) (c : Carried) : Prop :=
  ∀ track, d.listens c = some track → c.start = true →
    ((d.countContinuity c.pid c.cc).assembly track).done ≠ none →
      (d.assembly track).expected = none

/-- What is said of a unit that was handed on. -/
def Emitted.Within (e : Emitted) : Prop :=
  ∀ want ∈ e.header.declared, e.data.length ≤ want ∧ (e.complete = true → e.data.length = want)

def Emitted.Exact (e : Emitted) : Prop := ∀ want ∈ e.header.declared, e.data.length = want

namespace Watch

def Bounded (w : Watch) : Prop := ∀ track, (w.demux.assembly track).Bounded (w.header track)

variable {w : Watch} {c : Carried}

theorem bounded_new : Bounded new := by
  intro track
  cases track <;> exact nofun

theorem bounded_counted (bounded : w.Bounded) (pid : UInt16) (cc : UInt8) (track : Track) :
    ((w.demux.countContinuity pid cc).assembly track).Bounded (w.header track) := by
  rw [countContinuity_assembly]
  exact bounded_mark _ (bounded track)

theorem step_unheard (unheard : w.demux.listens c = none) :
    w.step c = ({ w with demux := (w.demux.take c).1 }, []) := by
  rw [step, unheard]

theorem step_heard {track : Track} (heard : w.demux.listens c = some track) :
    w.step c = (⟨(w.demux.take c).1, Function.update w.header track
        (if c.start then headerOf c.payload else w.header track)⟩,
      ((w.demux.countContinuity c.pid c.cc).assembly track).handed c.payload c.start
        (w.header track) (if c.start then headerOf c.payload else w.header track)) := by
  rw [step, heard]

/-- One packet: under honest headers nothing goes out that is longer than declared, and with
patience nothing that is shorter. -/
theorem step_bounded (bounded : w.Bounded) (honest : w.demux.Honest c) :
    (w.step c).1.Bounded ∧ (∀ e ∈ (w.step c).2, e.Within) ∧
      (w.demux.Patient c → ∀ e ∈ (w.step c).2, e.Exact) := by
  cases heard : w.demux.listens c with
  | none =>
      rw [step_unheard heard]
      refine ⟨fun track => ?_, nofun, fun _ => nofun⟩
      dsimp only
      rw [(take_unheard heard).2 track]
      exact bounded_counted bounded c.pid c.cc track
  | some track =>
      have counted := bounded_counted bounded c.pid c.cc track
      have fed := bounded_fed counted (honest (by rw [heard]; nofun))
      rw [step_heard heard]
      refine ⟨?_, ?_, ?_⟩
      · intro other
        dsimp only
        rw [take_heard heard, take_fed]
        by_cases same : other = track
        · subst same
          rw [assembly_setAssembly, Function.update_self]
          exact finish_bounded fed
        · rw [assembly_other _ _ _ _ same, Function.update_of_ne same]
          exact bounded_counted bounded c.pid c.cc other
      · intro e inside want declared
        rcases List.mem_append.mp inside with flushed | finished
        · obtain ⟨unit, found, rfl⟩ := List.mem_map.mp flushed
          split at found
          · have done := Option.mem_toList.mp found
            exact ⟨done_bounded counted done want declared, nofun⟩
          · cases found
        · obtain ⟨unit, found, rfl⟩ := List.mem_map.mp finished
          have all := finish_exact fed (Option.mem_toList.mp found) want declared
          exact ⟨Nat.le_of_eq all, fun _ => all⟩
      · intro patient e inside want declared
        rcases List.mem_append.mp inside with flushed | finished
        · obtain ⟨unit, found, rfl⟩ := List.mem_map.mp flushed
          split at found
          · rename_i start
            have done : _ = some unit := Option.mem_toList.mp found
            have free := patient track heard start (by rw [done]; nofun)
            exact absurd (done_declared counted done declared) (by
              rw [countContinuity_assembly, expected_mark, free]
              nofun)
          · cases found
        · obtain ⟨unit, found, rfl⟩ := List.mem_map.mp finished
          exact finish_exact fed (Option.mem_toList.mp found) want declared

/-- Every packet of a run finds `Holds` where the packets before it led to. -/
def Along (Holds : Demux → Carried → Prop) (w : Watch) (carried : List Carried) : Prop :=
  ∀ front c back, carried = front ++ c :: back → Holds (Run.final step w front).demux c

theorem along_cons {Holds : Demux → Carried → Prop} {carried : List Carried}
    (along : Along Holds w (c :: carried)) :
    Holds w.demux c ∧ Along Holds (w.step c).1 carried := by
  refine ⟨along [] c carried rfl, ?_⟩
  intro front next back split
  exact along (c :: front) next back (by rw [split]; rfl)

theorem run_bounded (carried : List Carried) (bounded : w.Bounded)
    (honest : Along Demux.Honest w carried) :
    (∀ e ∈ (Run.outputs step w carried).flatten, e.Within) ∧
      (Along Demux.Patient w carried → ∀ e ∈ (Run.outputs step w carried).flatten, e.Exact) := by
  induction carried generalizing w with
  | nil => exact ⟨nofun, fun _ => nofun⟩
  | cons c carried ih =>
      obtain ⟨here, later⟩ := along_cons honest
      obtain ⟨kept, within, all⟩ := step_bounded bounded here
      obtain ⟨rest, restAll⟩ := ih kept later
      rw [Run.outputs_cons, List.flatten_cons]
      constructor
      · intro e inside
        rcases List.mem_append.mp inside with first | behind
        · exact within e first
        · exact rest e behind
      · intro patient e inside
        obtain ⟨now, then_⟩ := along_cons patient
        rcases List.mem_append.mp inside with first | behind
        · exact all now e first
        · exact restAll then_ e behind

theorem step_data (w : Watch) (c : Carried) :
    (w.step c).1.demux = (w.demux.take c).1 ∧
      (w.step c).2.map Emitted.data = (w.demux.take c).2.map AccessUnit.data := by
  cases heard : w.demux.listens c with
  | none =>
      rw [step_unheard heard, (take_unheard heard).1]
      exact ⟨rfl, rfl⟩
  | some track =>
      rw [step_heard heard, take_heard heard]
      refine ⟨rfl, ?_⟩
      dsimp only
      rw [handed_data, List.map_map]
      refine List.map_congr_left (fun unit _ => ?_)
      cases track <;> rfl

theorem run_data (carried : List Carried) (w : Watch) :
    (Run.outputs step w carried).flatten.map Emitted.data =
      (Run.outputs Demux.take w.demux carried).flatten.map AccessUnit.data := by
  induction carried generalizing w with
  | nil => rfl
  | cons c carried ih =>
      obtain ⟨same, data⟩ := step_data w c
      rw [Run.outputs_cons, Run.outputs_cons, List.flatten_cons, List.flatten_cons,
        List.map_append, List.map_append, ih, data, same]

end Watch

end Ts

namespace MediaPath

open Ts

/-- What the packets carry that datagrams bring to the demultiplexer. -/
def carried (m : MediaPath) : List (List UInt8) → List Carried
  | [] => []
  | datagram :: datagrams =>
      (m.released datagram).filterMap carriedOf ++ (m.receive datagram).1.carried datagrams

theorem receive_released (m : MediaPath) (datagram : List UInt8) :
    (m.receive datagram).1.demux = (m.demux.pushAll (m.released datagram)).1 ∧
      (m.receive datagram).2 = (m.demux.pushAll (m.released datagram)).2 := by
  unfold receive released
  cases Rtp.parse datagram with
  | none => exact ⟨rfl, rfl⟩
  | some packet =>
      dsimp only
      split <;> exact ⟨rfl, rfl⟩

theorem run_carried (datagrams : List (List UInt8)) (m : MediaPath) :
    (Run.outputs receive m datagrams).flatten =
      (Run.outputs Demux.take m.demux (m.carried datagrams)).flatten := by
  induction datagrams generalizing m with
  | nil => rfl
  | cons datagram datagrams ih =>
      obtain ⟨next, units⟩ := receive_released m datagram
      rw [pushAll_carried] at next units
      rw [Run.outputs_cons, List.flatten_cons, ih, carried, Run.outputs_append,
        List.flatten_append, next, units]

theorem run_checked (datagrams : List (List UInt8)) (m : MediaPath) :
    Halting.final receiveChecked m datagrams = some (Run.final receive m datagrams) := by
  induction datagrams generalizing m with
  | nil => rfl
  | cons datagram datagrams ih =>
      rw [Halting.final_cons, receiveChecked_eq, Option.bind_some, ih]
      rfl

/-- Whatever arrives, no index, slice or length stops the path and every loop of it ends. Of the
units that go out, none whose header declared its length is longer than that as long as no header
lies, and one that its last byte completed has exactly that length; all have it where no start cuts
one short. -/
theorem media_path_total (window : Nat) (datagrams : List (List UInt8)) :
    Halting.final receiveChecked (new window) datagrams =
      some (Run.final receive (new window) datagrams) ∧
    (Run.outputs Watch.step .new ((new window).carried datagrams)).flatten.map Emitted.data =
      (Run.outputs receive (new window) datagrams).flatten.map AccessUnit.data ∧
    (Watch.Along Demux.Honest .new ((new window).carried datagrams) →
      (∀ e ∈ (Run.outputs Watch.step .new ((new window).carried datagrams)).flatten, e.Within) ∧
      (Watch.Along Demux.Patient .new ((new window).carried datagrams) →
        ∀ e ∈ (Run.outputs Watch.step .new ((new window).carried datagrams)).flatten,
          e.Exact)) := by
  refine ⟨run_checked datagrams _, ?_, Watch.run_bounded _ Watch.bounded_new⟩
  rw [Watch.run_data, run_carried]
  rfl

def stuffed (head : List UInt8) : List UInt8 := head ++ List.replicate (188 - head.length) 0xff

def patPacket : List UInt8 :=
  stuffed [0x47, 0x40, 0x00, 0x10, 0, 0x00, 0xb0, 13, 0, 1, 0xc1, 0, 0, 0, 1, 0xe1, 0x00]

def pmtPacket : List UInt8 :=
  stuffed [0x47, 0x41, 0x00, 0x10, 0, 0x02, 0xb0, 18, 0, 1, 0xc1, 0, 0, 0xf0, 0x11, 0xf0, 0,
    0x1b, 0xf0, 0x11, 0xf0, 0]

/-- A start on the video's stream, whose header is said to be followed by `length` bytes. -/
def startPacket (cc length : UInt8) : List UInt8 :=
  stuffed [0x47, 0x50, 0x11, 0x10 ||| cc, 0, 0, 1, 0xe0, 0, length, 0x80, 0, 0]

def datagramOf (packets : List (List UInt8)) : List UInt8 :=
  [0x80, 33, 0, 1, 0, 0, 0, 0, 0, 0, 0, 0] ++ packets.flatten

example : ((Run.outputs receive (new 32)
    [datagramOf [patPacket, pmtPacket, startPacket 0 8]]).flatten.map
      (fun unit => unit.data.length)) = [5] := by decide +kernel

/-- A header that says two bytes follow it, and so not even the rest of itself: 175 go out. -/
theorem declared_exceeded :
    ((Run.outputs receive (new 32)
      [datagramOf [patPacket, pmtPacket, startPacket 0 2, startPacket 1 2]]).flatten.map
        (fun unit => unit.data.length)) = [175] ∧
    (Run.outputs Watch.step .new ((new 32).carried
      [datagramOf [patPacket, pmtPacket, startPacket 0 2, startPacket 1 2]])).flatten.map
        (fun e => (e.header, e.header.declared, e.data.length)) = [(⟨2, 0⟩, some 0, 175)] := by
  decide +kernel

end MediaPath

end Castr.Miracast
