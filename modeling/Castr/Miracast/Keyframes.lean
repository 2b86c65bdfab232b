import Castr.Lib.Utf8
import Castr.Miracast.Demuxing
import Castr.Miracast.Requests

/-! A loss and the keyframe that is asked for. The loss that comes while the limit of the requests
still runs is counted as looked at, and nothing is asked for. -/

namespace Castr.Miracast

open Castr.Lib.Bytes (chunks)
open Castr.Lib.Run
open Castr.Lib.Utf8 (utf8)

theorem Rtp.Reorder.lost_release (window : Nat) (next : Option UInt16) (lost : Nat)
    (held : List Rtp.Packet) : lost ≤ (release window next lost held).1.lost := by
  induction held generalizing next lost with
  | nil => exact Nat.le_refl lost
  | cons head rest ih =>
      unfold release
      split
      · exact ih _ lost
      · split
        · exact ih _ lost
        · split
          · exact (Nat.le_add_right lost _).trans (ih _ _)
          · exact Nat.le_refl lost

theorem Rtp.Reorder.lost_push (r : Rtp.Reorder) (p : Rtp.Packet) :
    r.lost ≤ (r.push p).1.lost := by
  unfold push
  split
  · exact Nat.le_refl r.lost
  · exact lost_release _ _ _ _

namespace Ts.Demux

theorem errors_readPat (d : Demux) (payload : List UInt8) (start : Bool) :
    (d.readPat payload start).continuityErrors = d.continuityErrors := by
  unfold readPat
  split
  · rfl
  · dsimp only
    split <;> rfl

theorem errors_readStreams (d : Demux) (s : List UInt8) (stop fuel i : Nat) :
    (d.readStreams s stop fuel i).continuityErrors = d.continuityErrors := by
  induction fuel generalizing d i with
  | zero => rfl
  | succ fuel ih =>
      unfold readStreams
      split
      · dsimp only
        rw [ih]
        split
        · rfl
        · split <;> rfl
      · rfl

theorem errors_readPmt (d : Demux) (payload : List UInt8) (start : Bool) :
    (d.readPmt payload start).continuityErrors = d.continuityErrors := by
  unfold readPmt
  split
  · rfl
  · dsimp only
    split
    · rfl
    · exact errors_readStreams _ _ _ _ _

theorem errors_countContinuity (d : Demux) (pid : UInt16) (cc : UInt8) :
    d.continuityErrors ≤ (d.countContinuity pid cc).continuityErrors := by
  unfold countContinuity
  dsimp only
  split
  · split
    · rw [continuityErrors_setAssembly]
      exact Nat.le_succ _
    · exact Nat.le_succ _
  · exact Nat.le_refl _

theorem errors_push (d : Demux) (packet : List UInt8) :
    d.continuityErrors ≤ (d.push packet).1.continuityErrors := by
  unfold push
  split
  · exact Nat.le_refl _
  · split
    · exact Nat.le_refl _
    · dsimp only
      have counted := d.errors_countContinuity (pidOf (packet.getD 1 0) (packet.getD 2 0))
        (packet.getD 3 0 &&& 0x0f)
      split
      · rwa [errors_readPat]
      · split
        · rwa [errors_readPmt]
        · split
          · exact counted
          · rwa [continuityErrors_setAssembly]

theorem errors_pushAll (d : Demux) (packets : List (List UInt8)) :
    d.continuityErrors ≤ (d.pushAll packets).1.continuityErrors := by
  induction packets generalizing d with
  | nil => exact Nat.le_refl _
  | cons packet packets ih => exact (d.errors_push packet).trans (ih _)

end Ts.Demux

def SessionEvent.now : SessionEvent → Nat
  | .rtspBytes _ now => now
  | .datagram _ now => now
  | .tick now => now
  | .decodeError now => now

/-- The media path and the clock: what the session does by itself. -/
def SessionEvent.looks : SessionEvent → Bool
  | .datagram _ _ => true
  | .tick _ => true
  | _ => false

namespace Session

theorem lost_takeMedia (s : Session) (packet : Rtp.Packet) (now : Nat) :
    s.lost ≤ (s.takeMedia packet now).1.lost :=
  Nat.add_le_add (s.reorder.lost_push packet) (s.demux.errors_pushAll _)

theorem lost_aside (s : Session) (result : Session × List SinkEvent) (aside : Aside s result) :
    result.1.lost = s.lost := by
  rw [lost, lost, aside.reorder, aside.demux]

/-- A session with its last request for a keyframe: when it went out, and how much had been lost
by then. -/
structure Watched where
  session : Session
  last : Option (Nat × Nat)

def watchIdr (w : Watched) (event : SessionEvent) : Watched × List SinkEvent :=
  let next := w.session.step event
  (⟨next.1, if (w.session.sends event).any asksIdr then some (event.now, next.1.lost) else w.last⟩,
    next.2)

def unwatched (caps : Capabilities) (sessionId : String) : Watched := ⟨new caps sessionId, none⟩

/-- Half a second has gone by since the last request. -/
def Watched.rested (w : Watched) (now : Nat) : Bool :=
  w.last.all (fun request => request.1 + 500000000 ≤ now)

/-- What had been lost when the last request went out. -/
def Watched.known (w : Watched) : Nat := w.last.elim 0 Prod.snd

/-- Whatever has been lost since the last request is asked about at the first look after the half
second. -/
def Remembers (start : Watched) (events : List SessionEvent) : Prop :=
  ∀ front event back, events = front ++ event :: back → event.looks = true →
    (final watchIdr start front).rested event.now = true →
    (final watchIdr start front).known < ((final watchIdr start front).session.step event).1.lost →
    ∃ m, asksIdr m = true ∧
      .sendRtsp m.format ∈ ((final watchIdr start front).session.step event).2

/-- A datagram shows a loss within half a second of a request. -/
def crowded (w : Watched) : SessionEvent → Bool
  | .datagram bytes now =>
      match w.session.packetOf bytes with
      | some packet =>
          decide (w.session.lost < (w.session.takeMedia packet now).1.lost) && !w.rested now
      | none => false
  | _ => false

/-- As long as no datagram is crowded, every loss has been asked about. -/
structure Level (w : Watched) : Prop where
  counted : w.session.lostAtLastCheck = w.session.lost
  known : w.known = w.session.lost
  clock : w.session.negotiation.lastIdr = w.last.map Prod.fst

theorem half_second : idrMinInterval = 500000000 := by simp [idrMinInterval]

theorem soon_rested (sent now interval : Nat) (wide : 0 < interval) :
    decide (now - sent < interval) = !decide (sent + interval ≤ now) := by
  rw [← decide_not]
  exact decide_eq_decide.mpr (by omega)

theorem tooSoon_rested (w : Watched) (now : Nat) (level : Level w) :
    w.session.negotiation.idrTooSoon now = !w.rested now := by
  unfold Negotiation.idrTooSoon Watched.rested
  rw [level.clock]
  cases w.last with
  | none => rfl
  | some request =>
      rw [Option.map_some, Option.any_some, Option.all_some, half_second]
      exact soon_rested request.1 now 500000000 (by simp)

theorem level_still (w : Watched) (event : SessionEvent) (level : Level w)
    (counted : (w.session.step event).1.lostAtLastCheck = w.session.lostAtLastCheck)
    (lastIdr : (w.session.step event).1.negotiation.lastIdr = w.session.negotiation.lastIdr)
    (lost : (w.session.step event).1.lost = w.session.lost)
    (plain : (w.session.sends event).any asksIdr = false) : Level (watchIdr w event).1 := by
  have known : (watchIdr w event).1.known = w.known := by simp [watchIdr, plain, Watched.known]
  refine ⟨counted.trans (level.counted.trans lost.symm), ?_, ?_⟩
  · rw [known, level.known]
    exact lost.symm
  · simpa [watchIdr, plain] using lastIdr.trans level.clock

theorem level_asked (w : Watched) (event : SessionEvent)
    (counted : (w.session.step event).1.lostAtLastCheck = (w.session.step event).1.lost)
    (asks : (w.session.sends event).any asksIdr = true)
    (clock : (w.session.step event).1.negotiation.lastIdr = some event.now) :
    Level (watchIdr w event).1 := by
  refine ⟨counted, ?_, ?_⟩
  · simp [watchIdr, asks, Watched.known]
  · simpa [watchIdr, asks] using clock

theorem datagram_parts (s : Session) (bytes : List UInt8) (now : Nat) (packet : Rtp.Packet)
    (read : s.packetOf bytes = some packet) :
    let lost := (s.takeMedia packet now).1.lost
    (s.step (.datagram bytes now)).1.lost = lost ∧
      (s.step (.datagram bytes now)).1.lostAtLastCheck = max s.lostAtLastCheck lost ∧
      (s.step (.datagram bytes now)).1.negotiation.lastIdr =
        (if s.lostAtLastCheck < lost ∧ s.negotiation.idrTooSoon now = false then some now
          else s.negotiation.lastIdr) ∧
      (s.sends (.datagram bytes now)).any asksIdr =
        decide (s.lostAtLastCheck < lost ∧ s.negotiation.idrTooSoon now = false) := by
  have taken : (s.takeMedia packet now).1.lostAtLastCheck = s.lostAtLastCheck ∧
      (s.takeMedia packet now).1.negotiation = s.negotiation := ⟨rfl, rfl⟩
  generalize media : s.takeMedia packet now = result at taken
  have checked := aside_checkLoss result.1 result.1.lost now
  have sampled := aside_sampleLadder (result.1.checkLoss result.1.lost now).1 result.1.lost now
  obtain ⟨counted, _, lastIdr⟩ :=
    sampleLadder_unasked (result.1.checkLoss result.1.lost now).1 result.1.lost now
  rw [datagram_read s bytes now packet read]
  simp only [sends, read, media]
  refine ⟨?_, ?_, ?_, ?_⟩
  · rw [lost_aside _ _ sampled, lost_aside _ _ checked]
  · rw [counted, checkLoss_counted, taken.1]
  · rw [lastIdr, checkLoss_lastIdr, taken.1, taken.2]
  · rw [List.any_append, any_asksIdr_idrSends, any_asksIdr_ladderSends, Bool.or_false, taken.1,
      taken.2]

theorem level_datagram (w : Watched) (bytes : List UInt8) (now : Nat) (level : Level w)
    (apart : crowded w (.datagram bytes now) = false) :
    Level (watchIdr w (.datagram bytes now)).1 := by
  cases read : w.session.packetOf bytes with
  | none =>
      have still := datagram_unread w.session bytes now read
      exact level_still w _ level (by rw [still]) (by rw [still]) (by rw [still])
        (by simp [sends, read])
  | some packet =>
      obtain ⟨lost, counted, lastIdr, asks⟩ := datagram_parts w.session bytes now packet read
      have grows := lost_takeMedia w.session packet now
      rw [level.counted] at counted lastIdr asks
      by_cases grown : w.session.lost < (w.session.takeMedia packet now).1.lost
      · have rested : w.session.negotiation.idrTooSoon now = false := by
          rw [tooSoon_rested w now level]
          simpa [crowded, read, grown] using apart
        refine level_asked w _ ?_ ?_ ?_
        · rw [counted, lost, Nat.max_eq_right grows]
        · rw [asks, decide_eq_true ⟨grown, rested⟩]
        · rw [lastIdr, if_pos ⟨grown, rested⟩]
          rfl
      · have same := Nat.le_antisymm (Nat.le_of_not_lt grown) grows
        refine level_still w _ level ?_ ?_ ?_ ?_
        · rw [counted, same, Nat.max_self, level.counted]
        · rw [lastIdr, if_neg (fun both => grown both.1)]
        · rw [lost, same]
        · rw [asks, decide_eq_false (fun both => grown both.1)]

theorem level_tick (w : Watched) (now : Nat) (level : Level w) :
    Level (watchIdr w (.tick now)).1 := by
  have lost := lost_aside w.session _ (aside_tick w.session now)
  cases silent : w.session.silentAt now with
  | true =>
      have still := tick_silent w.session now silent
      exact level_still w _ level (by rw [still]) (by rw [still]) lost (by simp [sends, silent])
  | false =>
      have heard := tick_heard w.session now silent
      obtain ⟨counted, _, lastIdr⟩ := sampleLadder_unasked w.session w.session.lost now
      refine level_still w _ level ?_ ?_ lost ?_
      · rw [heard]
        exact (counted_drive _ _).trans counted
      · rw [heard]
        dsimp only
        rw [negotiation_drive, lastIdr_tick, lastIdr]
      · simp only [sends, silent, Bool.false_eq_true, if_false, List.any_append,
          any_asksIdr_ladderSends, any_asksIdr_plain _ (plain_tick _ now), Bool.or_self]

theorem level_step (w : Watched) (event : SessionEvent) (level : Level w)
    (apart : crowded w event = false) : Level (watchIdr w event).1 := by
  cases event with
  | datagram bytes now => exact level_datagram w bytes now level apart
  | tick now => exact level_tick w now level
  | rtspBytes bytes now =>
      have unasked := unasked_drain now (w.session.rtspBuf ++ bytes).length
        { w.session with rtspBuf := w.session.rtspBuf ++ bytes }
      exact level_still w _ level unasked.counted unasked.lastIdr
        (lost_aside w.session _ (aside_step w.session _ (by simp [heard])))
        (any_asksIdr_plain _ (plain_drainSends now _ _))
  | decodeError now =>
      have lost :=
        lost_aside w.session _ (aside_drive w.session (w.session.negotiation.requestIdr now))
      cases soon : w.session.negotiation.idrTooSoon now with
      | true =>
          refine level_still w _ level (counted_drive _ _) ?_ lost ?_
          · simp [step, noteDecodeError, lastIdr_requestIdr, soon]
          · simp [sends, sent_requestIdr, soon]
      | false =>
          refine level_asked w _ ?_ ?_ ?_
          · exact (counted_drive _ _).trans (level.counted.trans lost.symm)
          · simp [sends, sent_requestIdr, soon, asksIdr_idrRequest]
          · simp [step, noteDecodeError, lastIdr_requestIdr, soon, SessionEvent.now]

theorem level_unwatched (caps : Capabilities) (sessionId : String) :
    Level (unwatched caps sessionId) := ⟨rfl, rfl, rfl⟩

/-- Where losses stay half a second clear of the requests before them, none is forgotten. -/
theorem loss_remembered (caps : Capabilities) (sessionId : String) (events : List SessionEvent)
    (apart : ever watchIdr crowded (unwatched caps sessionId) events = false) :
    Remembers (unwatched caps sessionId) events := by
  intro front event back split looks rested grown
  have level : Level (final watchIdr (unwatched caps sessionId) front) := by
    apply prefix_induction watchIdr (unwatched caps sessionId) events (fun _ w => Level w)
      (level_unwatched caps sessionId) _ front (event :: back) split
    intro before next after place before_level
    exact level_step _ next before_level
      (never_at watchIdr _ crowded events before after next place apart)
  have clear := never_at watchIdr _ crowded events front back event split apart
  generalize final watchIdr (unwatched caps sessionId) front = w at *
  rw [level.known] at grown
  cases event with
  | datagram bytes now =>
      cases read : w.session.packetOf bytes with
      | none =>
          rw [datagram_unread w.session bytes now read] at grown
          exact absurd grown (Nat.lt_irrefl _)
      | some packet =>
          obtain ⟨lost, _, _, asks⟩ := datagram_parts w.session bytes now packet read
          have allowed : w.session.negotiation.idrTooSoon now = false := by
            have still : w.rested now = true := rested
            rw [tooSoon_rested w now level, still]
            rfl
          rw [lost] at grown
          rw [level.counted, decide_eq_true ⟨grown, allowed⟩] at asks
          obtain ⟨m, member, asking⟩ := List.any_eq_true.mp asks
          exact ⟨m, asking, sent_sendRtsp w.session _ m member⟩
  | tick now =>
      have same := lost_aside w.session (w.session.step (.tick now)) (aside_tick w.session now)
      exact absurd grown (by rw [same]; exact Nat.lt_irrefl _)
  | rtspBytes bytes now => cases looks
  | decodeError now => cases looks

section Runs

def oneDisplay : Capabilities := ⟨.only720p30, .lpcm48kStereo, ⟨5000⟩, 8000, true, true⟩

def setUp : List SessionEvent :=
  [.rtspBytes (utf8 ("SET_PARAMETER rtsp://localhost/wfd1.0 RTSP/1.0\r\nCSeq: 5\r\n" ++
      "Content-Length: 27\r\n\r\nwfd_trigger_method: SETUP\r\n").toList) 0,
    .rtspBytes (utf8 "RTSP/1.0 200 OK\r\nCSeq: 100\r\nSession: 7\r\n\r\n".toList) 0]

def counters (sequence : UInt8) (counts : List UInt8) : List UInt8 :=
  [0x80, 33, 0, sequence, 0, 0, 0, 0, 0, 0, 0, 0] ++
    counts.flatMap (fun count => [0x47, 1, 0, 0x10 ||| count] ++ List.replicate 184 0)

/-- Two losses a second apart. -/
def apartLosses : List SessionEvent :=
  setUp ++ [.datagram (counters 0 [0]) 0, .datagram (counters 1 [5]) (10 ^ 9),
    .datagram (counters 2 [9]) (2 * 10 ^ 9)]

theorem loss_remembered_apart :
    (final watchIdr (unwatched oneDisplay "01234567") apartLosses).last = some (2 * 10 ^ 9, 2) ∧
      Remembers (unwatched oneDisplay "01234567") apartLosses :=
  ⟨by decide +kernel, loss_remembered _ _ _ (by decide +kernel)⟩

/-- The same losses a tenth of a second apart. -/
def closeLosses : List SessionEvent :=
  setUp ++ [.datagram (counters 0 [0]) 0, .datagram (counters 1 [5]) (10 ^ 9),
    .datagram (counters 2 [9]) (11 * 10 ^ 8)]

/-- Nothing asks about the second one, however late. -/
theorem loss_forgotten :
    ¬ ∀ caps sessionId events, Remembers (unwatched caps sessionId) events := by
  intro remembers
  obtain ⟨m, _, member⟩ := remembers oneDisplay "01234567" (closeLosses ++ [.tick (2 * 10 ^ 9)])
    closeLosses (.tick (2 * 10 ^ 9)) [] rfl rfl (by decide +kernel) (by decide +kernel)
  have silent : ((final watchIdr (unwatched oneDisplay "01234567") closeLosses).session.step
      (.tick (2 * 10 ^ 9))).2 = [] := by decide +kernel
  rw [silent] at member
  cases member

end Runs

end Session

end Castr.Miracast
