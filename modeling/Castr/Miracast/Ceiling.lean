import Castr.Miracast.Keyframes

/-! The ceiling a source was told and the one the ladder stands at. The ladder moves whenever it
is looked at; the source is told only while the negotiation is in its playing state. -/

namespace Castr.Miracast

open Castr.Lib.Run
open Castr.Lib.Utf8 (utf8)

namespace BitrateLadder

def moves (l : BitrateLadder) (loss now : Nat) : Bool :=
  l.lastSample.all (fun last => sampleInterval ≤ now - last) &&
    if badSecond ≤ loss - l.lastLoss then decide (l.rung ≠ bottom)
    else decide (cleanPerStep ≤ l.clean + 1 ∧ 0 < l.rung)

theorem sample_moves (l : BitrateLadder) (loss now : Nat) :
    (l.sample loss now).2.isSome = l.moves loss now := by
  unfold sample moves
  have apart : l.lastSample.all (fun last => sampleInterval ≤ now - last) =
      !l.lastSample.any (fun last => now - last < sampleInterval) := by
    cases l.lastSample with
    | none => rfl
    | some last =>
        rw [Option.all_some, Option.any_some, ← decide_not]
        exact decide_eq_decide.mpr Nat.not_lt.symm
  rw [apart]
  split
  · next early => simp [early]
  · next due =>
      simp only [due, Bool.not_false, Bool.true_and, judge]
      split
      · split <;> simp_all
      · split <;> simp_all

end BitrateLadder

namespace Session

def sampledAt (s : Session) : SessionEvent → Option (Nat × Nat)
  | .datagram bytes now =>
      (s.packetOf bytes).map (fun packet => ((s.takeMedia packet now).1.lost, now))
  | .tick now => if s.silentAt now then none else some (s.lost, now)
  | _ => none

structure Told where
  session : Session
  ceiling : Option UInt32

def watchCeiling (w : Told) (event : SessionEvent) : Told × List SinkEvent :=
  let next := w.session.step event
  (⟨next.1, (((w.session.sends event).filterMap ceiling).getLast?).or w.ceiling⟩, next.2)

def untold (caps : Capabilities) (sessionId : String) : Told := ⟨new caps sessionId, none⟩

/-- The ladder stands where the source was told, or at its top when it was told nothing. -/
def Agrees (w : Told) : Prop :=
  w.session.ladder.currentKbps = w.ceiling.getD (Castr.Miracast.ladder.getD 0 0)

/-- The ladder would move while the negotiation is not in its playing state. -/
def moved (w : Told) (event : SessionEvent) : Bool :=
  match w.session.sampledAt event with
  | some (lost, now) =>
      w.session.ladder.moves lost now && decide (w.session.negotiation.state ≠ .playing)
  | none => false

theorem ladder_sampled (s : Session) (event : SessionEvent) (lost now : Nat)
    (sampled : s.sampledAt event = some (lost, now)) :
    (s.step event).1.ladder = (s.ladder.sample lost now).1 ∧
      (s.sends event).filterMap Castr.Miracast.ceiling =
        if s.negotiation.state = .playing then (s.ladder.sample lost now).2.toList else [] := by
  cases event with
  | datagram bytes time =>
      simp only [sampledAt, Option.map_eq_some_iff, Prod.mk.injEq] at sampled
      obtain ⟨packet, read, rfl, rfl⟩ := sampled
      have taken : (s.takeMedia packet time).1.ladder = s.ladder ∧
          (s.takeMedia packet time).1.negotiation = s.negotiation := ⟨rfl, rfl⟩
      rw [datagram_read s bytes time packet read]
      simp only [sends, read]
      generalize s.takeMedia packet time = media at taken ⊢
      obtain ⟨_, moved, _⟩ :=
        sampleLadder_unasked (media.1.checkLoss media.1.lost time).1 media.1.lost time
      refine ⟨?_, ?_⟩
      · rw [moved, checkLoss_ladder, taken.1]
      · rw [List.filterMap_append, ceiling_idrSends, ceiling_ladderSends, checkLoss_state,
          checkLoss_ladder, taken.1, taken.2, List.nil_append]
  | tick time =>
      simp only [sampledAt] at sampled
      split at sampled
      · cases sampled
      · next heard =>
          obtain ⟨rfl, rfl⟩ := Prod.mk.inj (Option.some.inj sampled)
          have silent : s.silentAt time = false := Bool.eq_false_iff.mpr heard
          obtain ⟨_, moved, _⟩ := sampleLadder_unasked s s.lost time
          rw [tick_heard s time silent]
          simp only [sends, silent, Bool.false_eq_true, if_false, List.filterMap_append,
            ceiling_ladderSends, ceiling_plain _ (plain_tick _ time), List.append_nil, and_true]
          exact (ladder_drive _ _).trans moved
  | rtspBytes bytes time => cases sampled
  | decodeError time => cases sampled

theorem ladder_unsampled (s : Session) (event : SessionEvent) (still : s.sampledAt event = none) :
    (s.step event).1.ladder = s.ladder ∧
      (s.sends event).filterMap Castr.Miracast.ceiling = [] := by
  cases event with
  | datagram bytes time =>
      have read := Option.map_eq_none_iff.mp still
      rw [datagram_unread s bytes time read]
      exact ⟨rfl, by simp [sends, read]⟩
  | tick time =>
      have silent : s.silentAt time = true := by
        by_contra heard
        simp [sampledAt, heard] at still
      rw [tick_silent s time silent]
      exact ⟨rfl, by simp [sends, silent]⟩
  | rtspBytes bytes time =>
      have unasked := unasked_drain time (s.rtspBuf ++ bytes).length
        { s with rtspBuf := s.rtspBuf ++ bytes }
      exact ⟨unasked.ladder, ceiling_plain _ (plain_drainSends time _ _)⟩
  | decodeError time =>
      refine ⟨ladder_drive s _, ?_⟩
      rw [sends, sent_requestIdr]
      split <;> simp [ceiling_idrRequest]

/-- The ladder is one a run of samples can leave, and the source knows where it stands. -/
structure InStep (w : Told) : Prop where
  tracks : ∃ last, BitrateLadder.Tracks last w.session.ladder
  agrees : Agrees w

theorem inStep_step (w : Told) (event : SessionEvent) (inStep : InStep w)
    (told : moved w event = false) : InStep (watchCeiling w event).1 := by
  obtain ⟨last, tracks⟩ := inStep.tracks
  cases sampled : w.session.sampledAt event with
  | none =>
      obtain ⟨same, plain⟩ := ladder_unsampled w.session event sampled
      have agrees := inStep.agrees
      unfold Agrees at agrees
      refine ⟨⟨last, ?_⟩, ?_⟩
      · simpa [watchCeiling, same] using tracks
      · simp only [Agrees, watchCeiling, same, plain, List.getLast?_nil, Option.none_or, agrees]
  | some sample =>
      obtain ⟨lost, now⟩ := sample
      obtain ⟨next, asked⟩ := ladder_sampled w.session event lost now sampled
      obtain ⟨kbps, _⟩ := BitrateLadder.sample_answer last w.session.ladder lost now tracks
      have agrees := inStep.agrees
      unfold Agrees at agrees
      refine ⟨⟨_, by simpa [watchCeiling, next] using
        BitrateLadder.tracks_sample last w.session.ladder lost now tracks⟩, ?_⟩
      simp only [Agrees, watchCeiling, next, asked, kbps]
      cases answer : (w.session.ladder.sample lost now).2 with
      | none => simpa using agrees
      | some value =>
          have moves := BitrateLadder.sample_moves w.session.ladder lost now
          rw [answer, Option.isSome_some] at moves
          have playing : w.session.negotiation.state = .playing := by
            simpa [Session.moved, sampled, ← moves] using told
          simp [playing]

/-- Where the ladder only moves while the negotiation plays, the source knows every move. -/
theorem ceiling_agrees (caps : Capabilities) (sessionId : String) (events : List SessionEvent)
    (told : ever watchCeiling moved (untold caps sessionId) events = false)
    (front back : List SessionEvent) (split : events = front ++ back) :
    Agrees (final watchCeiling (untold caps sessionId) front) := by
  have inStep : InStep (final watchCeiling (untold caps sessionId) front) := by
    apply prefix_induction watchCeiling (untold caps sessionId) events (fun _ w => InStep w)
      ⟨⟨none, BitrateLadder.tracks_new⟩, rfl⟩ _ front back split
    intro before next after place earlier
    exact inStep_step _ next earlier
      (never_at watchCeiling _ moved events before after next place told)
  exact inStep.agrees

/-- A second of loss that is told, while the session plays. -/
def lossyPlaying : List SessionEvent :=
  setUp ++ [.datagram (counters 0 [0, 5, 10, 15, 4, 9]) (10 ^ 9)]

theorem ceiling_agrees_playing :
    (final watchCeiling (untold oneDisplay "01234567") lossyPlaying).ceiling = some 2000 ∧
      Agrees (final watchCeiling (untold oneDisplay "01234567") lossyPlaying) :=
  ⟨by decide +kernel, ceiling_agrees _ _ _ (by decide +kernel) lossyPlaying [] rfl⟩

def lossyAsked : List SessionEvent :=
  setUp ++ [.rtspBytes (utf8 ("GET_PARAMETER rtsp://localhost/wfd1.0 RTSP/1.0\r\nCSeq: 6\r\n" ++
      "Content-Length: 19\r\n\r\nwfd_video_formats\r\n").toList) 0,
    .datagram (counters 0 [0, 5, 10, 15, 4, 9]) (10 ^ 9)]

/-- The ladder is on its lowest rung, and the source was told nothing. -/
theorem ceiling_untold :
    ¬ ∀ caps sessionId events, Agrees (final watchCeiling (untold caps sessionId) events) := by
  intro agrees
  exact absurd (agrees oneDisplay "01234567" lossyAsked) (by unfold Agrees; decide +kernel)

end Session

end Castr.Miracast
