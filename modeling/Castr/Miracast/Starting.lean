import Castr.Miracast.Keyframes
import Castr.Miracast.Parameters

/-! How a session begins to play. The set-up may be triggered and accepted before the source has
picked a format; the stream is then played without a start. -/

namespace Castr.Miracast

open Castr.Lib.Run

structure Reading where
  neg : Negotiation
  message : Message
  now : Nat

def Reading.result (r : Reading) : Negotiation × List Action :=
  r.neg.onMessageAt r.message r.now

def offers (m : Message) : Bool :=
  match m.start with
  | .request method _ =>
      decide (method = "SET_PARAMETER") &&
        (Negotiation.lastMode (parseParameterBody m.body)).isSome
  | .response _ _ => false

def Reading.setsUp (r : Reading) : Bool :=
  match r.message.start with
  | .request _ _ => false
  | .response status _ =>
      decide (status = 200) && decide (r.neg.state = .ready) && r.neg.peerSession.isNone &&
        (Negotiation.sessionOf r.message).isSome

def plays (readings : List Reading) : List (Option VideoMode) :=
  readings.filterMap (fun r => if .play ∈ r.result.2 then some r.result.1.chosen else none)

/-- A format has been picked by the time the set-up is accepted. -/
def Offered (readings : List Reading) : Prop :=
  ∀ before r after, readings = before ++ r :: after → r.setsUp = true →
    ∃ earlier ∈ before, offers earlier.message = true

def SinkEvent.isStarted : SinkEvent → Bool
  | .started _ => true
  | _ => false

def StartsFirst (out : List SinkEvent) : Prop :=
  ∀ before event after, out = before ++ event :: after → event.media.isSome = true →
    ∃ mode, .started mode ∈ before

namespace Negotiation

theorem chosen_onSetParameter (neg : Negotiation) (cseq : UInt32) (m : Message) :
    (neg.onSetParameter cseq m).1.chosen =
      (lastMode (parseParameterBody m.body)).or neg.chosen := by
  rw [onSetParameter_eq]
  split
  · split <;> rfl
  · rfl

theorem chosen_onMessageAt (neg : Negotiation) (m : Message) (now : Nat) :
    (neg.onMessageAt m now).1.chosen.isSome = (neg.chosen.isSome || offers m) := by
  cases start : m.start with
  | request method uri =>
      simp only [onMessageAt, offers, start]
      by_cases asks : method = "SET_PARAMETER"
      · subst asks
        have set : (neg.hear now).onRequest "SET_PARAMETER" m =
            (neg.hear now).onSetParameter (m.cseq.getD 0) m := by simp [onRequest]
        have heard : (neg.hear now).chosen = neg.chosen := rfl
        rw [set, chosen_onSetParameter, heard]
        cases lastMode (parseParameterBody m.body) <;> simp
      · have branch := asked (neg.hear now) method m
        generalize (neg.hear now).onRequest method m = result at branch
        cases branch <;> simp_all [hear, bump]
  | response status reason =>
      simp only [onMessageAt, offers, start]
      have branch := answered (neg.hear now) status m
      generalize (neg.hear now).onResponse status m = result at branch
      cases branch <;> simp [hear, bump]

end Negotiation

theorem Reading.plays_iff (r : Reading) :
    (.play ∈ r.result.2 ↔ r.setsUp = true) ∧
      (r.setsUp = true → r.neg.peerSession = none ∧ r.result.1.peerSession.isSome = true ∧
        r.result.1.chosen = r.neg.chosen ∧ ∃ m, r.result.2 = [.send m, .play]) ∧
      (r.setsUp = false → r.result.1.peerSession = r.neg.peerSession) := by
  unfold Reading.result Reading.setsUp Negotiation.onMessageAt
  cases start : r.message.start with
  | request method uri =>
      have branch := Negotiation.asked (r.neg.hear r.now) method r.message
      dsimp only
      generalize (r.neg.hear r.now).onRequest method r.message = result at branch
      cases branch <;> simp [Negotiation.hear, Negotiation.bump]
  | response status reason =>
      have branch := Negotiation.answered (r.neg.hear r.now) status r.message
      dsimp only
      generalize (r.neg.hear r.now).onResponse status r.message = result at branch
      cases branch with
      | refused _ bad => simp [bad, Negotiation.hear]
      | lost ready fresh missing => simp [missing, Negotiation.hear]
      | plays session ready fresh found =>
          have waits : r.neg.state = .ready := ready
          have alone : r.neg.peerSession = none := fresh
          simp [waits, alone, found, Negotiation.hear, Negotiation.bump]
      | ignored settled =>
          have closed : ¬ (r.neg.state = .ready ∧ r.neg.peerSession = none) := settled
          have shut : (decide (r.neg.state = .ready) && r.neg.peerSession.isNone) = false := by
            cases session : r.neg.peerSession <;> simp_all
          simp [shut, Negotiation.hear]

theorem plays_snoc (readings : List Reading) (r : Reading) :
    plays (readings ++ [r]) =
      plays readings ++ if r.setsUp then [r.neg.chosen] else [] := by
  obtain ⟨played, sets, _⟩ := r.plays_iff
  rw [plays, List.filterMap_append, ← plays]
  cases up : r.setsUp with
  | true =>
      have play : .play ∈ r.result.2 := played.mpr up
      simp [play, (sets up).2.2.1]
  | false =>
      have quiet : .play ∉ r.result.2 := fun play => by simp [played.mp play] at up
      simp [quiet]

theorem offered_snoc (readings : List Reading) (r : Reading) :
    Offered (readings ++ [r]) ↔ Offered readings ∧
      (r.setsUp = true → ∃ earlier ∈ readings, offers earlier.message = true) := by
  constructor
  · intro offered
    refine ⟨?_, offered readings r [] rfl⟩
    intro before other after split up
    exact offered before other (after ++ [r]) (by simp [split]) up
  · rintro ⟨offered, last⟩ before other after split up
    rcases List.eq_nil_or_concat' after with rfl | ⟨front, final, rfl⟩
    · obtain ⟨rfl, same⟩ := List.append_inj' split rfl
      obtain rfl := (List.cons.inj same).1
      exact last up
    · have parts : readings ++ [r] = (before ++ other :: front) ++ [final] := by simp [split]
      exact offered before other front (List.append_inj' parts rfl).1 up

theorem startsFirst_append (out more : List SinkEvent) (first : StartsFirst out)
    (later : (∃ event ∈ more, event.media.isSome = true) → ∃ mode, .started mode ∈ out) :
    StartsFirst (out ++ more) := by
  intro before event after split seen
  rcases List.append_eq_append_iff.mp split with ⟨rest, rfl, tail⟩ | ⟨rest, rfl, tail⟩
  · obtain ⟨mode, member⟩ := later ⟨event, by simp [tail], seen⟩
    exact ⟨mode, List.mem_append_left rest member⟩
  · cases rest with
    | nil =>
        have inside : event ∈ more := by
          rw [List.nil_append] at tail
          simp [← tail]
        obtain ⟨mode, member⟩ := later ⟨event, inside, seen⟩
        exact ⟨mode, by simpa using member⟩
    | cons next rest =>
        obtain ⟨rfl, _⟩ := List.cons.inj tail
        exact first before event rest rfl seen

namespace Session

def drainReadings (now : Nat) : Nat → Session → List Reading
  | 0, _ => []
  | fuel + 1, s =>
      match parse s.rtspBuf with
      | .ok (some (m, used)) =>
          ⟨s.negotiation, m, now⟩ :: drainReadings now fuel
            ({ s with rtspBuf := s.rtspBuf.drop used }.drive (s.negotiation.onMessageAt m now)).1
      | _ => []

def readingsAt (s : Session) : SessionEvent → List Reading
  | .rtspBytes bytes now =>
      drainReadings now (s.rtspBuf ++ bytes).length { s with rtspBuf := s.rtspBuf ++ bytes }
  | _ => []

def readings (s : Session) : List SessionEvent → List Reading
  | [] => []
  | event :: events => s.readingsAt event ++ (s.step event).1.readings events

structure Begun (readings : List Reading) (out : List SinkEvent) (s : Session) : Prop where
  offered : s.negotiation.chosen.isSome = readings.any (fun r => offers r.message)
  played : (plays readings).length = s.negotiation.peerSession.isSome.toNat
  moded : (∀ chosen ∈ plays readings, chosen.isSome = true) ↔ Offered readings
  starts : out.countP SinkEvent.isStarted ≤ (plays readings).length
  live : s.playing = true → s.negotiation.peerSession.isSome = true
  first : Offered readings → StartsFirst out
  started : Offered readings → s.playing = true → ∃ mode, .started mode ∈ out

theorem begun_new (caps : Capabilities) (sessionId : String) :
    Begun [] [] (new caps sessionId) where
  offered := rfl
  played := rfl
  moded := by simp [plays, Offered]
  starts := Nat.le_refl 0
  live := fun playing => by cases playing
  first := fun _ before event after split => by simp at split
  started := fun _ playing => by cases playing

theorem begun_more (readings : List Reading) (out more : List SinkEvent) (s next : Session)
    (begun : Begun readings out s)
    (chosen : next.negotiation.chosen = s.negotiation.chosen)
    (peer : next.negotiation.peerSession = s.negotiation.peerSession)
    (playing : next.playing = true → s.playing = true)
    (unstarted : ∀ event ∈ more, event.isStarted = false)
    (media : (∃ event ∈ more, event.media.isSome = true) → s.playing = true) :
    Begun readings (out ++ more) next where
  offered := by rw [chosen, begun.offered]
  played := by rw [peer, begun.played]
  moded := begun.moded
  starts := by
    have plain : more.countP SinkEvent.isStarted = 0 :=
      List.countP_eq_zero.mpr (fun event member => by simp [unstarted event member])
    rw [List.countP_append, plain]
    exact begun.starts
  live := fun plays => by rw [peer, begun.live (playing plays)]
  first := fun offered => startsFirst_append out more (begun.first offered)
    (fun seen => begun.started offered (media seen))
  started := fun offered plays => by
    obtain ⟨mode, member⟩ := begun.started offered (playing plays)
    exact ⟨mode, List.mem_append_left more member⟩

theorem apply_unplayed (s : Session) (actions : List Action) (unplayed : .play ∉ actions) :
    ((s.apply actions).1.playing = true → s.playing = true) ∧
      ∀ event ∈ (s.apply actions).2, event.isStarted = false ∧ event.media = none := by
  induction actions generalizing s with
  | nil => exact ⟨id, by simp [apply]⟩
  | cons action actions ih =>
      simp only [List.mem_cons, not_or] at unplayed
      obtain ⟨playing, quiet⟩ := ih (s.applyOne action).1 unplayed.2
      have one : ((s.applyOne action).1.playing = true → s.playing = true) ∧
          ∀ event ∈ (s.applyOne action).2, event.isStarted = false ∧ event.media = none := by
        cases action with
        | play => exact absurd rfl unplayed.1
        | _ => simp [applyOne, SinkEvent.isStarted, SinkEvent.media]
      refine ⟨fun last => one.1 (playing last), ?_⟩
      intro event member
      rcases List.mem_append.mp member with early | late
      · exact one.2 event early
      · exact quiet event late

theorem begun_drive (readings : List Reading) (out : List SinkEvent) (s : Session)
    (result : Negotiation × List Action) (begun : Begun readings out s)
    (chosen : result.1.chosen = s.negotiation.chosen)
    (peer : result.1.peerSession = s.negotiation.peerSession) (unplayed : .play ∉ result.2) :
    Begun readings (out ++ (s.drive result).2) (s.drive result).1 := by
  obtain ⟨playing, quiet⟩ := apply_unplayed { s with negotiation := result.1 } result.2 unplayed
  apply begun_more readings out _ s _ begun
  · rw [negotiation_drive, chosen]
  · rw [negotiation_drive, peer]
  · exact playing
  · exact fun event member => (quiet event member).1
  · rintro ⟨event, member, seen⟩
    simp [(quiet event member).2] at seen

theorem begun_plain (readings : List Reading) (out : List SinkEvent) (s : Session) (r : Reading)
    (begun : Begun readings out s) (taken : r.neg = s.negotiation) (plain : r.setsUp = false) :
    Begun (readings ++ [r]) (out ++ (s.drive r.result).2) (s.drive r.result).1 := by
  obtain ⟨played, _, still⟩ := r.plays_iff
  have unplayed : .play ∉ r.result.2 := fun play => by simp [played.mp play] at plain
  obtain ⟨playing, quiet⟩ := apply_unplayed { s with negotiation := r.result.1 } r.result.2 unplayed
  have same : plays (readings ++ [r]) = plays readings := by simp [plays_snoc, plain]
  have offered : Offered (readings ++ [r]) ↔ Offered readings := by simp [offered_snoc, plain]
  have silent : (s.drive r.result).2.countP SinkEvent.isStarted = 0 :=
    List.countP_eq_zero.mpr (fun event member => by simp [(quiet event member).1])
  refine ⟨?_, ?_, ?_, ?_, ?_, ?_, ?_⟩
  · rw [negotiation_drive, Reading.result, Negotiation.chosen_onMessageAt, taken, begun.offered]
    simp
  · rw [same, negotiation_drive, still plain, taken, begun.played]
  · rw [same, offered]
    exact begun.moded
  · rw [same, List.countP_append, silent]
    exact begun.starts
  · intro plays
    rw [negotiation_drive, still plain, taken]
    exact begun.live (playing plays)
  · intro offers
    apply startsFirst_append _ _ (begun.first (offered.mp offers))
    rintro ⟨event, member, seen⟩
    simp [(quiet event member).2] at seen
  · intro offers plays
    obtain ⟨mode, member⟩ := begun.started (offered.mp offers) (playing plays)
    exact ⟨mode, List.mem_append_left _ member⟩

/-- The message that accepts the set-up: it is the first, and a start goes out with a mode. -/
theorem begun_setUp (readings : List Reading) (out : List SinkEvent) (s : Session) (r : Reading)
    (begun : Begun readings out s) (taken : r.neg = s.negotiation) (up : r.setsUp = true) :
    Begun (readings ++ [r]) (out ++ (s.drive r.result).2) (s.drive r.result).1 := by
  obtain ⟨alone, joined, chosen, m, actions⟩ := r.plays_iff.2.1 up
  have unplayed : plays readings = [] := by
    apply List.eq_nil_of_length_eq_zero
    rw [begun.played, ← taken, alone]
    rfl
  have one : plays (readings ++ [r]) = [r.neg.chosen] := by simp [plays_snoc, up, unplayed]
  have offered_before : Offered readings := begun.moded.mp (by simp [unplayed])
  have picked : r.neg.chosen.isSome = true ↔
      ∃ earlier ∈ readings, offers earlier.message = true := by
    rw [taken, begun.offered, List.any_eq_true]
  have offered : Offered (readings ++ [r]) ↔ r.neg.chosen.isSome = true := by
    rw [offered_snoc, picked]
    exact ⟨fun both => both.2 up, fun earlier => ⟨offered_before, fun _ => earlier⟩⟩
  have events : (s.drive r.result).2 =
      .sendRtsp m.format :: (r.neg.chosen.map SinkEvent.started).toList := by
    rw [drive, actions, ← chosen]
    simp [apply, applyOne]
  have unstarted : out.countP SinkEvent.isStarted = 0 := by
    have few := begun.starts
    rw [unplayed] at few
    exact Nat.le_zero.mp few
  refine ⟨?_, ?_, ?_, ?_, ?_, ?_, ?_⟩
  · rw [negotiation_drive, Reading.result, Negotiation.chosen_onMessageAt, taken, begun.offered]
    simp
  · rw [one, negotiation_drive, joined]
    rfl
  · rw [one, offered]
    simp
  · rw [one, events, List.countP_append, unstarted]
    cases r.neg.chosen <;> simp [SinkEvent.isStarted]
  · intro _
    rw [negotiation_drive, joined]
  · intro _
    apply startsFirst_append _ _ (begun.first offered_before)
    rintro ⟨event, member, seen⟩
    rw [events] at member
    cases mode : r.neg.chosen <;> simp [mode] at member
    · simp [member, SinkEvent.media] at seen
    · rcases member with rfl | rfl <;> simp [SinkEvent.media] at seen
  · intro offers _
    obtain ⟨mode, found⟩ := Option.isSome_iff_exists.mp (offered.mp offers)
    exact ⟨mode, by simp [events, found]⟩

theorem begun_drain (now fuel : Nat) (readings : List Reading) (out : List SinkEvent)
    (s : Session) (begun : Begun readings out s) :
    Begun (readings ++ drainReadings now fuel s) (out ++ (drain now fuel s).2)
      (drain now fuel s).1 := by
  induction fuel generalizing readings out s with
  | zero => simpa [drainReadings, drain] using begun
  | succ fuel ih =>
      rw [drain, drainReadings]
      cases found : parse s.rtspBuf with
      | error cause =>
          simp only [List.append_nil]
          exact begun_more readings out _ s _ begun rfl rfl id (by simp [SinkEvent.isStarted])
            (by simp [SinkEvent.media])
      | ok next =>
          cases next with
          | none => simpa using begun
          | some message =>
              obtain ⟨m, used⟩ := message
              have left : Begun readings out { s with rtspBuf := s.rtspBuf.drop used } :=
                ⟨begun.offered, begun.played, begun.moded, begun.starts, begun.live, begun.first,
                  begun.started⟩
              have heard : Begun (readings ++ [⟨s.negotiation, m, now⟩])
                  (out ++ ({ s with rtspBuf := s.rtspBuf.drop used }.drive
                    (s.negotiation.onMessageAt m now)).2)
                  ({ s with rtspBuf := s.rtspBuf.drop used }.drive
                    (s.negotiation.onMessageAt m now)).1 := by
                cases up : Reading.setsUp ⟨s.negotiation, m, now⟩ with
                | false => exact begun_plain readings out _ _ left rfl up
                | true => exact begun_setUp readings out _ _ left rfl up
              simpa using ih _ _ _ heard

theorem begun_checkLoss (readings : List Reading) (out : List SinkEvent) (s : Session)
    (lost now : Nat) (begun : Begun readings out s) :
    Begun readings (out ++ (s.checkLoss lost now).2) (s.checkLoss lost now).1 := by
  unfold checkLoss
  split
  · have counted : Begun readings out { s with lostAtLastCheck := lost } :=
      ⟨begun.offered, begun.played, begun.moded, begun.starts, begun.live, begun.first,
        begun.started⟩
    unfold Negotiation.requestIdr
    split <;> exact begun_drive readings out _ _ counted rfl rfl (by simp)
  · simpa using begun

theorem begun_sampleLadder (readings : List Reading) (out : List SinkEvent) (s : Session)
    (lost now : Nat) (begun : Begun readings out s) :
    Begun readings (out ++ (s.sampleLadder lost now).2) (s.sampleLadder lost now).1 := by
  have sampled : Begun readings out { s with ladder := (s.ladder.sample lost now).1 } :=
    ⟨begun.offered, begun.played, begun.moded, begun.starts, begun.live, begun.first,
      begun.started⟩
  unfold sampleLadder
  dsimp only
  split
  · unfold Negotiation.requestBitrate
    split <;> exact begun_drive readings out _ _ sampled rfl rfl (by simp)
  · simpa using sampled

theorem begun_datagram (readings : List Reading) (out : List SinkEvent) (s : Session)
    (bytes : List UInt8) (now : Nat) (begun : Begun readings out s) :
    Begun readings (out ++ (s.step (.datagram bytes now)).2) (s.step (.datagram bytes now)).1 := by
  cases read : s.packetOf bytes with
  | none => simpa [datagram_unread s bytes now read] using begun
  | some packet =>
      have playing : s.playing = true := by
        by_contra idle
        simp [packetOf, idle] at read
      have taken : Begun readings (out ++ (s.takeMedia packet now).2)
          (s.takeMedia packet now).1 := by
        refine begun_more readings out _ s (s.takeMedia packet now).1 begun rfl rfl id ?_
          (fun _ => playing)
        intro event member
        obtain ⟨unit, _, rfl⟩ := List.mem_map.mp member
        cases unit <;> rfl
      rw [datagram_read s bytes now packet read]
      have checked := begun_checkLoss _ _ _ (s.takeMedia packet now).1.lost now taken
      have sampled := begun_sampleLadder _ _ _ (s.takeMedia packet now).1.lost now checked
      simpa only [List.append_assoc] using sampled

theorem begun_tick (readings : List Reading) (out : List SinkEvent) (s : Session) (now : Nat)
    (begun : Begun readings out s) :
    Begun readings (out ++ (s.step (.tick now)).2) (s.step (.tick now)).1 := by
  cases silent : s.silentAt now with
  | true =>
      rw [tick_silent s now silent]
      exact begun_more readings out _ s _ begun rfl rfl (fun playing => by cases playing)
        (by simp [SinkEvent.isStarted]) (by simp [SinkEvent.media])
  | false =>
      rw [tick_heard s now silent]
      dsimp only
      have sampled := begun_sampleLadder readings out s s.lost now begun
      have branch := Negotiation.ticked (s.sampleLadder s.lost now).1.negotiation now
      generalize (s.sampleLadder s.lost now).1.negotiation.tick now = result at branch
      have ticked := begun_drive readings _ _ result sampled (by cases branch <;> rfl)
        (by cases branch <;> rfl) (by cases branch <;> simp)
      simpa only [List.append_assoc] using ticked

theorem begun_step (readings : List Reading) (out : List SinkEvent) (s : Session)
    (event : SessionEvent) (begun : Begun readings out s) :
    Begun (readings ++ s.readingsAt event) (out ++ (s.step event).2) (s.step event).1 := by
  cases event with
  | rtspBytes bytes now =>
      apply begun_drain
      exact ⟨begun.offered, begun.played, begun.moded, begun.starts, begun.live, begun.first,
        begun.started⟩
  | datagram bytes now => simpa [readingsAt] using begun_datagram readings out s bytes now begun
  | tick now => simpa [readingsAt] using begun_tick readings out s now begun
  | decodeError now =>
      simp only [readingsAt, List.append_nil, step, noteDecodeError, Negotiation.requestIdr]
      split <;> exact begun_drive readings out _ _ begun rfl rfl (by simp)

theorem begun_run (events : List SessionEvent) (past : List Reading) (out : List SinkEvent)
    (s : Session) (begun : Begun past out s) :
    Begun (past ++ s.readings events) (out ++ (outputs step s events).flatten)
      (final step s events) := by
  induction events generalizing past out s with
  | nil => simpa [readings] using begun
  | cons event events ih =>
      have next := ih _ _ _ (begun_step past out s event begun)
      simpa [readings] using next

/-- How a run has to begin: a mode at every `Play`, a start before all media, and one of each. -/
structure Begins (caps : Capabilities) (sessionId : String) (events : List SessionEvent) :
    Prop where
  moded : ∀ chosen ∈ plays ((new caps sessionId).readings events), chosen.isSome = true
  first : StartsFirst (outputs step (new caps sessionId) events).flatten
  once : (plays ((new caps sessionId).readings events)).length ≤ 1
  startedOnce : (outputs step (new caps sessionId) events).flatten.countP SinkEvent.isStarted ≤ 1

/-- A run begins as it has to exactly if a format was picked before the set-up was accepted. -/
theorem begins_iff (caps : Capabilities) (sessionId : String) (events : List SessionEvent) :
    Begins caps sessionId events ↔ Offered ((new caps sessionId).readings events) := by
  have begun := begun_run events [] [] _ (begun_new caps sessionId)
  simp only [List.nil_append] at begun
  have once : (plays ((new caps sessionId).readings events)).length ≤ 1 := by
    rw [begun.played]
    exact Bool.toNat_le _
  constructor
  · exact fun begins => begun.moded.mp begins.moded
  · intro offered
    exact ⟨begun.moded.mpr offered, begun.first offered, once, begun.starts.trans once⟩

/-- The set-up is triggered and accepted, and no format was ever picked. -/
theorem begins_without_mode : ¬ ∀ caps sessionId events, Begins caps sessionId events := by
  intro begins
  have moded := (begins oneDisplay "01234567" setUp).moded
  have played : plays ((new oneDisplay "01234567").readings setUp) = [none] := by decide +kernel
  rw [played] at moded
  cases moded none List.mem_cons_self

end Session

end Castr.Miracast
