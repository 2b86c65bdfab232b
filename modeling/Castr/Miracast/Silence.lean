import Castr.Lib.Run
import Castr.Lib.Since
import Castr.Miracast.Session

/-! What a silent source does to a sink's session: the ten seconds it may be silent for, and the
source that is not waited for because it never spoke. -/

namespace Castr.Miracast.Session

open Castr.Lib.Run

def EndedIn (out : List SinkEvent) : Prop := ∃ reason, .ended reason ∈ out

theorem endedIn_append (front back : List SinkEvent) :
    EndedIn (front ++ back) ↔ EndedIn front ∨ EndedIn back := by
  simp [EndedIn, List.mem_append, exists_or]

theorem not_endedIn_nil : ¬ EndedIn [] := nofun

theorem endedIn_drive (s : Session) (result : Negotiation × List Action) :
    EndedIn (s.drive result).2 ↔ ∃ reason, .teardown reason ∈ result.2 :=
  exists_congr (fun reason => ended_apply _ result.2 reason)

structure Asleep (s : Session) : Prop where
  state : s.negotiation.state = .init
  heard : s.negotiation.lastHeard = none
  keepalive : s.negotiation.lastKeepalive = none
  idle : s.playing = false

structure Calm (s : Session) (result : Session × List SinkEvent) : Prop where
  heard : result.1.negotiation.lastHeard = s.negotiation.lastHeard
  buffer : result.1.rtspBuf = s.rtspBuf
  done : result.1.negotiation.state = .done → s.negotiation.state = .done ∨ EndedIn result.2
  asleep : Asleep s → Asleep result.1 ∧ ¬ EndedIn result.2

theorem calm_media (s next : Session) (out : List SinkEvent)
    (negotiation : next.negotiation = s.negotiation) (buffer : next.rtspBuf = s.rtspBuf)
    (playing : next.playing = s.playing) (unended : ¬ EndedIn out) : Calm s (next, out) where
  heard := by rw [negotiation]
  buffer := buffer
  done := fun finished => Or.inl (negotiation ▸ finished)
  asleep := fun asleep => ⟨⟨negotiation ▸ asleep.state, negotiation ▸ asleep.heard,
    negotiation ▸ asleep.keepalive, playing ▸ asleep.idle⟩, unended⟩

theorem calm_trans (s : Session) (first second : Session × List SinkEvent) (before : Calm s first)
    (after : Calm first.1 second) : Calm s (second.1, first.2 ++ second.2) where
  heard := after.heard.trans before.heard
  buffer := after.buffer.trans before.buffer
  done := by
    intro finished
    rw [endedIn_append]
    rcases after.done finished with earlier | later
    · exact (before.done earlier).imp_right Or.inl
    · exact Or.inr (Or.inr later)
  asleep := by
    intro asleep
    have middle := before.asleep asleep
    have last := after.asleep middle.1
    rw [endedIn_append]
    exact ⟨last.1, not_or.mpr ⟨middle.2, last.2⟩⟩

theorem calm_drive (s : Session) (result : Negotiation × List Action)
    (heard : result.1.lastHeard = s.negotiation.lastHeard)
    (done : result.1.state = .done →
      s.negotiation.state = .done ∨ ∃ reason, .teardown reason ∈ result.2)
    (quiet : Asleep s → result.1.state = .init ∧ result.1.lastKeepalive = none ∧
      .play ∉ result.2 ∧ ∀ reason, .teardown reason ∉ result.2) : Calm s (s.drive result) where
  heard := by rw [negotiation_drive, heard]
  buffer := rtspBuf_drive s result
  done := by
    rw [negotiation_drive, endedIn_drive]
    exact done
  asleep := by
    intro asleep
    obtain ⟨state, keepalive, unplayed, untorn⟩ := quiet asleep
    refine ⟨⟨?_, ?_, ?_, playing_apply _ _ unplayed asleep.idle⟩, ?_⟩
    · rw [negotiation_drive, state]
    · rw [negotiation_drive, heard, asleep.heard]
    · rw [negotiation_drive, keepalive]
    · rw [endedIn_drive]
      exact fun torn => untorn _ torn.choose_spec

theorem calm_negotiation_tick (s : Session) (now : Nat) :
    Calm s (s.drive (s.negotiation.tick now)) := by
  have branch := Negotiation.ticked s.negotiation now
  generalize s.negotiation.tick now = result at branch
  cases branch with
  | still quiet =>
      exact calm_drive s _ rfl Or.inl (fun asleep => ⟨asleep.state, asleep.keepalive, by simp⟩)
  | silent live late =>
      apply calm_drive s _ rfl
      · exact fun _ => Or.inr ⟨_, List.mem_singleton_self _⟩
      · intro asleep
        simp [Negotiation.sinceHeard, asleep.heard] at late
  | asks live heard due =>
      apply calm_drive s _ rfl Or.inl
      intro asleep
      simp [Negotiation.keepaliveDue, Negotiation.sinceHeard, asleep.keepalive, asleep.heard] at due

theorem calm_requestBitrate (s : Session) (kbps : UInt32) :
    Calm s (s.drive (s.negotiation.requestBitrate kbps)) := by
  unfold Negotiation.requestBitrate
  split
  · rename_i playing
    apply calm_drive s _ rfl Or.inl
    intro asleep
    simp [asleep.state] at playing
  · exact calm_drive s _ rfl Or.inl (fun asleep => ⟨asleep.state, asleep.keepalive, by simp⟩)

theorem calm_requestIdr (s : Session) (now : Nat) :
    Calm s (s.drive (s.negotiation.requestIdr now)) := by
  unfold Negotiation.requestIdr
  split
  · exact calm_drive s _ rfl Or.inl (fun asleep => ⟨asleep.state, asleep.keepalive, by simp⟩)
  · exact calm_drive s _ rfl Or.inl (fun asleep => ⟨asleep.state, asleep.keepalive, by simp⟩)

theorem calm_sampleLadder (s : Session) (lost now : Nat) : Calm s (s.sampleLadder lost now) := by
  unfold sampleLadder
  dsimp only
  split
  · rename_i kbps _
    have sampled : Calm s ({ s with ladder := (s.ladder.sample lost now).1 }, []) :=
      calm_media s _ _ rfl rfl rfl not_endedIn_nil
    exact calm_trans s _ _ sampled (calm_requestBitrate _ kbps)
  · exact calm_media s _ _ rfl rfl rfl not_endedIn_nil

theorem calm_checkLoss (s : Session) (lost now : Nat) : Calm s (s.checkLoss lost now) := by
  unfold checkLoss
  split
  · have counted : Calm s ({ s with lostAtLastCheck := lost }, []) :=
      calm_media s _ _ rfl rfl rfl not_endedIn_nil
    exact calm_trans s _ _ counted (calm_requestIdr _ now)
  · exact calm_media s s _ rfl rfl rfl not_endedIn_nil

theorem calm_takeMedia (s : Session) (packet : Rtp.Packet) (now : Nat) :
    Calm s (s.takeMedia packet now) := by
  refine calm_media s (s.takeMedia packet now).1 _ rfl rfl rfl ?_
  rintro ⟨reason, member⟩
  obtain ⟨unit, _, same⟩ := List.mem_map.mp member
  cases unit <;> cases same

theorem calm_datagram (s : Session) (datagram : List UInt8) (now : Nat) :
    Calm s (s.onRtpDatagramAt datagram now) := by
  have still : Calm s (s, []) := calm_media s s _ rfl rfl rfl not_endedIn_nil
  unfold onRtpDatagramAt
  split
  · split
    · exact still
    · rename_i packet _
      split
      · exact still
      · have taken := calm_takeMedia s packet now
        have checked := calm_trans s _ _ taken
          (calm_checkLoss (s.takeMedia packet now).1 (s.takeMedia packet now).1.lost now)
        exact calm_trans s _ _ checked (calm_sampleLadder _ _ now)
  · exact still

theorem calm_tick (s : Session) (now : Nat) : Calm s (s.tick now) := by
  unfold tick
  split
  · rename_i unseen
    refine ⟨rfl, rfl, Or.inl, ?_⟩
    intro asleep
    simp [asleep.idle] at unseen
  · exact calm_trans s _ _ (calm_sampleLadder s s.lost now) (calm_negotiation_tick _ now)

theorem calm_step (s : Session) (event : SessionEvent)
    (unread : ∀ bytes now, event ≠ .rtspBytes bytes now) : Calm s (s.step event) := by
  cases event with
  | rtspBytes bytes now => exact absurd rfl (unread bytes now)
  | datagram bytes now => exact calm_datagram s bytes now
  | tick now => exact calm_tick s now
  | decodeError now => exact calm_requestIdr s now

theorem ended_late (s : Session) (now heard : Nat) (last : s.negotiation.lastHeard = some heard)
    (late : heard + keepaliveTimeout < now) :
    s.negotiation.state = .done ∨ EndedIn (s.tick now).2 := by
  unfold tick
  split
  · exact Or.inr ⟨_, List.mem_singleton_self _⟩
  · have calm := calm_sampleLadder s s.lost now
    rw [endedIn_append, endedIn_drive]
    have branch := Negotiation.ticked (s.sampleLadder s.lost now).1.negotiation now
    have timedOut : ((s.sampleLadder s.lost now).1.negotiation.sinceHeard now).any
        (fun since => keepaliveTimeout < since) = true := by
      simp only [Negotiation.sinceHeard, calm.heard, last, Option.map_some, Option.any_some,
        decide_eq_true_eq]
      omega
    generalize (s.sampleLadder s.lost now).1.negotiation.tick now = result at branch
    cases branch with
    | still quiet =>
        have finished := quiet.resolve_right (by simp [timedOut])
        exact (calm.done finished).imp_right Or.inl
    | silent live late => exact Or.inr (Or.inr ⟨_, List.mem_singleton_self _⟩)
    | asks live heard => simp [timedOut] at heard

theorem heard_onMessageAt (neg : Negotiation) (m : Message) (now : Nat) :
    (neg.onMessageAt m now).1.lastHeard = some now := by
  have branch := Negotiation.messaged neg m now
  generalize neg.onMessageAt m now = result at branch ⊢
  rcases branch with ⟨method, asked⟩ | ⟨status, answered⟩
  · cases asked <;> rfl
  · cases answered <;> rfl

theorem done_onMessageAt (neg : Negotiation) (m : Message) (now : Nat)
    (finished : (neg.onMessageAt m now).1.state = .done) :
    neg.state = .done ∨ ∃ reason, .teardown reason ∈ (neg.onMessageAt m now).2 := by
  have branch := Negotiation.messaged neg m now
  generalize neg.onMessageAt m now = result at branch finished ⊢
  rcases branch with ⟨method, asked⟩ | ⟨status, answered⟩
  · cases asked with
    | teardown => exact Or.inr ⟨"source sent TEARDOWN", by simp⟩
    | capabilities names => cases finished
    | triggered chosen url known trigger => cases finished
    | _ => exact Or.inl finished
  · cases answered with
    | plays session ready fresh found => cases finished
    | _ => exact Or.inl finished

structure ReadAt (s : Session) (now : Nat) (result : Session × List SinkEvent) : Prop where
  heard : result.1.negotiation.lastHeard = s.negotiation.lastHeard ∨
    result.1.negotiation.lastHeard = some now
  done : result.1.negotiation.state = .done → s.negotiation.state = .done ∨ EndedIn result.2

theorem readAt_drain (now fuel : Nat) (s : Session) : ReadAt s now (drain now fuel s) := by
  induction fuel generalizing s with
  | zero => exact ⟨Or.inl rfl, Or.inl⟩
  | succ fuel ih =>
      unfold drain
      split
      · exact ⟨Or.inl rfl, Or.inl⟩
      · rename_i m used _
        dsimp only
        have later := ih ({ s with rtspBuf := s.rtspBuf.drop used }.drive
          (s.negotiation.onMessageAt m now)).1
        have heard := heard_onMessageAt s.negotiation m now
        refine ⟨Or.inr ?_, ?_⟩
        · have same := later.heard
          rw [negotiation_drive, heard, or_self] at same
          exact same
        · intro finished
          rw [endedIn_append, endedIn_drive]
          rcases later.done finished with first | rest
          · rw [negotiation_drive] at first
            exact (done_onMessageAt s.negotiation m now first).imp_right Or.inl
          · exact Or.inr (Or.inr rest)
      · exact ⟨Or.inl rfl, Or.inl⟩

theorem heard_bytes (s : Session) (bytes : List UInt8) (now : Nat) (m : Message) (used : Nat)
    (found : parse (s.rtspBuf ++ bytes) = .ok (some (m, used))) :
    (s.onRtspBytesAt bytes now).1.negotiation.lastHeard = some now := by
  unfold onRtspBytesAt
  cases size : (s.rtspBuf ++ bytes).length with
  | zero =>
      rw [List.length_eq_zero_iff.mp size] at found
      cases found
  | succ fuel =>
      simp only [drain, found]
      have later := (readAt_drain now fuel ({ s with
        rtspBuf := (s.rtspBuf ++ bytes).drop used }.drive
          (s.negotiation.onMessageAt m now)).1).heard
      rw [negotiation_drive, heard_onMessageAt, or_self] at later
      exact later

theorem waiting_bytes (s : Session) (bytes : List UInt8) (now : Nat)
    (waits : parse (s.rtspBuf ++ bytes) = .ok none) :
    s.onRtspBytesAt bytes now = ({ s with rtspBuf := s.rtspBuf ++ bytes }, []) := by
  unfold onRtspBytesAt
  cases (s.rtspBuf ++ bytes).length with
  | zero => rfl
  | succ fuel => simp only [drain, waits]

theorem malformed_bytes (s : Session) (bytes : List UInt8) (now : Nat) (cause : ParseError)
    (bad : parse (s.rtspBuf ++ bytes) = .error cause) :
    s.onRtspBytesAt bytes now = ({ s with rtspBuf := [] }, [.ended "malformed RTSP"]) := by
  unfold onRtspBytesAt
  cases size : (s.rtspBuf ++ bytes).length with
  | zero =>
      rw [List.length_eq_zero_iff.mp size] at bad
      cases bad
  | succ fuel => simp only [drain, bad]

/-- A session, with its first tick and the last message it was sent. -/
structure Timed where
  session : Session
  firstTick : Option Nat
  lastMessage : Option Nat

def completes (s : Session) : SessionEvent → Option Nat
  | .rtspBytes bytes now =>
      match parse (s.rtspBuf ++ bytes) with
      | .ok (some _) => some now
      | _ => none
  | _ => none

def tickTime : SessionEvent → Option Nat
  | .tick now => some now
  | _ => none

def watch (w : Timed) (event : SessionEvent) : Timed × List SinkEvent :=
  (⟨(w.session.step event).1, w.firstTick.or (tickTime event),
      (completes w.session event).or w.lastMessage⟩, (w.session.step event).2)

def begun (caps : Capabilities) (sessionId : String) : Timed := ⟨new caps sessionId, none, none⟩

/-- Everything a session has said by the end of a run. -/
def emitted (start : Timed) (events : List SessionEvent) : List SinkEvent :=
  (outputs watch start events).flatten

/-- Ten seconds have gone by since the first tick and since the last message. -/
def Silent (w : Timed) (now : Nat) : Prop :=
  (∃ first, w.firstTick = some first ∧ first + 10 * 10 ^ 9 < now) ∧
    ∀ heard, w.lastMessage = some heard → heard + 10 * 10 ^ 9 < now

/-- Every tick after such a silence finds the session ended, or ends it. -/
def Expires (start : Timed) (events : List SessionEvent) : Prop :=
  ∀ front now back, events = front ++ .tick now :: back → Silent (final watch start front) now →
    EndedIn (emitted start (front ++ [.tick now]))

def received (events : List SessionEvent) : List UInt8 :=
  events.flatMap (fun event =>
    match event with
    | .rtspBytes bytes _ => bytes
    | _ => [])

/-- The source has sent one message, or what can be none. -/
def Heard (events : List SessionEvent) : Prop :=
  ∃ early bytes now later, events = early ++ .rtspBytes bytes now :: later ∧
    parse (received early ++ bytes) ≠ .ok none

theorem heard_snoc (front : List SessionEvent) (event : SessionEvent) :
    Heard (front ++ [event]) ↔ Heard front ∨
      ∃ bytes now, event = .rtspBytes bytes now ∧ parse (received front ++ bytes) ≠ .ok none := by
  constructor
  · rintro ⟨early, bytes, now, later, split, found⟩
    rcases Lib.Since.split_snoc split with ⟨rfl, same, rfl⟩ | ⟨rest, rfl, before⟩
    · exact Or.inr ⟨bytes, now, same, found⟩
    · exact Or.inl ⟨early, bytes, now, rest, before, found⟩
  · rintro (⟨early, bytes, now, later, rfl, found⟩ | ⟨bytes, now, rfl, found⟩)
    · exact ⟨early, bytes, now, later ++ [event], by simp, found⟩
    · exact ⟨front, bytes, now, [], rfl, found⟩

theorem received_snoc (front : List SessionEvent) (bytes : List UInt8) (now : Nat) :
    received (front ++ [.rtspBytes bytes now]) = received front ++ bytes := by
  simp [received]

theorem received_calm (front : List SessionEvent) (event : SessionEvent)
    (unread : ∀ bytes now, event ≠ .rtspBytes bytes now) :
    received (front ++ [event]) = received front := by
  cases event with
  | rtspBytes bytes now => exact absurd rfl (unread bytes now)
  | _ => simp [received]

theorem emitted_snoc (start : Timed) (front : List SessionEvent) (event : SessionEvent) :
    emitted start (front ++ [event]) =
      emitted start front ++ ((final watch start front).session.step event).2 := by
  rw [emitted, outputs_snoc, List.flatten_append]
  simp [emitted, watch]

/-- What a run has come to: heard its source, or still waiting for it. -/
structure Sound (said : List SinkEvent) (front : List SessionEvent) (w : Timed) : Prop where
  heard : w.session.negotiation.lastHeard = w.lastMessage
  done : w.session.negotiation.state = .done → EndedIn said
  woken : Heard front → w.lastMessage ≠ none ∨ EndedIn said
  asleep : ¬ Heard front →
    Asleep w.session ∧ w.session.rtspBuf = received front ∧ ¬ EndedIn said

theorem sound_calm (said : List SinkEvent) (front : List SessionEvent) (w : Timed)
    (event : SessionEvent) (unread : ∀ bytes now, event ≠ .rtspBytes bytes now)
    (sound : Sound said front w) :
    Sound (said ++ (w.session.step event).2) (front ++ [event]) (watch w event).1 := by
  have calm := calm_step w.session event unread
  have silent : completes w.session event = none := by
    cases event with
    | rtspBytes bytes now => exact absurd rfl (unread bytes now)
    | _ => rfl
  have kept : Heard (front ++ [event]) ↔ Heard front := by
    rw [heard_snoc, or_iff_left]
    rintro ⟨bytes, now, same, _⟩
    exact unread bytes now same
  constructor
  · simp only [watch, silent, Option.none_or]
    exact calm.heard.trans sound.heard
  · intro finished
    rw [endedIn_append]
    rcases calm.done finished with before | now
    · exact Or.inl (sound.done before)
    · exact Or.inr now
  · simp only [watch, silent, Option.none_or, kept, endedIn_append]
    exact fun heard => (sound.woken heard).imp_right Or.inl
  · rw [kept]
    intro unheard
    obtain ⟨asleep, buffer, unended⟩ := sound.asleep unheard
    have later := calm.asleep asleep
    rw [endedIn_append, received_calm front event unread]
    exact ⟨later.1, calm.buffer.trans buffer, not_or.mpr ⟨unended, later.2⟩⟩

theorem sound_bytes (said : List SinkEvent) (front : List SessionEvent) (w : Timed)
    (bytes : List UInt8) (now : Nat) (sound : Sound said front w) :
    Sound (said ++ (w.session.onRtspBytesAt bytes now).2) (front ++ [.rtspBytes bytes now])
      (watch w (.rtspBytes bytes now)).1 := by
  have buffered (unheard : ¬ Heard front) :
      w.session.rtspBuf ++ bytes = received front ++ bytes := by
    rw [(sound.asleep unheard).2.1]
  have read := readAt_drain now (w.session.rtspBuf ++ bytes).length
    { w.session with rtspBuf := w.session.rtspBuf ++ bytes }
  have done (finished : (w.session.onRtspBytesAt bytes now).1.negotiation.state = .done) :
      EndedIn (said ++ (w.session.onRtspBytesAt bytes now).2) := by
    rw [endedIn_append]
    exact (read.done finished).imp_left sound.done
  cases parsed : parse (w.session.rtspBuf ++ bytes) with
  | error cause =>
      have finished := malformed_bytes w.session bytes now cause parsed
      have ended : EndedIn (said ++ (w.session.onRtspBytesAt bytes now).2) := by
        rw [finished, endedIn_append]
        exact Or.inr ⟨_, List.mem_singleton_self _⟩
      refine ⟨?_, done, fun _ => Or.inr ended, ?_⟩
      · simp only [watch, step, finished, completes, parsed, Option.none_or]
        exact sound.heard
      · intro unheard
        rw [heard_snoc, not_or] at unheard
        rw [buffered unheard.1] at parsed
        exact absurd ⟨bytes, now, rfl, by simp [parsed]⟩ unheard.2
  | ok found =>
      cases found with
      | none =>
          have waits := waiting_bytes w.session bytes now parsed
          refine ⟨?_, done, ?_, ?_⟩
          · simp only [watch, step, waits, completes, parsed, Option.none_or]
            exact sound.heard
          · simp only [watch, completes, parsed, Option.none_or, waits, List.append_nil]
            by_cases earlier : Heard front
            · exact fun _ => sound.woken earlier
            · intro heard
              obtain ⟨same, at_, event, bad⟩ :=
                (heard_snoc front _).mp heard |>.resolve_left earlier
              cases event
              rw [← buffered earlier] at bad
              exact absurd parsed bad
          · intro unheard
            rw [heard_snoc, not_or] at unheard
            obtain ⟨asleep, buffer, unended⟩ := sound.asleep unheard.1
            simp only [watch, step, waits, List.append_nil, received_snoc]
            exact ⟨⟨asleep.state, asleep.heard, asleep.keepalive, asleep.idle⟩,
              buffered unheard.1, unended⟩
      | some pair =>
          obtain ⟨m, used⟩ := pair
          refine ⟨?_, done, fun _ => Or.inl ?_, ?_⟩
          · simp only [watch, step, completes, parsed, Option.some_or]
            exact heard_bytes w.session bytes now m used parsed
          · simp [watch, completes, parsed]
          · intro unheard
            rw [heard_snoc, not_or] at unheard
            rw [buffered unheard.1] at parsed
            exact absurd ⟨bytes, now, rfl, by simp [parsed]⟩ unheard.2

theorem sound_run (caps : Capabilities) (sessionId : String) (events : List SessionEvent) :
    Sound (emitted (begun caps sessionId) events) events
      (final watch (begun caps sessionId) events) := by
  apply final_induction watch (begun caps sessionId) events
    (fun front w => Sound (emitted (begun caps sessionId) front) front w)
  · refine ⟨rfl, nofun, ?_, fun _ => ⟨⟨rfl, rfl, rfl, rfl⟩, rfl, not_endedIn_nil⟩⟩
    rintro ⟨early, bytes, now, later, split, _⟩
    simp at split
  · intro front event back split sound
    rw [emitted_snoc]
    cases event with
    | rtspBytes bytes now => exact sound_bytes _ front _ bytes now sound
    | _ => exact sound_calm _ front _ _ nofun sound

/-- A silent source loses the session exactly if it was heard at all. -/
theorem expires_iff_heard (caps : Capabilities) (sessionId : String) (events : List SessionEvent) :
    Expires (begun caps sessionId) events ↔
      ∀ front now back, events = front ++ .tick now :: back →
        Silent (final watch (begun caps sessionId) front) now → Heard front := by
  constructor
  · intro expires front now back split silent
    by_contra unheard
    have ended := expires front now back split silent
    obtain ⟨asleep, _, unended⟩ := (sound_run caps sessionId front).asleep unheard
    rw [emitted_snoc, endedIn_append] at ended
    exact (calm_tick _ now).asleep asleep |>.2 (ended.resolve_left unended)
  · intro heard front now back split silent
    have sound := sound_run caps sessionId front
    rw [emitted_snoc, endedIn_append]
    rcases sound.woken (heard front now back split silent) with spoken | ended
    · obtain ⟨last, noted⟩ := Option.ne_none_iff_exists'.mp spoken
      have late := silent.2 last noted
      rcases ended_late _ now last (sound.heard.trans noted) late with finished | ended
      · exact Or.inl (sound.done finished)
      · exact Or.inr ended
    · exact Or.inl ended

/-- A source that connects and says nothing for an hour. -/
def neverSpoke : List SessionEvent := [.tick 0, .tick (3600 * 10 ^ 9)]

theorem expires_never_spoke :
    ¬ Expires (begun ⟨.only720p30, .lpcm48kStereo, ⟨5000⟩, 8000, true, true⟩ "01234567")
      neverSpoke := by
  intro expires
  have ended := expires [.tick 0] (3600 * 10 ^ 9) [] rfl ⟨⟨0, rfl, by decide⟩, nofun⟩
  obtain ⟨reason, member⟩ := ended
  cases member

end Castr.Miracast.Session
