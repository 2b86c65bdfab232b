import Castr.Lib.Duplex
import Castr.Miracast.Script
import Castr.Miracast.Texts

/-! How each end of the exchange keeps to the script. -/

namespace Castr.Miracast

open Castr.Lib.Text
open Castr.Lib.Duplex (Carries)
open Script

def Action.refuses : Action → Bool
  | .teardown _ => true
  | .send m => m.status.any (fun status => status ≠ 200)
  | _ => false

def Polite (out : List Action) : Prop := ∀ action ∈ out, action.refuses = false

theorem polite_one (action : Action) (first : action.refuses = false) : Polite [action] := by
  intro other member
  rw [List.mem_singleton.mp member, first]

theorem polite_two (action second : Action) (first : action.refuses = false)
    (next : second.refuses = false) : Polite [action, second] := by
  intro other member
  rcases List.mem_cons.mp member with rfl | later
  · exact first
  · rw [List.mem_singleton.mp later, next]

def Answer (number : UInt32) (m : Message) : Prop := m.status = some 200 ∧ m.cseq = some number

def transportText (port : UInt16) : String :=
  "RTP/AVP/UDP;unicast;client_port=" ++ toString port.toNat

theorem transportText_port (port : UInt16) :
    transportClientPort (transportText port).toList = some port := transportClientPort_setup port

def upMeans (c : Capabilities) : Up → Message → Prop
  | .okM1, m => Answer 1 m
  | .m2, m => m.method = some "OPTIONS"
  | .capabilities, m => Answer 2 m ∧ m.body = capabilitiesBody c
  | .okM4, m => Answer 3 m
  | .okM5, m => Answer 4 m
  | .setup, m =>
      m.method = some "SETUP" ∧ m.header "transport" = some (transportText c.ports.rtpPort)
  | .play, m => m.method = some "PLAY"

def upAside (late : Prop) (m : Message) : Prop :=
  m.method = some "GET_PARAMETER" ∨ (late ∧ m.status = some 200)

def downMeans (cfg : SourceConfig) : Down → Message → Prop
  | .m1, m => m.method = some "OPTIONS" ∧ m.cseq = some 1
  | .okM2, m => m.status = some 200
  | .m3, m => m.method = some "GET_PARAMETER" ∧ m.cseq = some 2 ∧ trim m.body.toList ≠ []
  | .m4, m => m.method = some "SET_PARAMETER" ∧ m.cseq = some 3 ∧
      m.body = SourceSession.m4Body cfg choice720p30
  | .m5, m => m.method = some "SET_PARAMETER" ∧ m.cseq = some 4 ∧
      m.body = "wfd_trigger_method: SETUP\r\n"

def downAside (late : Prop) (m : Message) : Prop :=
  (m.status = some 200 ∧ Negotiation.sessionOf m ≠ none) ∨
    (late ∧ m.method = some "GET_PARAMETER" ∧ trim m.body.toList = [])

theorem start_request (m : Message) (method : String) (named : m.method = some method) :
    ∃ uri, m.start = .request method uri := by
  cases start : m.start with
  | request name uri =>
      simp only [Message.method, start, Option.some.injEq] at named
      exact ⟨uri, by rw [named]⟩
  | response status reason => simp [Message.method, start] at named

theorem start_response (m : Message) (status : Nat) (named : m.status = some status) :
    ∃ reason, m.start = .response status reason := by
  cases start : m.start with
  | request name uri => simp [Message.status, start] at named
  | response found reason =>
      simp only [Message.status, start, Option.some.injEq] at named
      exact ⟨reason, by rw [named]⟩

namespace SourceSession

theorem onMessageAt_request (s : SourceSession) (m : Message) (now : Nat) (method : String)
    (named : m.method = some method) :
    s.onMessageAt m now = (s.hear now).onRequest method m := by
  obtain ⟨uri, start⟩ := start_request m method named
  simp only [onMessageAt, start]

theorem onMessageAt_response (s : SourceSession) (m : Message) (now status : Nat)
    (named : m.status = some status) :
    s.onMessageAt m now = (s.hear now).onResponse status m now := by
  obtain ⟨reason, start⟩ := start_response m status named
  simp only [onMessageAt, start]

def stateAt : SourceStage → SourceState
  | .waiting | .answered | .asked => .awaitingCaps
  | .configuring => .configuring
  | .triggering | .settled | .prepared => .awaitingSetup
  | .playing => .playing

/-- The one request of a stage that has not been answered. -/
def awaitedAt : SourceStage → Option (UInt32 × Pending)
  | .waiting => some (1, .m1)
  | .asked => some (2, .m3)
  | .configuring => some (3, .m4)
  | .triggering => some (4, .m5)
  | _ => none

def cseqAt : SourceStage → UInt32
  | .waiting | .answered => 2
  | .asked => 3
  | .configuring => 4
  | _ => 5

def table : Option (UInt32 × Pending) → UInt32 → Option Pending
  | none => fun _ => none
  | some (cseq, kind) => Function.update (fun _ => none) cseq (some kind)

structure At (cfg : SourceConfig) (c : Capabilities) (stage : SourceStage) (s : SourceSession) :
    Prop where
  cfg : s.cfg = cfg
  state : s.state = stateAt stage
  unasked : s.askedCaps = true ↔ stage ≠ .waiting ∧ stage ≠ .answered
  answered : s.m1Answered.isSome = true ↔ stage ≠ .waiting
  numbered : stage ≠ .playing → s.nextCseq = cseqAt stage
  awaited : stage ≠ .playing → s.pending = table (awaitedAt stage)
  keepalives : stage = .playing → ∀ cseq kind, s.pending cseq = some kind → kind = .keepalive
  chosen : stage ∉ [.waiting, .answered, .asked] → s.chosen = some choice720p30
  port : stage ∈ [.prepared, .playing] → s.sinkRtpPort = some c.ports.rtpPort

theorem At.hear (cfg : SourceConfig) (c : Capabilities) (stage : SourceStage) (s : SourceSession)
    (now : Nat) (stands : At cfg c stage s) : At cfg c stage (s.hear now) :=
  ⟨stands.cfg, stands.state, stands.unasked, stands.answered, stands.numbered, stands.awaited,
    stands.keepalives, stands.chosen, stands.port⟩

/-- What a source does that comes to a stage: the words it says, and nothing impolite. -/
structure Does (cfg : SourceConfig) (c : Capabilities) (stage : SourceStage) (out : List Down)
    (result : SourceSession × List Action) : Prop where
  stands : At cfg c stage result.1
  speaks : Carries (downAside (stage = .playing)) (downMeans cfg) (sent result.2) out
  polite : Polite result.2
  plays : .play ∈ result.2 → stage = .playing

theorem table_settle (cseq : UInt32) (kind : Pending) :
    Function.update (table (some (cseq, kind))) cseq none = table none := by
  simp [table]

theorem table_self (cseq : UInt32) (kind : Pending) :
    table (some (cseq, kind)) cseq = some kind := by
  simp [table]

theorem does_quiet (cfg : SourceConfig) (c : Capabilities) (stage : SourceStage)
    (s : SourceSession) (stands : At cfg c stage s) : Does cfg c stage [] (s, []) :=
  ⟨stands, .nil, nofun, nofun⟩

theorem hears_okM1 (cfg : SourceConfig) (c : Capabilities) (s : SourceSession) (m : Message)
    (now : Nat) (stands : At cfg c .waiting s) (means : Answer 1 m) :
    Does cfg c .answered [] (s.onMessageAt m now) := by
  have pending : s.pending = table (some (1, .m1)) := stands.awaited (by decide)
  have result : s.onMessageAt m now =
      ({ (s.hear now).settle 1 with m1Answered := some now }, []) := by
    rw [onMessageAt_response s m now 200 means.1]
    simp [onResponse, means.2, pending, table_self]
  rw [result]
  apply does_quiet
  exact {
    cfg := stands.cfg
    state := stands.state
    unasked := stands.unasked.trans (by simp)
    answered := by simp
    numbered := fun _ => stands.numbered (by decide)
    awaited := fun _ => by
      show Function.update s.pending 1 none = table none
      rw [pending, table_settle]
    keepalives := fun late => absurd late (by decide)
    chosen := fun later => absurd (by decide) later
    port := fun later => absurd later (by decide) }

theorem m3_names (s : SourceSession) : trim s.m3.body.toList ≠ [] := by
  have fixed : trim (m3 (new .default)).body.toList ≠ [] := by decide
  exact fixed

theorem hears_m2 (cfg : SourceConfig) (c : Capabilities) (s : SourceSession) (m : Message)
    (now : Nat) (stands : At cfg c .answered s) (means : m.method = some "OPTIONS") :
    Does cfg c .asked [.okM2, .m3] (s.onMessageAt m now) := by
  have known : s.askedCaps = false := by simpa using mt stands.unasked.mp (by simp)
  have unasked : (s.hear now).askedCaps = false := known
  have answered : (s.hear now).m1Answered.isSome = true := stands.answered.mpr (by decide)
  have numbered : (s.hear now).nextCseq = 2 := stands.numbered (by decide)
  have result : s.onMessageAt m now = ((s.hear now).askCapabilities,
      [.send ((response 200 (m.cseq.getD 0) "").addHeader "Public" Negotiation.supported),
        .send (s.hear now).m3]) := by
    rw [onMessageAt_request s m now _ means]
    simp [onRequest, unasked, answered]
  rw [result]
  constructor
  · exact {
      cfg := stands.cfg
      state := stands.state
      unasked := by simp [askCapabilities]
      answered := iff_of_true answered (by decide)
      numbered := fun _ => by
        show (s.hear now).nextCseq + 1 = 3
        rw [numbered]
        rfl
      awaited := fun _ => by
        show Function.update s.pending (s.hear now).nextCseq (some .m3) = _
        rw [numbered, show s.pending = table none from stands.awaited (by decide)]
        rfl
      keepalives := fun late => absurd late (by decide)
      chosen := fun later => absurd (by decide) later
      port := fun later => absurd later (by decide) }
  · refine Carries.word _ _ Down.okM2 _ rfl (Carries.word _ _ Down.m3 _ ⟨rfl, ?_, ?_⟩ .nil)
    · rw [cseq_m3, numbered]
    · exact m3_names _
  · exact polite_two _ _ rfl rfl
  · simp

theorem hears_m2_late (cfg : SourceConfig) (c : Capabilities) (s : SourceSession) (m : Message)
    (now : Nat) (stands : At cfg c .asked s) (means : m.method = some "OPTIONS") :
    Does cfg c .asked [.okM2] (s.onMessageAt m now) := by
  have asked : (s.hear now).askedCaps = true := stands.unasked.mpr (by decide)
  have result : s.onMessageAt m now = (s.hear now,
      [.send ((response 200 (m.cseq.getD 0) "").addHeader "Public" Negotiation.supported)]) := by
    rw [onMessageAt_request s m now _ means]
    simp [onRequest, asked]
  rw [result]
  exact ⟨stands.hear _ _ _ _ now, Carries.word _ _ Down.okM2 _ rfl .nil, polite_one _ rfl, by simp⟩

theorem hears_capabilities (cfg : SourceConfig) (c : Capabilities) (s : SourceSession)
    (m : Message) (now : Nat)
    (fits : choose cfg (capabilitiesBody c) = .ok (display720p30 c, choice720p30))
    (stands : At cfg c .asked s) (means : Answer 2 m ∧ m.body = capabilitiesBody c) :
    Does cfg c .configuring [.m4] (s.onMessageAt m now) := by
  have pending : s.pending = table (some (2, .m3)) := stands.awaited (by decide)
  have numbered : (s.hear now).nextCseq = 3 := stands.numbered (by decide)
  have same : ((s.hear now).settle 2).cfg = cfg := stands.cfg
  have result : s.onMessageAt m now =
      ({ ((s.hear now).settle 2).expect .m4 with
          chosen := some choice720p30, sink := some (display720p30 c), state := .configuring },
        [.send (((s.hear now).settle 2).m4 choice720p30)]) := by
    rw [onMessageAt_response s m now 200 means.1.1]
    simp [onResponse, means.1.2, pending, table_self, onCapabilities, same, means.2, fits]
  rw [result]
  constructor
  · exact {
      cfg := stands.cfg
      state := rfl
      unasked := iff_of_true (stands.unasked.mpr (by decide)) (by decide)
      answered := iff_of_true (stands.answered.mpr (by decide)) (by decide)
      numbered := fun _ => by
        show (s.hear now).nextCseq + 1 = 4
        rw [numbered]
        rfl
      awaited := fun _ => by
        show Function.update (Function.update s.pending 2 none)
          (s.hear now).nextCseq (some .m4) = _
        rw [numbered, pending, table_settle]
        rfl
      keepalives := fun late => absurd late (by decide)
      chosen := fun _ => rfl
      port := fun later => absurd later (by decide) }
  · refine Carries.word _ _ Down.m4 _ ⟨rfl, ?_, ?_⟩ .nil
    · rw [cseq_m4]
      exact congrArg some numbered
    · show m4Body ((s.hear now).settle 2).cfg choice720p30 = _
      rw [same]
  · exact polite_one _ rfl
  · simp

theorem hears_okM4 (cfg : SourceConfig) (c : Capabilities) (s : SourceSession) (m : Message)
    (now : Nat) (stands : At cfg c .configuring s) (means : Answer 3 m) :
    Does cfg c .triggering [.m5] (s.onMessageAt m now) := by
  have pending : s.pending = table (some (3, .m4)) := stands.awaited (by decide)
  have numbered : (s.hear now).nextCseq = 4 := stands.numbered (by decide)
  have result : s.onMessageAt m now =
      ({ ((s.hear now).settle 3).expect .m5 with state := .awaitingSetup },
        [.send ((s.hear now).settle 3).m5]) := by
    rw [onMessageAt_response s m now 200 means.1]
    simp [onResponse, means.2, pending, table_self]
  rw [result]
  constructor
  · exact {
      cfg := stands.cfg
      state := rfl
      unasked := iff_of_true (stands.unasked.mpr (by decide)) (by decide)
      answered := iff_of_true (stands.answered.mpr (by decide)) (by decide)
      numbered := fun _ => by
        show (s.hear now).nextCseq + 1 = 5
        rw [numbered]
        rfl
      awaited := fun _ => by
        show Function.update (Function.update s.pending 3 none)
          (s.hear now).nextCseq (some .m5) = _
        rw [numbered, pending, table_settle]
        rfl
      keepalives := fun late => absurd late (by decide)
      chosen := fun _ => stands.chosen (by decide)
      port := fun later => absurd later (by decide) }
  · refine Carries.word _ _ Down.m5 _ ⟨rfl, ?_, rfl⟩ .nil
    rw [cseq_m5]
    exact congrArg some numbered
  · exact polite_one _ rfl
  · simp

theorem hears_okM5 (cfg : SourceConfig) (c : Capabilities) (s : SourceSession) (m : Message)
    (now : Nat) (stands : At cfg c .triggering s) (means : Answer 4 m) :
    Does cfg c .settled [] (s.onMessageAt m now) := by
  have pending : s.pending = table (some (4, .m5)) := stands.awaited (by decide)
  have result : s.onMessageAt m now = ((s.hear now).settle 4, []) := by
    rw [onMessageAt_response s m now 200 means.1]
    simp [onResponse, means.2, pending, table_self]
  rw [result]
  apply does_quiet
  exact {
    cfg := stands.cfg
    state := stands.state
    unasked := iff_of_true (stands.unasked.mpr (by decide)) (by decide)
    answered := iff_of_true (stands.answered.mpr (by decide)) (by decide)
    numbered := fun _ => stands.numbered (by decide)
    awaited := fun _ => by
      show Function.update s.pending 4 none = table none
      rw [pending, table_settle]
    keepalives := fun late => absurd late (by decide)
    chosen := fun _ => stands.chosen (by decide)
    port := fun later => absurd later (by decide) }

theorem sessionOf_second (m : Message) (number session : String) (rest : List (String × String))
    (shape : m.headers = ("CSeq", number) :: ("Session", session) :: rest) :
    Negotiation.sessionOf m ≠ none := by
  rw [Negotiation.sessionOf, header_rest m "session" "CSeq" number _ shape (by decide),
    header_first _ "session" "Session" session rest rfl (by decide)]
  exact nofun

theorem hears_setup (cfg : SourceConfig) (c : Capabilities) (s : SourceSession) (m : Message)
    (now : Nat) (stands : At cfg c .settled s) (means : m.method = some "SETUP" ∧
      m.header "transport" = some (transportText c.ports.rtpPort)) :
    Does cfg c .prepared [] (s.onMessageAt m now) := by
  have noted : (s.hear now).notePort m =
      { s.hear now with sinkRtpPort := some c.ports.rtpPort } := by
    rw [notePort, means.2, Option.getD_some, transportText_port]
  have result : s.onMessageAt m now =
      ({ (s.hear now).notePort m with state := .awaitingSetup },
        [.send (((s.hear now).notePort m).setupAnswer (m.cseq.getD 0))]) := by
    rw [onMessageAt_request s m now _ means.1]
    simp [onRequest]
  rw [result, noted]
  constructor
  · exact {
      cfg := stands.cfg
      state := rfl
      unasked := iff_of_true (stands.unasked.mpr (by decide)) (by decide)
      answered := iff_of_true (stands.answered.mpr (by decide)) (by decide)
      numbered := fun _ => stands.numbered (by decide)
      awaited := fun _ => stands.awaited (by decide)
      keepalives := fun late => absurd late (by decide)
      chosen := fun _ => stands.chosen (by decide)
      port := fun _ => rfl }
  · exact .aside _ _ _ (Or.inl ⟨rfl, sessionOf_second _ _ _ _ rfl⟩) .nil
  · exact polite_one _ rfl
  · simp

theorem hears_play (cfg : SourceConfig) (c : Capabilities) (s : SourceSession) (m : Message)
    (now : Nat) (stands : At cfg c .prepared s) (means : m.method = some "PLAY") :
    Does cfg c .playing [] (s.onMessageAt m now) := by
  have result : s.onMessageAt m now = ({ s.hear now with state := .playing },
      [.send ((s.hear now).responseWithSession (m.cseq.getD 0)), .play]) := by
    rw [onMessageAt_request s m now _ means]
    simp [onRequest]
  rw [result]
  constructor
  · exact {
      cfg := stands.cfg
      state := rfl
      unasked := iff_of_true (stands.unasked.mpr (by decide)) (by decide)
      answered := iff_of_true (stands.answered.mpr (by decide)) (by decide)
      numbered := fun early => absurd rfl early
      awaited := fun early => absurd rfl early
      keepalives := by
        intro _ cseq kind found
        rw [show ({ s.hear now with state := .playing } : SourceSession).pending = table none from
          stands.awaited (by decide)] at found
        cases found
      chosen := fun _ => stands.chosen (by decide)
      port := fun _ => stands.port (by decide) }
  · exact .aside _ _ _ (Or.inl ⟨rfl, sessionOf_second _ _ _ _ rfl⟩) .nil
  · exact polite_two _ _ rfl rfl
  · exact fun _ => rfl

theorem hears (cfg : SourceConfig) (c : Capabilities) (stage next : SourceStage) (word : Up)
    (out : List Down) (s : SourceSession) (m : Message) (now : Nat)
    (fits : choose cfg (capabilitiesBody c) = .ok (display720p30 c, choice720p30))
    (stands : At cfg c stage s) (means : upMeans c word m)
    (expected : sourceHears stage word = some (next, out)) :
    Does cfg c next out (s.onMessageAt m now) := by
  cases stage <;> cases word <;> cases expected
  · exact hears_okM1 cfg c s m now stands means
  · exact hears_m2 cfg c s m now stands means
  · exact hears_m2_late cfg c s m now stands means
  · exact hears_capabilities cfg c s m now fits stands means
  · exact hears_okM4 cfg c s m now stands means
  · exact hears_okM5 cfg c s m now stands means
  · exact hears_setup cfg c s m now stands means
  · exact hears_play cfg c s m now stands means

theorem hears_aside (cfg : SourceConfig) (c : Capabilities) (stage : SourceStage)
    (s : SourceSession) (m : Message) (now : Nat) (stands : At cfg c stage s)
    (said : upAside (stage = .playing) m) : Does cfg c stage [] (s.onMessageAt m now) := by
  rcases said with asks | ⟨late, answer⟩
  · have result : s.onMessageAt m now =
        (s.hear now, [.send ((s.hear now).responseWithSession (m.cseq.getD 0))]) := by
      rw [onMessageAt_request s m now _ asks]
      simp [onRequest]
    rw [result]
    refine ⟨stands.hear _ _ _ _ now, ?_, ?_, by simp⟩
    · exact .aside _ _ _ (Or.inl ⟨rfl, sessionOf_second _ _ _ _ rfl⟩) .nil
    · exact polite_one _ rfl
  · rw [onMessageAt_response s m now 200 answer]
    have keepalives := stands.keepalives late
    have branch := answered (s.hear now) 200 m now
    generalize (s.hear now).onResponse 200 m now = result at branch
    cases branch with
    | foreign => exact does_quiet cfg c stage _ (stands.hear _ _ _ _ now)
    | refused status cseq kind numbered awaited bad => exact absurd rfl bad
    | noted cseq kind numbered awaited rest =>
        apply does_quiet
        have kept := stands.hear _ _ _ _ now
        refine ⟨kept.cfg, kept.state, kept.unasked, kept.answered, fun early => absurd late early,
          fun early => absurd late early, ?_, kept.chosen, kept.port⟩
        intro _ other kind found
        by_cases same : other = cseq
        · simp [settle, same] at found
        · simp only [settle, Function.update_of_ne same] at found
          exact keepalives other kind found
    | m1 cseq numbered awaited => cases keepalives cseq .m1 awaited
    | unfit cseq numbered awaited => cases keepalives cseq .m3 awaited
    | m3 cseq numbered awaited => cases keepalives cseq .m3 awaited
    | m4 cseq numbered awaited => cases keepalives cseq .m4 awaited

/-- Time makes the source ask without M2, or keep a playing session alive. -/
theorem does_tick (cfg : SourceConfig) (c : Capabilities) (stage : SourceStage)
    (s : SourceSession) (now : Nat) (stands : At cfg c stage s)
    (timely : s.state = .playing → s.silent now = false) :
    Does cfg c stage [] (s.tick now) ∨
      (stage = .answered ∧ Does cfg c .asked [.m3] (s.tick now)) := by
  have branch := ticked s now
  generalize s.tick now = result at branch
  cases branch with
  | idle waits other => exact Or.inl (does_quiet cfg c stage s stands)
  | still waits playing heard early => exact Or.inl (does_quiet cfg c stage s stands)
  | silent waits playing late =>
      rw [timely playing] at late
      cases late
  | m3 finished =>
      simp only [graceOver, Bool.and_eq_true, Bool.not_eq_true'] at finished
      have known : stage = .answered := by
        by_contra other
        have unasked := mt stands.unasked.mpr (by simp [finished.1])
        have waiting : stage = .waiting := by
          by_contra later
          exact unasked ⟨later, other⟩
        have missing : s.m1Answered = none := by
          have none_yet := mt stands.answered.mp (by simp [waiting])
          simpa using none_yet
        simp [missing] at finished
      subst known
      have numbered : s.nextCseq = 2 := stands.numbered (by decide)
      refine Or.inr ⟨rfl, ?_, ?_, ?_, by simp⟩
      · exact {
          cfg := stands.cfg
          state := stands.state
          unasked := by simp [askCapabilities]
          answered := iff_of_true (stands.answered.mpr (by decide)) (by decide)
          numbered := fun _ => by
            show s.nextCseq + 1 = 3
            rw [numbered]
            rfl
          awaited := fun _ => by
            show Function.update s.pending s.nextCseq (some .m3) = _
            rw [numbered, show s.pending = table none from stands.awaited (by decide)]
            rfl
          keepalives := fun late => absurd late (by decide)
          chosen := fun later => absurd (by decide) later
          port := fun later => absurd later (by decide) }
      · refine Carries.word _ _ Down.m3 _ ⟨rfl, ?_, m3_names s⟩ .nil
        rw [cseq_m3, numbered]
      · exact polite_one _ rfl
  | asks waits playing heard due =>
      have late : stage = .playing := by
        have state := stands.state.symm.trans playing
        cases stage <;> first | rfl | cases state
      refine Or.inl ⟨?_, ?_, ?_, by simp⟩
      · refine ⟨stands.cfg, stands.state, stands.unasked, stands.answered,
          fun early => absurd late early, fun early => absurd late early, ?_, stands.chosen,
          stands.port⟩
        intro _ other kind found
        by_cases same : other = s.nextCseq
        · simp only [expect, same, Function.update_self, Option.some.injEq] at found
          exact found.symm
        · simp only [expect, Function.update_of_ne same] at found
          exact stands.keepalives late other kind found
      · have blank : trim (keepalive (new .default)).body.toList = [] := by decide
        exact .aside _ _ _ (Or.inr ⟨late, rfl, blank⟩) .nil
      · exact polite_one _ rfl

end SourceSession

namespace Negotiation

theorem onMessageAt_request (neg : Negotiation) (m : Message) (now : Nat) (method : String)
    (named : m.method = some method) :
    neg.onMessageAt m now = (neg.hear now).onRequest method m := by
  obtain ⟨uri, start⟩ := start_request m method named
  simp only [onMessageAt, start]

theorem onMessageAt_response (neg : Negotiation) (m : Message) (now status : Nat)
    (named : m.status = some status) :
    neg.onMessageAt m now = (neg.hear now).onResponse status m := by
  obtain ⟨reason, start⟩ := start_response m status named
  simp only [onMessageAt, start]

def stateAt : SinkStage → NegState
  | .init => .init
  | .capabilities | .chosen => .capabilities
  | .ready => .ready
  | .playing => .playing

structure At (c : Capabilities) (stage : SinkStage) (neg : Negotiation) : Prop where
  caps : neg.caps = c
  state : neg.state = stateAt stage
  fresh : stage ≠ .playing → neg.peerSession = none
  chosen : stage ∉ [.init, .capabilities] → neg.chosen = some ⟨1280, 720, 30⟩

theorem At.hear (c : Capabilities) (stage : SinkStage) (neg : Negotiation) (now : Nat)
    (stands : At c stage neg) : At c stage (neg.hear now) :=
  ⟨stands.caps, stands.state, stands.fresh, stands.chosen⟩

/-- What a sink does that comes to a stage: the words it says, and nothing impolite. -/
structure Does (c : Capabilities) (late : Prop) (stage : SinkStage) (out : List Up)
    (result : Negotiation × List Action) : Prop where
  stands : At c stage result.1
  speaks : Carries (upAside late) (upMeans c) (sent result.2) out
  polite : Polite result.2

theorem does_quiet (c : Capabilities) (late : Prop) (stage : SinkStage) (neg : Negotiation)
    (stands : At c stage neg) : Does c late stage [] (neg, []) :=
  ⟨stands, .nil, nofun⟩

theorem answer_ignored (c : Capabilities) (late : Prop) (stage : SinkStage) (neg : Negotiation)
    (m : Message) (now : Nat) (stands : At c stage neg) (unready : stage ≠ .ready)
    (answer : m.status = some 200) : Does c late stage [] (neg.onMessageAt m now) := by
  rw [onMessageAt_response neg m now 200 answer]
  have state : (neg.hear now).state ≠ .ready := by
    intro ready
    have same := stands.state.symm.trans ready
    cases stage <;> first | exact unready rfl | cases same
  have branch := answered (neg.hear now) 200 m
  generalize (neg.hear now).onResponse 200 m = result at branch
  cases branch with
  | refused status bad => exact absurd rfl bad
  | lost ready fresh missing => exact absurd ready state
  | plays session ready fresh found => exact absurd ready state
  | ignored settled => exact does_quiet c late stage _ (stands.hear _ _ _ now)

theorem hears_m1 (c : Capabilities) (late : Prop) (neg : Negotiation) (m : Message) (now : Nat)
    (stands : At c .init neg) (means : m.method = some "OPTIONS" ∧ m.cseq = some 1) :
    Does c late .init [.okM1, .m2] (neg.onMessageAt m now) := by
  have result : neg.onMessageAt m now = ((neg.hear now).bump,
      [.send ((response 200 1 "").addHeader "Public" supported), .send (neg.hear now).m2]) := by
    rw [onMessageAt_request neg m now _ means.1]
    simp [onRequest, means.2]
  rw [result]
  refine ⟨⟨stands.caps, stands.state, stands.fresh, stands.chosen⟩, ?_, ?_⟩
  · exact Carries.word _ _ Up.okM1 _ ⟨rfl, cseq_response_addHeader _ _ _ _ _⟩
      (Carries.word _ _ Up.m2 _ rfl .nil)
  · exact polite_two _ _ rfl rfl

theorem hears_m3 (c : Capabilities) (late : Prop) (neg : Negotiation) (m : Message) (now : Nat)
    (stands : At c .init neg) (means : m.method = some "GET_PARAMETER" ∧ m.cseq = some 2 ∧
      trim m.body.toList ≠ []) :
    Does c late .capabilities [.capabilities] (neg.onMessageAt m now) := by
  have result : neg.onMessageAt m now = ({ neg.hear now with state := .capabilities },
      [.send (response 200 2 (capabilitiesBody (neg.hear now).caps))]) := by
    rw [onMessageAt_request neg m now _ means.1]
    simp [onRequest, means.2]
  have same : (neg.hear now).caps = c := stands.caps
  rw [result, same]
  refine ⟨⟨stands.caps, rfl, fun _ => stands.fresh (by decide), fun later =>
    absurd (by decide) later⟩,
    ?_, ?_⟩
  · exact Carries.word _ _ Up.capabilities _ ⟨⟨rfl, cseq_response _ _ _⟩, rfl⟩ .nil
  · exact polite_one _ rfl

theorem hears_m4 (cfg : SourceConfig) (c : Capabilities) (late : Prop) (neg : Negotiation)
    (m : Message) (now : Nat) (plain : '\n' ∉ cfg.presentationUrl.toList)
    (stands : At c .capabilities neg) (means : m.method = some "SET_PARAMETER" ∧ m.cseq = some 3 ∧
      m.body = SourceSession.m4Body cfg choice720p30) :
    Does c late .chosen [.okM4] (neg.onMessageAt m now) := by
  obtain ⟨url, read⟩ := readParameters_m4 (neg.hear now) cfg plain
  have result : neg.onMessageAt m now =
      ({ neg.hear now with chosen := some ⟨1280, 720, 30⟩, presentationUrl := url },
        [.send (response 200 3 "")]) := by
    rw [onMessageAt_request neg m now _ means.1]
    simp [onRequest, onSetParameter, means.2, read]
  rw [result]
  refine ⟨⟨stands.caps, stands.state, fun _ => stands.fresh (by decide), fun _ => rfl⟩, ?_, ?_⟩
  · exact Carries.word _ _ Up.okM4 _ ⟨rfl, cseq_response _ _ _⟩ .nil
  · exact polite_one _ rfl

theorem transport_setup (neg : Negotiation) :
    neg.setup.header "transport" = some (transportText neg.caps.ports.rtpPort) := by
  rw [header_rest neg.setup "transport" "CSeq" (toString neg.nextCseq.toNat)
    [("Transport", transportText neg.caps.ports.rtpPort)] rfl (by decide),
    header_first _ "transport" "Transport" (transportText neg.caps.ports.rtpPort) [] rfl
      (by decide)]

theorem hears_m5 (c : Capabilities) (late : Prop) (neg : Negotiation) (m : Message) (now : Nat)
    (stands : At c .chosen neg) (means : m.method = some "SET_PARAMETER" ∧ m.cseq = some 4 ∧
      m.body = "wfd_trigger_method: SETUP\r\n") :
    Does c late .ready [.okM5, .setup] (neg.onMessageAt m now) := by
  have result : neg.onMessageAt m now = ({ (neg.hear now).bump with state := .ready },
      [.send (response 200 4 ""), .send (neg.hear now).setup]) := by
    rw [onMessageAt_request neg m now _ means.1]
    simp [onRequest, onSetParameter, means.2, readParameters_m5]
  have same : (neg.hear now).caps = c := stands.caps
  rw [result]
  refine ⟨⟨stands.caps, rfl, fun _ => stands.fresh (by decide), fun _ => stands.chosen (by decide)⟩,
    ?_, ?_⟩
  · refine Carries.word _ _ Up.okM5 _ ⟨rfl, cseq_response _ _ _⟩
      (Carries.word _ _ Up.setup _ ⟨rfl, ?_⟩ .nil)
    rw [transport_setup, same]
  · exact polite_two _ _ rfl rfl

theorem hears (cfg : SourceConfig) (c : Capabilities) (late : Prop) (stage next : SinkStage)
    (word : Down) (out : List Up) (neg : Negotiation) (m : Message) (now : Nat)
    (plain : '\n' ∉ cfg.presentationUrl.toList) (stands : At c stage neg)
    (means : downMeans cfg word m) (expected : sinkHears stage word = some (next, out)) :
    Does c late next out (neg.onMessageAt m now) := by
  cases stage <;> cases word <;> cases expected
  · exact hears_m1 c late neg m now stands means
  · exact answer_ignored c late .init neg m now stands nofun means
  · exact hears_m3 c late neg m now stands means
  · exact answer_ignored c late .capabilities neg m now stands nofun means
  · exact hears_m4 cfg c late neg m now plain stands means
  · exact hears_m5 c late neg m now stands means

theorem hears_aside (c : Capabilities) (late : Prop) (stage : SinkStage) (neg : Negotiation)
    (m : Message) (now : Nat) (stands : At c stage neg) (said : downAside late m) :
    Does c late stage [] (neg.onMessageAt m now) ∨
      Does c late (sinkAnswered stage).1 (sinkAnswered stage).2 (neg.onMessageAt m now) := by
  rcases said with ⟨answer, session⟩ | ⟨heard, asks, blank⟩
  · by_cases ready : stage = .ready
    · subst ready
      refine Or.inr ?_
      rw [onMessageAt_response neg m now 200 answer]
      have branch := answered (neg.hear now) 200 m
      generalize (neg.hear now).onResponse 200 m = result at branch
      cases branch with
      | refused status bad => exact absurd rfl bad
      | lost ready fresh missing => exact absurd missing session
      | ignored settled => exact absurd ⟨stands.state, stands.fresh (by decide)⟩ settled
      | plays session ready fresh found =>
          refine ⟨⟨stands.caps, rfl, fun early => absurd rfl early,
            fun _ => stands.chosen (by decide)⟩, ?_, ?_⟩
          · exact Carries.word _ _ Up.play _ rfl .nil
          · exact polite_two _ _ rfl rfl
    · exact Or.inl (answer_ignored c late stage neg m now stands ready answer)
  · refine Or.inl ?_
    have result : neg.onMessageAt m now =
        (neg.hear now, [.send (response 200 (m.cseq.getD 0) "")]) := by
      rw [onMessageAt_request neg m now _ asks]
      simp [onRequest, blank]
    rw [result]
    exact ⟨stands.hear _ _ _ now, .aside _ _ _ (Or.inr ⟨heard, rfl⟩) .nil, polite_one _ rfl⟩

theorem does_tick (c : Capabilities) (late : Prop) (stage : SinkStage) (neg : Negotiation)
    (now : Nat) (stands : At c stage neg)
    (timely : (neg.sinceHeard now).any (fun since => keepaliveTimeout < since) = false) :
    Does c late stage [] (neg.tick now) := by
  have branch := ticked neg now
  generalize neg.tick now = result at branch
  cases branch with
  | still quiet => exact does_quiet c late stage neg stands
  | silent live finished =>
      rw [timely] at finished
      cases finished
  | asks live heard due =>
      refine ⟨⟨stands.caps, stands.state, stands.fresh, stands.chosen⟩,
        .aside _ _ _ (Or.inl (method_keepalive neg)) .nil, polite_one _ ?_⟩
      obtain ⟨uri, start⟩ := start_request _ _ (method_keepalive neg)
      simp [Action.refuses, Message.status, start]

end Negotiation

end Castr.Miracast
