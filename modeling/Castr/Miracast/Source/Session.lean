import Mathlib.Logic.Function.Basic
import Mathlib.Data.List.Infix
import Castr.Miracast.Source.Caps

/-! The source's half of the Wi-Fi Display exchange, M1 to M7. Times are in nanoseconds. -/

namespace Castr.Miracast

open Castr.Lib.Text
open Castr.Proto (Mode)
open Source

def m2Grace : Nat := 2 * 10 ^ 9
def baseUrl : String := "rtsp://localhost/wfd1.0"

structure SourceConfig where
  mode : Mode
  rtpPort : UInt16
  sessionId : String
  ceilingMbps : Option UInt16
  presentationUrl : String
  deriving DecidableEq, Repr

def SourceConfig.default : SourceConfig where
  mode := .quality
  rtpPort := 5000
  sessionId := "1234567890"
  ceilingMbps := none
  presentationUrl := "rtsp://localhost/wfd1.0/streamid=0"

inductive SourceState where
  | init
  | awaitingCaps
  | configuring
  | awaitingSetup
  | playing
  | done
  deriving DecidableEq, Repr

inductive Pending where
  | m1
  | m3
  | m4
  | m5
  | keepalive
  | teardown
  deriving DecidableEq, Repr

structure SourceSession where
  cfg : SourceConfig
  state : SourceState
  nextCseq : UInt32
  askedCaps : Bool
  m1Answered : Option Nat
  chosen : Option ModeSelection
  sink : Option SinkCaps
  sinkRtpPort : Option UInt16
  pending : UInt32 → Option Pending
  lastHeard : Option Nat
  lastKeepalive : Option Nat

def transportClientPort (value : List Char) : Option UInt16 :=
  (value.splitOn ';').findSome? (fun part =>
    (stripPrefix "client_port=".toList (trim part)).bind (fun rest =>
      (number 10 (2 ^ 16) ((rest.splitOn '-').headD [])).map UInt16.ofNat))

def lowest : Option Nat → Option Nat → Option Nat
  | some left, some right => some (min left right)
  | some left, none => some left
  | none, right => right

namespace SourceSession

def new (cfg : SourceConfig) : SourceSession where
  cfg := cfg
  state := .init
  nextCseq := 1
  askedCaps := false
  m1Answered := none
  chosen := none
  sink := none
  sinkRtpPort := none
  pending := fun _ => none
  lastHeard := none
  lastKeepalive := none

def chosenMode (s : SourceSession) : Option VideoMode := s.chosen.map (fun choice => choice.mode)

def portOfSink (s : SourceSession) : Option UInt16 :=
  s.sinkRtpPort.or (s.sink.map (fun caps => caps.rtpPort))

def expect (s : SourceSession) (kind : Pending) : SourceSession :=
  { s with nextCseq := s.nextCseq + 1, pending := Function.update s.pending s.nextCseq (some kind) }

def m1 (s : SourceSession) : Message :=
  (request "OPTIONS" "*" s.nextCseq "").addHeader "Require" "org.wfa.wfd1.0"

def m3 (s : SourceSession) : Message :=
  request "GET_PARAMETER" baseUrl s.nextCseq
    "wfd_video_formats\r\nwfd_audio_codecs\r\nwfd_content_protection\r\nwfd_client_rtp_ports\r\n"

def masks (choice : ModeSelection) : UInt32 × UInt32 × UInt32 :=
  match choice.table with
  | .cea => (choice.bit, 0, 0)
  | .vesa => (0, choice.bit, 0)
  | .hh => (0, 0, choice.bit)

def m4Body (cfg : SourceConfig) (choice : ModeSelection) : String :=
  let (cea, vesa, hh) := masks choice
  "wfd_video_formats: 00 00 " ++ formatFields choice.profile choice.level cea vesa hh ++ "\r\n" ++
  "wfd_audio_codecs: LPCM 00000002 00\r\n" ++
  "wfd_presentation_URL: " ++ cfg.presentationUrl ++ " none\r\n" ++
  "wfd_client_rtp_ports: RTP/AVP/UDP;unicast " ++ toString cfg.rtpPort.toNat ++ " 0 mode=play\r\n"

def m4 (s : SourceSession) (choice : ModeSelection) : Message :=
  request "SET_PARAMETER" baseUrl s.nextCseq (m4Body s.cfg choice)

def m5 (s : SourceSession) : Message :=
  request "SET_PARAMETER" baseUrl s.nextCseq "wfd_trigger_method: SETUP\r\n"

def keepalive (s : SourceSession) : Message :=
  (request "GET_PARAMETER" s.cfg.presentationUrl s.nextCseq "").addHeader "Session" s.cfg.sessionId

def teardownRequest (s : SourceSession) : Message :=
  (request "TEARDOWN" s.cfg.presentationUrl s.nextCseq "").addHeader "Session" s.cfg.sessionId

def responseWithSession (s : SourceSession) (cseq : UInt32) : Message :=
  (response 200 cseq "").addHeader "Session" s.cfg.sessionId

def setupAnswer (s : SourceSession) (cseq : UInt32) : Message :=
  (s.responseWithSession cseq).addHeader "Transport"
    ("RTP/AVP/UDP;unicast;client_port=" ++ toString (s.portOfSink.getD 5000).toNat ++
      ";server_port=" ++ toString s.cfg.rtpPort.toNat)

def start (s : SourceSession) : SourceSession × List Action :=
  ({ s.expect .m1 with state := .awaitingCaps }, [.send s.m1])

def askCapabilities (s : SourceSession) : SourceSession := { s.expect .m3 with askedCaps := true }

/-- The `SETUP` names the port of the sink, unless it cannot be read. -/
def notePort (s : SourceSession) (m : Message) : SourceSession :=
  match transportClientPort ((m.header "transport").getD "").toList with
  | some port => { s with sinkRtpPort := some port }
  | none => s

def onRequest (s : SourceSession) (method : String) (m : Message) : SourceSession × List Action :=
  let cseq := m.cseq.getD 0
  if method = "OPTIONS" then
    let ok := (response 200 cseq "").addHeader "Public" Negotiation.supported
    if s.askedCaps = false ∧ s.m1Answered.isSome then (s.askCapabilities, [.send ok, .send s.m3])
    else (s, [.send ok])
  else if method = "SETUP" then
    ({ s.notePort m with state := .awaitingSetup }, [.send ((s.notePort m).setupAnswer cseq)])
  else if method = "PLAY" then
    ({ s with state := .playing }, [.send (s.responseWithSession cseq), .play])
  else if method = "TEARDOWN" then
    ({ s with state := .done }, [.send (s.responseWithSession cseq),
      .teardown "session: the display ended the session"])
  else if method = "SET_PARAMETER" then
    (s, .send (s.responseWithSession cseq) ::
      ((if "wfd_idr_request".toList <:+: m.body.toList then [.keyframe] else []) ++
        (parseMaxBitrateKbps m.body).toList.map Action.bitrate))
  else if method = "GET_PARAMETER" ∨ method = "PAUSE" then
    (s, [.send (s.responseWithSession cseq)])
  else (s, [.send (response 200 cseq "")])

def ceilingOf (cfg : SourceConfig) (sink : SinkCaps) : Option Nat :=
  lowest (cfg.ceilingMbps.map UInt16.toNat)
    (sink.maxBitrateKbps.map (fun kbps => kbps.toNat / 1000 % 2 ^ 16))

/-- What is chosen of a display's capabilities, or why nothing is. -/
def choose (cfg : SourceConfig) (body : String) : Except String (SinkCaps × ModeSelection) :=
  match Source.parse body with
  | .error _ => .error "negotiation: the display sent capabilities we could not read"
  | .ok sink =>
      match chooseSelection sink
          (ourModes cfg.mode ((ceilingOf cfg sink).map (fun total => total - 3))) with
      | .error _ => .error "negotiation: no video format in common"
      | .ok choice =>
          if sink.lpcmModes.toNat.testBit 1 = false then
            .error "negotiation: no LPCM audio format in common"
          else if sink.contentProtection.isSome then
            .error "negotiation: the display requires unsupported content protection"
          else .ok (sink, choice)

def onCapabilities (s : SourceSession) (m : Message) : SourceSession × List Action :=
  match choose s.cfg m.body with
  | .error reason => (s, [.teardown reason])
  | .ok (sink, choice) =>
      ({ s.expect .m4 with chosen := some choice, sink := some sink, state := .configuring },
        [.send (s.m4 choice)])

def settle (s : SourceSession) (cseq : UInt32) : SourceSession :=
  { s with pending := Function.update s.pending cseq none }

def onResponse (s : SourceSession) (status : Nat) (m : Message) (now : Nat) :
    SourceSession × List Action :=
  match m.cseq with
  | none => (s, [])
  | some cseq =>
      match s.pending cseq with
      | none => (s, [])
      | some kind =>
          if status ≠ 200 then
            (s.settle cseq, [.teardown "negotiation: the display refused a request"])
          else
            match kind with
            | .m1 => ({ s.settle cseq with m1Answered := some now }, [])
            | .m3 => (s.settle cseq).onCapabilities m
            | .m4 => ({ (s.settle cseq).expect .m5 with state := .awaitingSetup },
                [.send (s.settle cseq).m5])
            | _ => (s.settle cseq, [])

def hear (s : SourceSession) (now : Nat) : SourceSession := { s with lastHeard := some now }

def onMessageAt (s : SourceSession) (m : Message) (now : Nat) : SourceSession × List Action :=
  match m.start with
  | .request method _ => (s.hear now).onRequest method m
  | .response status _ => (s.hear now).onResponse status m now

/-- M2 has not come, and the time to wait for it is over. -/
def graceOver (s : SourceSession) (now : Nat) : Bool :=
  !s.askedCaps && s.m1Answered.any (fun answered => m2Grace ≤ now - answered)

def silent (s : SourceSession) (now : Nat) : Bool :=
  s.lastHeard.any (fun heard => keepaliveTimeout < now - heard)

def keepaliveDue (s : SourceSession) (now : Nat) : Bool :=
  s.lastKeepalive.all (fun sent => keepaliveEvery ≤ now - sent)

def tick (s : SourceSession) (now : Nat) : SourceSession × List Action :=
  if s.graceOver now then (s.askCapabilities, [.send s.m3])
  else if s.state ≠ .playing then (s, [])
  else if s.silent now then
    ({ s with state := .done }, [.teardown "session: the display stopped answering"])
  else if s.keepaliveDue now then
    ({ s.expect .keepalive with lastKeepalive := some now }, [.send s.keepalive])
  else (s, [])

def teardown (s : SourceSession) : SourceSession × Message :=
  ({ s.expect .teardown with state := .done }, s.teardownRequest)

end SourceSession

/-- What happens to a source's session once it has started; the caller ends it with `teardown`. -/
inductive SourceEvent where
  | message (m : Message) (now : Nat)
  | tick (now : Nat)
  | teardown
  deriving DecidableEq, Repr

def SourceSession.step (s : SourceSession) : SourceEvent → SourceSession × List Action
  | .message m now => s.onMessageAt m now
  | .tick now => s.tick now
  | .teardown => (s.teardown.1, [.send s.teardown.2])

namespace SourceSession

@[simp] theorem state_hear (s : SourceSession) (now : Nat) : (s.hear now).state = s.state := rfl
@[simp] theorem chosen_hear (s : SourceSession) (now : Nat) : (s.hear now).chosen = s.chosen := rfl
@[simp] theorem pending_hear (s : SourceSession) (now : Nat) :
    (s.hear now).pending = s.pending := rfl
@[simp] theorem cfg_hear (s : SourceSession) (now : Nat) : (s.hear now).cfg = s.cfg := rfl

@[simp] theorem method_m1 (s : SourceSession) : s.m1.method = some "OPTIONS" := rfl

@[simp] theorem method_m3 (s : SourceSession) : s.m3.method = some "GET_PARAMETER" := rfl

@[simp] theorem method_m4 (s : SourceSession) (choice : ModeSelection) :
    (s.m4 choice).method = some "SET_PARAMETER" := rfl

@[simp] theorem method_m5 (s : SourceSession) : s.m5.method = some "SET_PARAMETER" := rfl

@[simp] theorem method_keepalive (s : SourceSession) :
    s.keepalive.method = some "GET_PARAMETER" := rfl

@[simp] theorem method_teardownRequest (s : SourceSession) :
    s.teardownRequest.method = some "TEARDOWN" := rfl

@[simp] theorem method_responseWithSession (s : SourceSession) (cseq : UInt32) :
    (s.responseWithSession cseq).method = none := rfl

@[simp] theorem method_setupAnswer (s : SourceSession) (cseq : UInt32) :
    (s.setupAnswer cseq).method = none := rfl

@[simp] theorem cseq_m1 (s : SourceSession) : s.m1.cseq = some s.nextCseq :=
  cseq_request_addHeader ..

@[simp] theorem cseq_m3 (s : SourceSession) : s.m3.cseq = some s.nextCseq := cseq_request ..

@[simp] theorem cseq_m4 (s : SourceSession) (choice : ModeSelection) :
    (s.m4 choice).cseq = some s.nextCseq := cseq_request ..

@[simp] theorem cseq_m5 (s : SourceSession) : s.m5.cseq = some s.nextCseq := cseq_request ..

@[simp] theorem cseq_keepalive (s : SourceSession) : s.keepalive.cseq = some s.nextCseq :=
  cseq_request_addHeader ..

@[simp] theorem cseq_teardownRequest (s : SourceSession) :
    s.teardownRequest.cseq = some s.nextCseq := cseq_request_addHeader ..

inductive Asked (s : SourceSession) (m : Message) :
    String → SourceSession × List Action → Prop where
  | m2 (unasked : s.askedCaps = false) (ready : s.m1Answered.isSome = true) :
      Asked s m "OPTIONS" (s.askCapabilities,
        [.send ((response 200 (m.cseq.getD 0) "").addHeader "Public" Negotiation.supported),
          .send s.m3])
  | options (settled : s.askedCaps = true ∨ s.m1Answered = none) : Asked s m "OPTIONS" (s,
      [.send ((response 200 (m.cseq.getD 0) "").addHeader "Public" Negotiation.supported)])
  | setup : Asked s m "SETUP" ({ s.notePort m with state := .awaitingSetup },
      [.send ((s.notePort m).setupAnswer (m.cseq.getD 0))])
  | play : Asked s m "PLAY" ({ s with state := .playing },
      [.send (s.responseWithSession (m.cseq.getD 0)), .play])
  | teardown : Asked s m "TEARDOWN" ({ s with state := .done },
      [.send (s.responseWithSession (m.cseq.getD 0)),
        .teardown "session: the display ended the session"])
  | told (keyframes : List Action) (shape : ∀ action ∈ keyframes, action = .keyframe)
      (bitrates : List UInt32) : Asked s m "SET_PARAMETER" (s,
        .send (s.responseWithSession (m.cseq.getD 0)) ::
          (keyframes ++ bitrates.map Action.bitrate))
  | polite (method : String) (named : method = "GET_PARAMETER" ∨ method = "PAUSE") :
      Asked s m method (s, [.send (s.responseWithSession (m.cseq.getD 0))])
  | unknown (method : String) (other : method ∉ ["OPTIONS", "SETUP", "PLAY", "TEARDOWN"]) :
      Asked s m method (s, [.send (response 200 (m.cseq.getD 0) "")])

theorem asked (s : SourceSession) (method : String) (m : Message) :
    Asked s m method (s.onRequest method m) := by
  unfold onRequest
  dsimp only
  split
  · rename_i named
    subst named
    split
    · rename_i due
      exact .m2 due.1 due.2
    · rename_i early
      refine .options ?_
      cases asked : s.askedCaps with
      | true => exact Or.inl rfl
      | false => exact Or.inr (by simpa [asked] using early)
  · rename_i first
    split
    · rename_i named
      exact named ▸ .setup
    · rename_i second
      split
      · rename_i named
        exact named ▸ .play
      · rename_i third
        split
        · rename_i named
          exact named ▸ .teardown
        · rename_i fourth
          split
          · rename_i named
            subst named
            refine .told _ ?_ _
            intro action member
            split at member
            · exact List.mem_singleton.mp member
            · cases member
          · split
            · rename_i named
              exact .polite method named
            · exact .unknown method (by simp [first, second, third, fourth])

/-- What an answer does: nothing when it is not awaited; else by what it answers. -/
inductive Answered (s : SourceSession) (m : Message) (now : Nat) :
    Nat → SourceSession × List Action → Prop where
  | foreign (status : Nat) (unawaited : ∀ cseq, m.cseq = some cseq → s.pending cseq = none) :
      Answered s m now status (s, [])
  | refused (status : Nat) (cseq : UInt32) (kind : Pending) (numbered : m.cseq = some cseq)
      (awaited : s.pending cseq = some kind) (bad : status ≠ 200) : Answered s m now status
      (s.settle cseq, [.teardown "negotiation: the display refused a request"])
  | m1 (cseq : UInt32) (numbered : m.cseq = some cseq) (awaited : s.pending cseq = some .m1) :
      Answered s m now 200 ({ s.settle cseq with m1Answered := some now }, [])
  | unfit (cseq : UInt32) (numbered : m.cseq = some cseq) (awaited : s.pending cseq = some .m3)
      (reason : String) (failed : choose s.cfg m.body = .error reason) :
      Answered s m now 200 (s.settle cseq, [.teardown reason])
  | m3 (cseq : UInt32) (numbered : m.cseq = some cseq) (awaited : s.pending cseq = some .m3)
      (sink : SinkCaps) (choice : ModeSelection) (chosen : choose s.cfg m.body =
        .ok (sink, choice)) :
      Answered s m now 200
        ({ (s.settle cseq).expect .m4 with
            chosen := some choice, sink := some sink, state := .configuring },
          [.send ((s.settle cseq).m4 choice)])
  | m4 (cseq : UInt32) (numbered : m.cseq = some cseq) (awaited : s.pending cseq = some .m4) :
      Answered s m now 200 ({ (s.settle cseq).expect .m5 with state := .awaitingSetup },
        [.send (s.settle cseq).m5])
  | noted (cseq : UInt32) (kind : Pending) (numbered : m.cseq = some cseq)
      (awaited : s.pending cseq = some kind) (rest : kind ∉ [.m1, .m3, .m4]) :
      Answered s m now 200 (s.settle cseq, [])

theorem answered_awaited (s : SourceSession) (m : Message) (now : Nat) (cseq : UInt32)
    (kind : Pending) (numbered : m.cseq = some cseq) (awaited : s.pending cseq = some kind) :
    Answered s m now 200 (s.onResponse 200 m now) := by
  unfold onResponse
  rw [numbered]
  dsimp only
  rw [awaited]
  cases kind with
  | m1 => exact .m1 cseq numbered awaited
  | m3 =>
      have same : (s.settle cseq).cfg = s.cfg := rfl
      simp only [ne_eq, not_true_eq_false, if_false, onCapabilities, same]
      cases chosen : choose s.cfg m.body with
      | error reason => exact .unfit cseq numbered awaited reason chosen
      | ok choice => exact .m3 cseq numbered awaited choice.1 choice.2 chosen
  | m4 => exact .m4 cseq numbered awaited
  | m5 => exact .noted cseq .m5 numbered awaited (by decide)
  | keepalive => exact .noted cseq .keepalive numbered awaited (by decide)
  | teardown => exact .noted cseq .teardown numbered awaited (by decide)

theorem answered (s : SourceSession) (status : Nat) (m : Message) (now : Nat) :
    Answered s m now status (s.onResponse status m now) := by
  cases numbered : m.cseq with
  | none =>
      have nothing : s.onResponse status m now = (s, []) := by simp [onResponse, numbered]
      rw [nothing]
      exact .foreign status (by simp [numbered])
  | some cseq =>
      cases awaited : s.pending cseq with
      | none =>
          have nothing : s.onResponse status m now = (s, []) := by
            simp [onResponse, numbered, awaited]
          rw [nothing]
          exact .foreign status (by simp [numbered, awaited])
      | some kind =>
          by_cases good : status = 200
          · rw [good]
            exact answered_awaited s m now cseq kind numbered awaited
          · have refusal : s.onResponse status m now =
                (s.settle cseq, [.teardown "negotiation: the display refused a request"]) := by
              simp [onResponse, numbered, awaited, good]
            rw [refusal]
            exact .refused status cseq kind numbered awaited good

inductive Ticked (s : SourceSession) (now : Nat) : SourceSession × List Action → Prop where
  | m3 (finished : s.graceOver now = true) : Ticked s now (s.askCapabilities, [.send s.m3])
  | idle (waits : s.graceOver now = false) (other : s.state ≠ .playing) : Ticked s now (s, [])
  | silent (waits : s.graceOver now = false) (playing : s.state = .playing)
      (late : s.silent now = true) : Ticked s now
      ({ s with state := .done }, [.teardown "session: the display stopped answering"])
  | asks (waits : s.graceOver now = false) (playing : s.state = .playing)
      (heard : s.silent now = false) (due : s.keepaliveDue now = true) : Ticked s now
      ({ s.expect .keepalive with lastKeepalive := some now }, [.send s.keepalive])
  | still (waits : s.graceOver now = false) (playing : s.state = .playing)
      (heard : s.silent now = false) (early : s.keepaliveDue now = false) : Ticked s now (s, [])

theorem ticked (s : SourceSession) (now : Nat) : Ticked s now (s.tick now) := by
  unfold tick
  split
  · rename_i finished
    exact .m3 finished
  · rename_i waits
    rw [Bool.not_eq_true] at waits
    split
    · rename_i other
      exact .idle waits other
    · rename_i playing
      rw [not_not] at playing
      split
      · rename_i late
        exact .silent waits playing late
      · rename_i heard
        rw [Bool.not_eq_true] at heard
        split
        · rename_i due
          exact .asks waits playing heard due
        · rename_i early
          rw [Bool.not_eq_true] at early
          exact .still waits playing heard early

end SourceSession

end Castr.Miracast
