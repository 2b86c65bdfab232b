import Castr.Lib.Run
import Castr.Lib.Word
import Castr.Miracast.Rtsp
import Castr.Miracast.Wfd

/-! The sink's half of the Wi-Fi Display exchange. Times are in nanoseconds. -/

namespace Castr.Miracast

open Castr.Lib.Text
open Castr.Lib.Word (countOnes trailingZeros)

def keepaliveEvery : Nat := 5 * 10 ^ 9
def keepaliveTimeout : Nat := 10 * 10 ^ 9
def idrMinInterval : Nat := 500 * 10 ^ 6

structure VideoMode where
  width : Nat
  height : Nat
  fps : Nat
  deriving DecidableEq, Repr

def ceaMode (bit : Nat) : Option VideoMode := if bit = 5 then some ⟨1280, 720, 30⟩ else none

inductive NegState where
  | init
  | capabilities
  | ready
  | playing
  | done
  deriving DecidableEq, Repr

inductive Action where
  | send (m : Message)
  | play
  | bitrate (kbps : UInt32)
  | keyframe
  | teardown (reason : String)
  deriving DecidableEq, Repr

def Action.message : Action → Option Message
  | .send m => some m
  | _ => none

def sent (out : List Action) : List Message := out.filterMap Action.message

/-- What a machine asks for itself, not answering anyone. -/
def requests (out : List Action) : List Message := (sent out).filter (fun m => m.method.isSome)

structure Negotiation where
  caps : Capabilities
  sessionId : String
  state : NegState
  nextCseq : UInt32
  presentationUrl : String
  chosen : Option VideoMode
  peerSession : Option String
  lastHeard : Option Nat
  lastKeepalive : Option Nat
  lastIdr : Option Nat
  deriving DecidableEq, Repr

namespace Negotiation

def new (caps : Capabilities) (sessionId : String) : Negotiation where
  caps := caps
  sessionId := sessionId
  state := .init
  nextCseq := 100
  presentationUrl := ""
  chosen := none
  peerSession := none
  lastHeard := none
  lastKeepalive := none
  lastIdr := none

def uri (neg : Negotiation) : String :=
  if neg.presentationUrl = "" then "rtsp://localhost/wfd1.0/" ++ neg.sessionId
  else neg.presentationUrl

def bump (neg : Negotiation) : Negotiation := { neg with nextCseq := neg.nextCseq + 1 }

def withSession (neg : Negotiation) (m : Message) : Message :=
  match neg.peerSession with
  | some session => m.addHeader "Session" session
  | none => m

def supported : String :=
  "org.wfa.wfd1.0, SETUP, TEARDOWN, PLAY, PAUSE, GET_PARAMETER, SET_PARAMETER"

def m2 (neg : Negotiation) : Message :=
  (request "OPTIONS" "*" neg.nextCseq "").addHeader "Require" "org.wfa.wfd1.0"

def setup (neg : Negotiation) : Message :=
  (request "SETUP" neg.uri neg.nextCseq "").addHeader "Transport"
    ("RTP/AVP/UDP;unicast;client_port=" ++ toString neg.caps.ports.rtpPort.toNat)

def playRequest (neg : Negotiation) (session : String) : Message :=
  (request "PLAY" neg.uri neg.nextCseq "").addHeader "Session" session

def keepalive (neg : Negotiation) : Message :=
  neg.withSession (request "GET_PARAMETER" neg.uri neg.nextCseq "")

def bitrateRequest (neg : Negotiation) (kbps : UInt32) : Message :=
  neg.withSession (request "SET_PARAMETER" neg.uri neg.nextCseq
    ("microsoft_max_bitrate: " ++ toString kbps.toNat ++ "\r\n"))

def idrRequest (neg : Negotiation) : Message :=
  neg.withSession (request "SET_PARAMETER" neg.uri neg.nextCseq "wfd_idr_request\r\n")

def parseChosenVideo (value : String) : Option VideoMode :=
  match words value.toList with
  | _ :: _ :: _ :: _ :: ceaText :: vesaText :: hhText :: _ => do
      let cea ← number 16 (2 ^ 32) ceaText
      let vesa ← number 16 (2 ^ 32) vesaText
      let hh ← number 16 (2 ^ 32) hhText
      if vesa ≠ 0 ∨ hh ≠ 0 ∨ countOnes 32 cea ≠ 1 then none else ceaMode (trailingZeros 32 cea)
  | _ => none

def readParameters (neg : Negotiation) (trigger : Option String) :
    List (String × String) → Except Negotiation (Negotiation × Option String)
  | [] => .ok (neg, trigger)
  | (name, value) :: rest =>
      if name = "wfd_video_formats" then
        match parseChosenVideo value with
        | some mode => readParameters { neg with chosen := some mode } trigger rest
        | none => .error neg
      else if name = "wfd_presentation_URL" then
        readParameters
          { neg with presentationUrl := String.ofList ((words value.toList).headD []) } trigger rest
      else if name = "wfd_trigger_method" then
        readParameters neg (some (String.ofList (trim value.toList))) rest
      else readParameters neg trigger rest

def onSetParameter (neg : Negotiation) (cseq : UInt32) (m : Message) : Negotiation × List Action :=
  match neg.readParameters none (parseParameterBody m.body) with
  | .error neg => (neg, [.send (response 400 cseq "")])
  | .ok (neg, trigger) =>
      if trigger = some "SETUP" then
        ({ neg.bump with state := .ready }, [.send (response 200 cseq ""), .send neg.setup])
      else (neg, [.send (response 200 cseq "")])

def onRequest (neg : Negotiation) (method : String) (m : Message) : Negotiation × List Action :=
  let cseq := m.cseq.getD 0
  if method = "OPTIONS" then
    (neg.bump, [.send ((response 200 cseq "").addHeader "Public" supported), .send neg.m2])
  else if method = "GET_PARAMETER" then
    -- M3, or a keep-alive with an empty body
    if trim m.body.toList = [] then (neg, [.send (response 200 cseq "")])
    else ({ neg with state := .capabilities },
      [.send (response 200 cseq (capabilitiesBody neg.caps))])
  else if method = "SET_PARAMETER" then neg.onSetParameter cseq m
  else if method = "TEARDOWN" then
    ({ neg with state := .done }, [.send (response 200 cseq ""), .teardown "source sent TEARDOWN"])
  else (neg, [.send (response 400 cseq "")])

def sessionOf (m : Message) : Option String :=
  (m.header "session").map (fun text =>
    String.ofList (trim ((splitOnce ';' text.toList).elim text.toList (fun parts => parts.1))))

def noSession : String := "SETUP response carried no Session"

/-- Any 200 that comes in `ready` is taken for the answer to `SETUP`. -/
def onResponse (neg : Negotiation) (status : Nat) (m : Message) : Negotiation × List Action :=
  if status ≠ 200 then (neg, [.teardown "source refused a request"])
  else if neg.state = .ready ∧ neg.peerSession = none then
    match sessionOf m with
    | none => (neg, [.teardown noSession])
    | some session =>
        ({ neg.bump with peerSession := some session, state := .playing },
          [.send (neg.playRequest session), .play])
  else (neg, [])

def hear (neg : Negotiation) (now : Nat) : Negotiation := { neg with lastHeard := some now }

def onMessageAt (neg : Negotiation) (m : Message) (now : Nat) : Negotiation × List Action :=
  match m.start with
  | .request method _ => (neg.hear now).onRequest method m
  | .response status _ => (neg.hear now).onResponse status m

def sinceHeard (neg : Negotiation) (now : Nat) : Option Nat :=
  neg.lastHeard.map (fun heard => now - heard)

def keepaliveDue (neg : Negotiation) (now : Nat) : Bool :=
  match neg.lastKeepalive with
  | some sent => keepaliveEvery ≤ now - sent
  | none => (neg.sinceHeard now).any (fun since => keepaliveEvery ≤ since)

def tick (neg : Negotiation) (now : Nat) : Negotiation × List Action :=
  if neg.state = .done then (neg, [])
  else if (neg.sinceHeard now).any (fun since => keepaliveTimeout < since) then
    ({ neg with state := .done }, [.teardown "no keep-alive reply for 10 s"])
  else if neg.keepaliveDue now then
    ({ neg.bump with lastKeepalive := some now }, [.send neg.keepalive])
  else (neg, [])

def requestBitrate (neg : Negotiation) (kbps : UInt32) : Negotiation × List Action :=
  if neg.state = .playing then (neg.bump, [.send (neg.bitrateRequest kbps)]) else (neg, [])

def idrTooSoon (neg : Negotiation) (now : Nat) : Bool :=
  neg.lastIdr.any (fun sent => now - sent < idrMinInterval)

def requestIdr (neg : Negotiation) (now : Nat) : Negotiation × List Action :=
  if neg.idrTooSoon now then (neg, [])
  else ({ neg.bump with lastIdr := some now }, [.send neg.idrRequest])

end Negotiation

inductive NegEvent where
  | message (m : Message) (now : Nat)
  | tick (now : Nat)
  | requestBitrate (kbps : UInt32) (now : Nat)
  | requestIdr (now : Nat)
  deriving DecidableEq, Repr

def Negotiation.step (neg : Negotiation) : NegEvent → Negotiation × List Action
  | .message m now => neg.onMessageAt m now
  | .tick now => neg.tick now
  | .requestBitrate kbps _ => neg.requestBitrate kbps
  | .requestIdr now => neg.requestIdr now

namespace Negotiation

@[simp] theorem method_m2 (neg : Negotiation) : neg.m2.method = some "OPTIONS" := rfl

@[simp] theorem method_setup (neg : Negotiation) : neg.setup.method = some "SETUP" := rfl

@[simp] theorem method_playRequest (neg : Negotiation) (session : String) :
    (neg.playRequest session).method = some "PLAY" := rfl

@[simp] theorem method_withSession (neg : Negotiation) (m : Message) :
    (neg.withSession m).method = m.method := by
  unfold withSession
  split <;> rfl

@[simp] theorem method_keepalive (neg : Negotiation) :
    neg.keepalive.method = some "GET_PARAMETER" := method_withSession neg _

@[simp] theorem method_bitrateRequest (neg : Negotiation) (kbps : UInt32) :
    (neg.bitrateRequest kbps).method = some "SET_PARAMETER" := method_withSession neg _

@[simp] theorem method_idrRequest (neg : Negotiation) :
    neg.idrRequest.method = some "SET_PARAMETER" := method_withSession neg _

@[simp] theorem cseq_m2 (neg : Negotiation) : neg.m2.cseq = some neg.nextCseq :=
  cseq_request_addHeader ..

@[simp] theorem cseq_setup (neg : Negotiation) : neg.setup.cseq = some neg.nextCseq :=
  cseq_request_addHeader ..

@[simp] theorem cseq_playRequest (neg : Negotiation) (session : String) :
    (neg.playRequest session).cseq = some neg.nextCseq := cseq_request_addHeader ..

@[simp] theorem cseq_withSession (neg : Negotiation) (method uri : String) (cseq : UInt32)
    (body : String) : (neg.withSession (request method uri cseq body)).cseq = some cseq := by
  unfold withSession
  split
  · exact cseq_request_addHeader ..
  · exact cseq_request ..

@[simp] theorem cseq_keepalive (neg : Negotiation) : neg.keepalive.cseq = some neg.nextCseq :=
  cseq_withSession ..

@[simp] theorem cseq_bitrateRequest (neg : Negotiation) (kbps : UInt32) :
    (neg.bitrateRequest kbps).cseq = some neg.nextCseq := cseq_withSession ..

@[simp] theorem cseq_idrRequest (neg : Negotiation) : neg.idrRequest.cseq = some neg.nextCseq :=
  cseq_withSession ..

def Known (params : List (String × String)) : Prop :=
  ∀ param ∈ params, param.1 = "wfd_video_formats" → (parseChosenVideo param.2).isSome = true

def triggerOf (params : List (String × String)) : Option String :=
  ((params.filter (fun param => param.1 = "wfd_trigger_method")).getLast?).map
    (fun param => String.ofList (trim param.2.toList))

theorem known_cons (param : String × String) (params : List (String × String)) :
    Known (param :: params) ↔
      (param.1 = "wfd_video_formats" → (parseChosenVideo param.2).isSome = true) ∧
        Known params := by
  simp [Known]

theorem triggerOf_cons (param : String × String) (params : List (String × String)) :
    triggerOf (param :: params) = (triggerOf params).or
      (if param.1 = "wfd_trigger_method" then some (String.ofList (trim param.2.toList))
        else none) := by
  unfold triggerOf
  rw [List.filter_cons]
  split
  · rename_i named
    cases found : (params.filter (fun param => param.1 = "wfd_trigger_method")).getLast? with
    | none =>
        have none_left := List.getLast?_eq_none_iff.mp found
        simp [none_left, of_decide_eq_true named]
    | some last => simp [List.getLast?_cons, found]
  · rename_i other
    simp [of_decide_eq_false (Bool.eq_false_iff.mpr other)]

theorem readParameters_known (neg : Negotiation) (trigger : Option String)
    (params : List (String × String)) (known : Known params) :
    ∃ chosen url, neg.readParameters trigger params =
      .ok ({ neg with chosen := chosen, presentationUrl := url },
        (triggerOf params).or trigger) := by
  induction params generalizing neg trigger with
  | nil => exact ⟨neg.chosen, neg.presentationUrl, rfl⟩
  | cons param params ih =>
      obtain ⟨name, value⟩ := param
      rw [known_cons] at known
      rw [triggerOf_cons]
      simp only [readParameters]
      split
      · rename_i named
        obtain ⟨mode, found⟩ := Option.isSome_iff_exists.mp (known.1 named)
        obtain ⟨chosen, url, read⟩ := ih { neg with chosen := some mode } trigger known.2
        rw [found]
        exact ⟨chosen, url, by simpa [named] using read⟩
      · split
        · rename_i named
          obtain ⟨chosen, url, read⟩ := ih
            { neg with presentationUrl := String.ofList ((words value.toList).headD []) } trigger
            known.2
          exact ⟨chosen, url, by simpa [named] using read⟩
        · split
          · rename_i named
            obtain ⟨chosen, url, read⟩ :=
              ih neg (some (String.ofList (trim value.toList))) known.2
            exact ⟨chosen, url, by simpa [named] using read⟩
          · rename_i other
            obtain ⟨chosen, url, read⟩ := ih neg trigger known.2
            exact ⟨chosen, url, by simpa [other] using read⟩

theorem readParameters_unknown (neg : Negotiation) (trigger : Option String)
    (params : List (String × String)) (unknown : ¬ Known params) :
    ∃ chosen url, neg.readParameters trigger params =
      .error { neg with chosen := chosen, presentationUrl := url } := by
  induction params generalizing neg trigger with
  | nil => exact absurd (fun _ member => absurd member List.not_mem_nil) unknown
  | cons param params ih =>
      obtain ⟨name, value⟩ := param
      rw [known_cons, not_and_or] at unknown
      simp only [readParameters]
      split
      · rename_i named
        cases found : parseChosenVideo value with
        | none => exact ⟨neg.chosen, neg.presentationUrl, rfl⟩
        | some mode =>
            have later := unknown.resolve_left (by simp [found])
            exact ih { neg with chosen := some mode } trigger later
      · rename_i other
        have later := unknown.resolve_left (by simp [other])
        split
        · exact ih { neg with presentationUrl := String.ofList ((words value.toList).headD []) }
            trigger later
        · split
          · exact ih neg (some (String.ofList (trim value.toList))) later
          · exact ih neg trigger later

inductive Asked (neg : Negotiation) (m : Message) : String → Negotiation × List Action → Prop where
  | options : Asked neg m "OPTIONS"
      (neg.bump, [.send ((response 200 (m.cseq.getD 0) "").addHeader "Public" supported),
        .send neg.m2])
  | keepalive (blank : trim m.body.toList = []) : Asked neg m "GET_PARAMETER"
      (neg, [.send (response 200 (m.cseq.getD 0) "")])
  | capabilities (names : trim m.body.toList ≠ []) : Asked neg m "GET_PARAMETER"
      ({ neg with state := .capabilities },
        [.send (response 200 (m.cseq.getD 0) (capabilitiesBody neg.caps))])
  | refused (chosen : Option VideoMode) (url : String)
      (unknown : ¬ Known (parseParameterBody m.body)) : Asked neg m "SET_PARAMETER"
      ({ neg with chosen := chosen, presentationUrl := url },
        [.send (response 400 (m.cseq.getD 0) "")])
  | told (chosen : Option VideoMode) (url : String) (known : Known (parseParameterBody m.body))
      (plain : triggerOf (parseParameterBody m.body) ≠ some "SETUP") : Asked neg m "SET_PARAMETER"
      ({ neg with chosen := chosen, presentationUrl := url },
        [.send (response 200 (m.cseq.getD 0) "")])
  | triggered (chosen : Option VideoMode) (url : String)
      (known : Known (parseParameterBody m.body))
      (trigger : triggerOf (parseParameterBody m.body) = some "SETUP") : Asked neg m "SET_PARAMETER"
      ({ { neg with chosen := chosen, presentationUrl := url }.bump with state := .ready },
        [.send (response 200 (m.cseq.getD 0) ""),
          .send { neg with chosen := chosen, presentationUrl := url }.setup])
  | teardown : Asked neg m "TEARDOWN"
      ({ neg with state := .done },
        [.send (response 200 (m.cseq.getD 0) ""), .teardown "source sent TEARDOWN"])
  | unknown (method : String)
      (other : method ∉ ["OPTIONS", "GET_PARAMETER", "SET_PARAMETER", "TEARDOWN"]) :
      Asked neg m method (neg, [.send (response 400 (m.cseq.getD 0) "")])

theorem asked_setParameter (neg : Negotiation) (m : Message) :
    Asked neg m "SET_PARAMETER" (neg.onSetParameter (m.cseq.getD 0) m) := by
  unfold onSetParameter
  by_cases known : Known (parseParameterBody m.body)
  · obtain ⟨chosen, url, read⟩ := readParameters_known neg none _ known
    rw [read]
    dsimp only
    split
    · rename_i trigger
      exact .triggered chosen url known (by simpa using trigger)
    · rename_i plain
      exact .told chosen url known (by simpa using plain)
  · obtain ⟨chosen, url, read⟩ := readParameters_unknown neg none _ known
    rw [read]
    exact .refused chosen url known

theorem asked (neg : Negotiation) (method : String) (m : Message) :
    Asked neg m method (neg.onRequest method m) := by
  unfold onRequest
  dsimp only
  split
  · rename_i named
    exact named ▸ .options
  · rename_i first
    split
    · rename_i named
      split
      · rename_i blank
        exact named ▸ .keepalive blank
      · rename_i names
        exact named ▸ .capabilities names
    · rename_i second
      split
      · rename_i named
        exact named ▸ asked_setParameter neg m
      · rename_i third
        split
        · rename_i named
          exact named ▸ .teardown
        · rename_i fourth
          exact .unknown method (by simp [first, second, third, fourth])

inductive Answered (neg : Negotiation) (m : Message) :
    Nat → Negotiation × List Action → Prop where
  | refused (status : Nat) (bad : status ≠ 200) :
      Answered neg m status (neg, [.teardown "source refused a request"])
  | lost (ready : neg.state = .ready) (fresh : neg.peerSession = none)
      (missing : sessionOf m = none) : Answered neg m 200 (neg, [.teardown noSession])
  | plays (session : String) (ready : neg.state = .ready) (fresh : neg.peerSession = none)
      (found : sessionOf m = some session) : Answered neg m 200
      ({ neg.bump with peerSession := some session, state := .playing },
        [.send (neg.playRequest session), .play])
  | ignored (settled : ¬ (neg.state = .ready ∧ neg.peerSession = none)) :
      Answered neg m 200 (neg, [])

theorem answered (neg : Negotiation) (status : Nat) (m : Message) :
    Answered neg m status (neg.onResponse status m) := by
  unfold onResponse
  split
  · rename_i bad
    exact .refused status bad
  · rename_i good
    obtain rfl := not_not.mp good
    split
    · rename_i waits
      cases found : sessionOf m with
      | none => exact .lost waits.1 waits.2 found
      | some session => exact .plays session waits.1 waits.2 found
    · rename_i settled
      exact .ignored settled

theorem messaged (neg : Negotiation) (m : Message) (now : Nat) :
    (∃ method, Asked (neg.hear now) m method (neg.onMessageAt m now)) ∨
      ∃ status, Answered (neg.hear now) m status (neg.onMessageAt m now) := by
  unfold onMessageAt
  split
  · exact .inl ⟨_, asked _ _ m⟩
  · exact .inr ⟨_, answered _ _ m⟩

inductive Ticked (neg : Negotiation) (now : Nat) : Negotiation × List Action → Prop where
  | still (quiet : neg.state = .done ∨
      ((neg.sinceHeard now).any (fun since => keepaliveTimeout < since) = false ∧
        neg.keepaliveDue now = false)) : Ticked neg now (neg, [])
  | silent (live : neg.state ≠ .done)
      (late : (neg.sinceHeard now).any (fun since => keepaliveTimeout < since) = true) :
      Ticked neg now ({ neg with state := .done }, [.teardown "no keep-alive reply for 10 s"])
  | asks (live : neg.state ≠ .done)
      (heard : (neg.sinceHeard now).any (fun since => keepaliveTimeout < since) = false)
      (due : neg.keepaliveDue now = true) :
      Ticked neg now ({ neg.bump with lastKeepalive := some now }, [.send neg.keepalive])

theorem ticked (neg : Negotiation) (now : Nat) : Ticked neg now (neg.tick now) := by
  unfold tick
  split
  · rename_i finished
    exact .still (Or.inl finished)
  · rename_i live
    split
    · rename_i late
      exact .silent live late
    · rename_i heard
      split
      · rename_i due
        exact .asks live (Bool.eq_false_iff.mpr heard) due
      · rename_i early
        exact .still (Or.inr ⟨Bool.eq_false_iff.mpr heard, Bool.eq_false_iff.mpr early⟩)

def Issues (neg : Negotiation) (result : Negotiation × List Action) : Prop :=
  (requests result.2 = [] ∧ result.1.nextCseq = neg.nextCseq) ∨
    ∃ m, requests result.2 = [m] ∧ m.cseq = some neg.nextCseq ∧
      result.1.nextCseq = neg.nextCseq + 1

theorem issues_none (neg next : Negotiation) (out : List Action) (none : requests out = [])
    (same : next.nextCseq = neg.nextCseq) : Issues neg (next, out) := Or.inl ⟨none, same⟩

theorem issues_one (neg next : Negotiation) (out : List Action) (m : Message)
    (one : requests out = [m]) (numbered : m.cseq = some neg.nextCseq)
    (moved : next.nextCseq = neg.nextCseq + 1) : Issues neg (next, out) :=
  Or.inr ⟨m, one, numbered, moved⟩

theorem issues_asked (neg : Negotiation) (m : Message) (method : String)
    (result : Negotiation × List Action) (branch : Asked neg m method result) :
    Issues neg result := by
  cases branch with
  | options => exact issues_one neg _ _ _ rfl (cseq_m2 neg) rfl
  | triggered chosen url =>
      exact issues_one neg _ _ { neg with chosen := chosen, presentationUrl := url }.setup rfl
        (cseq_setup _) rfl
  | _ => exact issues_none neg _ _ rfl rfl

theorem issues_answered (neg : Negotiation) (m : Message) (status : Nat)
    (result : Negotiation × List Action) (branch : Answered neg m status result) :
    Issues neg result := by
  cases branch with
  | plays session => exact issues_one neg _ _ _ rfl (cseq_playRequest neg session) rfl
  | _ => exact issues_none neg _ _ rfl rfl

theorem issues_ticked (neg : Negotiation) (now : Nat) (result : Negotiation × List Action)
    (branch : Ticked neg now result) : Issues neg result := by
  cases branch with
  | asks =>
      have one : requests [.send neg.keepalive] = [neg.keepalive] := by
        simp [requests, sent, Action.message]
      exact issues_one neg _ _ _ one (cseq_keepalive neg) rfl
  | _ => exact issues_none neg _ _ rfl rfl

theorem issues (neg : Negotiation) (event : NegEvent) : Issues neg (neg.step event) := by
  cases event with
  | message m now =>
      rcases messaged neg m now with ⟨method, asked⟩ | ⟨status, answered⟩
      · exact issues_asked (neg.hear now) m method _ asked
      · exact issues_answered (neg.hear now) m status _ answered
  | tick now => exact issues_ticked neg now _ (ticked neg now)
  | requestBitrate kbps now =>
      simp only [step, requestBitrate]
      split
      · have one : requests [.send (neg.bitrateRequest kbps)] = [neg.bitrateRequest kbps] := by
          simp [requests, sent, Action.message]
        exact issues_one neg _ _ _ one (cseq_bitrateRequest neg kbps) rfl
      · exact issues_none neg _ _ rfl rfl
  | requestIdr now =>
      simp only [step, requestIdr]
      split
      · exact issues_none neg _ _ rfl rfl
      · have one : requests [.send neg.idrRequest] = [neg.idrRequest] := by
          simp [requests, sent, Action.message]
        exact issues_one neg _ _ _ one (cseq_idrRequest neg) rfl

end Negotiation

end Castr.Miracast
