import Mathlib.Logic.Function.Basic
import Castr.Lib.Halting
import Castr.Proto.Resumption
import Castr.Receiver.Lockout
import Castr.Sender.Cast

/-! A cast and the receiver it casts to, with what is on its way between them. A link may be lost at
any time, with all that was not read yet, and each end learns of it in its own time; the cast makes
another one, and the receiver handles one at a time, other senders' among them. -/

namespace Castr.Receiver

open Castr.Lib
open Castr.Media (Resolution)
open Castr.Proto
open Castr.Sender (Cast Casting)

/-- A link of the cast: whether the receiver has accepted it, and what nobody has read yet. -/
structure Wire where
  taken : Bool
  toReceiver : List ControlMessage
  toSender : List ControlMessage
  deriving DecidableEq, Repr

inductive CastPhase where
  | fresh
  /-- `Hello` is sent; with the cast there was on the link before. -/
  | greeting (cast : Option Cast)
  | casting (cast : Cast)
  | over
  deriving DecidableEq, Repr

structure Wanted where
  native : Resolution
  size : Resolution
  fps : UInt32
  maxBitrate : Option UInt32
  mode : Mode
  deriving DecidableEq, Repr

/-- The links are numbered from 1 on; `current` is the cast's last one. -/
structure Joint where
  net : Network
  serving : Option Nat
  wires : Nat → Wire
  current : Nat
  token : Option Token
  phase : CastPhase

def Phase.listens : Phase → Bool
  | .handshake _ => true
  | .streaming _ => true
  | _ => false

namespace Joint

inductive Event where
  | dials (name : String)
  /-- The cast reads a message; `sent` says whether its own goes out. -/
  | hears (wanted : Wanted) (nowUs : UInt64) (sent : Bool)
  | commands (mode : Mode) (sent : Bool)
  | stops (reason : String)
  | accepts (link : Nat) (peer : Fingerprint) (token : Token)
  | acceptsOther (peer : Fingerprint) (token : Token)
  | reads (nowUs : UInt64) (pin : String) (failAt : Option Nat)
  | readsOther (message : ControlMessage) (nowUs : UInt64) (pin : String) (failAt : Option Nat)
  /-- A message that pairing takes. -/
  | drains
  /-- A report or a request of the streaming loop. -/
  | reports (message : ControlMessage)
  /-- Anything else at the receiver. -/
  | beside (event : Network.Event)
  deriving DecidableEq, Repr

def unused : Wire := ⟨false, [], []⟩

def put (w : Joint) (link : Nat) (wire : Wire) : Joint :=
  { w with wires := Function.update w.wires link wire }

def send (w : Joint) (controls : List ControlMessage) : Joint :=
  let wire := w.wires w.current
  w.put w.current { wire with toReceiver := wire.toReceiver ++ controls }

def leave (w : Joint) (reason : String) : Joint := { w with phase := .over }.send [.goodbye reason]

def dial (w : Joint) (name : String) (cast : Option Cast) : Joint :=
  let w := w.put (w.current + 1) ⟨false, [.hello protocolVersion name w.token], []⟩
  { w with current := w.current + 1, phase := .greeting cast }

/-- A turn of the cast's loop. One that panics drops the link too, only without the goodbye. -/
def turn (w : Joint) (cast : Cast) (event : Castr.Sender.Event) : Joint :=
  match cast.step event with
  | some (next, out) => { w with phase := .casting next }.send out.controls
  | none => w.leave "failed"

def welcomed (w : Joint) (wanted : Wanted) (caps : Capabilities) (sent : Bool) : Joint :=
  match Casting.start wanted.native wanted.size wanted.fps wanted.maxBitrate wanted.mode caps with
  | some casting =>
      if sent then { w with phase := .casting casting.cast }.send [.startStream casting.cast.params]
      else w.leave "failed"
  | none => w.leave "failed"

def hear (w : Joint) (message : ControlMessage) (wanted : Wanted) (nowUs : UInt64) (sent : Bool) :
    Joint :=
  match w.phase with
  | .greeting cast =>
      match message with
      | .helloAck _ caps =>
          match cast with
          | none => w.welcomed wanted caps sent
          | some cast => w.turn cast (.reconnected sent)
      | _ => w.leave "failed"
  | .casting cast =>
      match message with
      | .sessionToken token => { w with token := some token }.turn cast .other
      | .requestKeyframe => w.turn cast .requestKeyframe
      | .stats stats => w.turn cast (.stats stats nowUs sent)
      | .goodbye _ => w.leave "stopped"
      | _ => w.turn cast .other
  | _ => w

def Reported : ControlMessage → Prop
  | .stats _ => True
  | .requestKeyframe => True
  | _ => False

instance (message : ControlMessage) : Decidable (Reported message) := by
  cases message <;> unfold Reported <;> infer_instance

def Beside : Network.Event → Prop
  | .connect _ _ => False
  | .message _ _ _ _ => False
  | _ => True

instance (event : Network.Event) : Decidable (Beside event) := by
  cases event <;> unfold Beside <;> infer_instance

def act (w : Joint) : Event → Option Joint
  | .dials name =>
      match w.phase with
      | .fresh => some (w.dial name none)
      -- a `Hello` that did not go out is followed by another link
      | .greeting cast => some (w.dial name cast)
      | .casting cast => some (w.dial name (some cast))
      | .over => none
  | .hears wanted nowUs sent =>
      let wire := w.wires w.current
      match wire.toSender with
      | message :: rest =>
          some ((w.put w.current { wire with toSender := rest }).hear message wanted nowUs sent)
      | [] => none
  | .commands mode sent =>
      match w.phase with
      | .casting cast => some (w.turn cast (.setMode mode sent))
      | _ => none
  | .stops reason => if w.phase = .over then none else some (w.leave reason)
  | .accepts link peer token =>
      let wire := w.wires link
      if w.net.phase = .accepting ∧ wire.taken = false ∧ 0 < link ∧ link ≤ w.current then
        let net := (w.net.step (.connect peer token)).1
        some { w.put link { wire with taken := true } with net := net, serving := some link }
      else none
  | .acceptsOther peer token =>
      if w.net.phase = .accepting then
        some { w with net := (w.net.step (.connect peer token)).1, serving := none }
      else none
  | .reads nowUs pin failAt => do
      let link ← w.serving
      let wire := w.wires link
      match wire.toReceiver with
      | message :: rest =>
          if w.net.phase.listens then
            let (net, reply) := w.net.step (.message message nowUs pin failAt)
            let toSender := wire.toSender ++ reply.sends
            some { w.put link { wire with toReceiver := rest, toSender := toSender } with
              net := net }
          else none
      | [] => none
  | .readsOther message nowUs pin failAt =>
      if w.serving = none then
        some { w with net := (w.net.step (.message message nowUs pin failAt)).1 }
      else none
  | .drains => do
      let link ← w.serving
      let wire := w.wires link
      if w.net.phase.isPairing then
        some (w.put link { wire with toReceiver := wire.toReceiver.tail })
      else none
  | .reports message => do
      let link ← w.serving
      let wire := w.wires link
      if w.net.phase.isStreaming ∧ Reported message then
        some (w.put link { wire with toSender := wire.toSender ++ [message] })
      else none
  | .beside event =>
      if Beside event then some { w with net := (w.net.step event).1 } else none

def step (w : Joint) (event : Event) : Option (Joint × Unit) := (w.act event).map (fun w => (w, ()))

def begin (net : Network) : Joint := ⟨net, none, fun _ => unused, 0, none, .fresh⟩

end Joint

structure Held where
  params : Option StreamParams
  mode : Mode
  intervalUs : UInt64
  deriving DecidableEq, Repr

def Network.held (r : Network) : Held := ⟨r.session.params, r.jitter.mode, r.jitter.intervalUs⟩

def frameInterval (fps : UInt32) : UInt64 := 1000000 / (max fps 1).toUInt64

def Held.hear (held : Held) : ControlMessage → Held
  | .startStream params => ⟨some params, params.mode, frameInterval params.fps⟩
  | .setMode mode =>
      { held with
        params := held.params.map (fun params => { params with mode := mode }), mode := mode }
  | _ => held

/-- The parameters are the cast's, but for its bitrate, and the picture is buffered by them. -/
def Held.Agrees (held : Held) (params : StreamParams) : Prop :=
  ∃ own, held.params = some own ∧ own = { params with bitrateBps := own.bitrateBps } ∧
    held.mode = params.mode ∧ held.intervalUs = frameInterval params.fps

def Phase.waits : Phase → Bool
  | .handshake _ => true
  | .pairing _ => true
  | _ => false

def Ours : ControlMessage → Prop
  | .hello version _ _ => version = protocolVersion
  | .startStream _ => True
  | .setMode _ => True
  | .goodbye _ => True
  | _ => False

def Welcomes (messages : List ControlMessage) : Prop :=
  ∃ name caps, ControlMessage.helloAck name caps ∈ messages

namespace Network

theorem push_timing (b : Castr.Media.JitterBuffer) (frame : CompleteFrame) (nowUs : UInt64) :
    (b.push frame nowUs).mode = b.mode ∧ (b.push frame nowUs).intervalUs = b.intervalUs := by
  unfold Castr.Media.JitterBuffer.push
  split <;> exact ⟨rfl, rfl⟩

theorem pop_timing (b : Castr.Media.JitterBuffer) (nowUs : UInt64) :
    (b.pop nowUs).buffer.mode = b.mode ∧ (b.pop nowUs).buffer.intervalUs = b.intervalUs := by
  have pops := b.pops nowUs
  generalize b.pop nowUs = popped at pops ⊢
  cases pops with
  | empty => exact ⟨rfl, rfl⟩
  | hold => exact ⟨rfl, rfl⟩
  | jump => exact ⟨rfl, rfl⟩
  | inOrder => exact ⟨rfl, rfl⟩
  | gapWait => exact ⟨rfl, rfl⟩
  | gapAbandoned => exact ⟨rfl, rfl⟩
  | abandoned => exact ⟨rfl, rfl⟩
  | notDue => exact ⟨rfl, rfl⟩
  | panic => exact ⟨rfl, rfl⟩

theorem control_session (r : Network) (message : ControlMessage) (nowUs : UInt64)
    (failAt : Option Nat) :
    (r.control message nowUs failAt).1.session = (r.session.onMessage message nowUs).1 := by
  unfold control
  cases message <;> dsimp only <;> split <;> rfl

theorem control_jitter (r : Network) (message : ControlMessage) (nowUs : UInt64)
    (failAt : Option Nat) :
    (r.control message nowUs failAt).1.jitter = match message with
      | .startStream params => .new params.mode (frameInterval params.fps)
      | .setMode mode => r.jitter.setMode mode
      | _ => r.jitter := by
  unfold control
  cases message <;> dsimp only <;> split <;> rfl

theorem control_goodbye (r : Network) (reason : String) (nowUs : UInt64) (failAt : Option Nat) :
    (r.control (.goodbye reason) nowUs failAt).1.phase = .ending := by
  unfold control
  dsimp only
  rw [if_pos (Bool.or_true _)]

theorem onMessage_streaming (s : ReceiverSession) (message : ControlMessage) (nowUs : UInt64)
    (streaming : s.state.isStreaming = true) (ours : Ours message)
    (stays : ∀ reason, message ≠ .goodbye reason) :
    (s.onMessage message nowUs).1.state.isStreaming = true ∧
      (s.onMessage message nowUs).1.params = match message with
        | .startStream params => some params
        | .setMode mode => s.params.map (fun params => { params with mode := mode })
        | _ => s.params := by
  cases message with
  | hello version name token =>
      obtain rfl : version = protocolVersion := ours
      have greeting := s.greeted protocolVersion name token nowUs
      generalize s.onMessage (.hello protocolVersion name token) nowUs = answer at greeting ⊢
      cases greeting with
      | refused other => exact absurd rfl other
      | fresh own waits => exact ⟨rfl, rfl⟩
      | resumed own since waits known young => exact ⟨rfl, rfl⟩
      | rejected own since waits => simp [waits, ReceiverState.isStreaming] at streaming
      | ignored own busy => exact ⟨streaming, rfl⟩
  | startStream params =>
      rw [ReceiverSession.onMessage, if_pos streaming]
      exact ⟨rfl, rfl⟩
  | setMode mode =>
      rw [ReceiverSession.onMessage, if_pos streaming]
      exact ⟨streaming, rfl⟩
  | goodbye reason => exact absurd rfl (stays reason)
  | _ => cases ours

theorem control_held (r : Network) (message : ControlMessage) (nowUs : UInt64)
    (failAt : Option Nat) (streaming : r.session.state.isStreaming = true) (ours : Ours message)
    (goes : (r.control message nowUs failAt).1.phase.isStreaming = true) :
    (r.control message nowUs failAt).1.session.state.isStreaming = true ∧
      (r.control message nowUs failAt).1.held = r.held.hear message := by
  have stays : ∀ reason, message ≠ .goodbye reason := by
    rintro reason rfl
    rw [control_goodbye] at goes
    cases goes
  obtain ⟨still, params⟩ := onMessage_streaming r.session message nowUs streaming ours stays
  rw [held, control_session, control_jitter, params]
  refine ⟨still, ?_⟩
  cases message <;> rfl

theorem greet_spec (r : Network) (peer : Fingerprint) (version : UInt16) (name : String)
    (token : Option Token) (nowUs : UInt64) (failAt : Option Nat) :
    ((r.greet peer (.hello version name token) nowUs failAt).1.phase.waits = true →
      ¬ Welcomes (r.greet peer (.hello version name token) nowUs failAt).2.sends) ∧
    ((r.greet peer (.hello version name token) nowUs failAt).1.phase.isStreaming = true →
      r.phase.isStreaming = false →
      (r.greet peer (.hello version name token) nowUs failAt).1.session.state.isStreaming =
        true) := by
  have greeting := r.session.greeted version name token nowUs
  rw [greet_session]
  unfold greet
  generalize r.session.onMessage (.hello version name token) nowUs = answer at greeting ⊢
  obtain ⟨session, actions⟩ := answer
  dsimp only
  split
  · exact ⟨nofun, nofun⟩
  · rename_i reply left performed
    split
    · rename_i streams
      split
      · split
        · exact ⟨nofun, nofun⟩
        · exact ⟨by simp [Phase.waits], fun _ _ => streams⟩
      · exact ⟨nofun, nofun⟩
    · rename_i idle
      refine ⟨fun _ => ?_, fun goes quiet => by rw [quiet] at goes; cases goes⟩
      have through := congrArg (fun performed => performed.2.1) performed
      cases greeting with
      | refused other => cases (perform_fail _ failAt rfl).symm.trans through
      | fresh own waits => exact absurd rfl idle
      | resumed own since waits known young => exact absurd rfl idle
      | rejected own since waits => cases (perform_fail _ failAt rfl).symm.trans through
      | ignored own busy =>
          obtain ⟨rfl, -⟩ := Prod.mk.inj performed
          rintro ⟨name, caps, among⟩
          cases among

theorem refuseUnpaired_spec (r : Network) (peer : Fingerprint) (nowUs : UInt64) (pin : String)
    (failAt : Option Nat) :
    (r.refuseUnpaired peer nowUs pin failAt).1.phase.isStreaming = false ∧
      ¬ Welcomes (r.refuseUnpaired peer nowUs pin failAt).2.sends := by
  have refused (message : String) :
      ¬ Welcomes (perform [.send (.error 4 message)] failAt).1.sends := by
    rintro ⟨name, caps, among⟩
    cases failAt with
    | none => cases List.mem_singleton.mp among
    | some n =>
        cases n with
        | zero => cases among
        | succ n => cases List.mem_singleton.mp among
  unfold refuseUnpaired
  split
  · exact ⟨rfl, refused _⟩
  · have never := refused "pairing required"
    split <;> rename_i performed <;> rw [performed] at never <;> exact ⟨rfl, never⟩

/-- The connection loop takes a message. -/
theorem read_spec (r : Network) (message : ControlMessage) (nowUs : UInt64) (pin : String)
    (failAt : Option Nat) (listens : r.phase.listens = true)
    (streams : r.phase.isStreaming = true → r.session.state.isStreaming = true)
    (ours : Ours message) :
    ((r.handle message nowUs pin failAt).1.phase.waits = true → r.phase.waits = true ∧
      ¬ Welcomes (r.handle message nowUs pin failAt).2.sends) ∧
    ((r.handle message nowUs pin failAt).1.phase.isStreaming = true →
      (r.handle message nowUs pin failAt).1.session.state.isStreaming = true ∧
        (r.phase.isStreaming = true →
          (r.handle message nowUs pin failAt).1.held = r.held.hear message)) := by
  cases phase : r.phase with
  | handshake peer =>
      have silent : ¬ Welcomes [] := by
        rintro ⟨name, caps, among⟩
        cases among
      unfold handle
      rw [phase]
      cases message with
      | hello version name token =>
          dsimp only
          split
          · obtain ⟨waiting, streaming⟩ := greet_spec r peer version name token nowUs failAt
            exact ⟨fun waits => ⟨rfl, waiting waits⟩,
              fun goes => ⟨streaming goes (by rw [phase]; rfl), nofun⟩⟩
          · obtain ⟨dark, never⟩ := refuseUnpaired_spec r peer nowUs pin failAt
            exact ⟨fun _ => ⟨rfl, never⟩, fun goes => by rw [dark] at goes; cases goes⟩
      | _ => exact ⟨fun _ => ⟨rfl, silent⟩, fun goes => by simp [phase, Phase.isStreaming] at goes⟩
  | streaming peer =>
      unfold handle
      rw [phase]
      dsimp only
      refine ⟨fun waits => ?_, fun goes => ?_⟩
      · rcases control_phase r message nowUs failAt with ends | same
        · rw [ends] at waits
          cases waits
        · rw [same, phase] at waits
          cases waits
      · obtain ⟨still, held⟩ := control_held r message nowUs failAt
          (streams (by rw [phase]; rfl)) ours goes
        exact ⟨still, fun _ => held⟩
  | _ => rw [phase] at listens; cases listens

/-- The connection goes on only where it did before, as it was. -/
def GoesOn (r next : Network) : Prop :=
  (next.phase.waits = true → r.phase.waits = true) ∧
  (next.phase.isStreaming = true → r.phase.isStreaming = true ∧
    next.session = r.session ∧ next.held = r.held)

theorem goesOn_same {r next : Network} (phase : next.phase = r.phase)
    (session : next.session = r.session) (mode : next.jitter.mode = r.jitter.mode)
    (interval : next.jitter.intervalUs = r.jitter.intervalUs) : GoesOn r next := by
  refine ⟨fun waits => phase ▸ waits, fun goes => ⟨phase ▸ goes, session, ?_⟩⟩
  rw [held, held, session, mode, interval]

theorem goesOn_stopped {r next : Network} (idle : next.phase.waits = false)
    (dark : next.phase.isStreaming = false) : GoesOn r next :=
  ⟨fun waits => absurd (idle.symm.trans waits) Bool.false_ne_true,
    fun goes => absurd (dark.symm.trans goes) Bool.false_ne_true⟩

theorem pairingDone_goesOn (r : Network) (ok saved : Bool) (nowUs : UInt64) :
    GoesOn r (r.step (.pairingDone ok saved nowUs)).1 := by
  cases phase : r.phase with
  | pairing peer =>
      have dark : (r.step (.pairingDone ok saved nowUs)).1.phase.isStreaming = false := by
        rw [step, phase]
        cases ok <;> cases saved <;> rfl
      refine ⟨fun _ => by rw [phase]; rfl, fun goes => ?_⟩
      rw [dark] at goes
      cases goes
  | _ =>
      have stays : r.step (.pairingDone ok saved nowUs) = (r, Reply.nothing) := by
        rw [step, phase]
      rw [stays]
      exact goesOn_same rfl rfl rfl rfl

theorem video_goesOn (r : Network) (frame : CompleteFrame) (nowUs : UInt64) :
    GoesOn r (r.step (.video frame nowUs)).1 := by
  cases phase : r.phase with
  | streaming peer =>
      have pushed : r.step (.video frame nowUs) =
          ({ r with jitter := r.jitter.push frame nowUs }, Reply.nothing) := by
        rw [step, phase]
      obtain ⟨mode, interval⟩ := push_timing r.jitter frame nowUs
      rw [pushed]
      exact goesOn_same rfl rfl mode interval
  | _ =>
      have stays : r.step (.video frame nowUs) = (r, Reply.nothing) := by rw [step, phase]
      rw [stays]
      exact goesOn_same rfl rfl rfl rfl

theorem lost_goesOn (r : Network) : GoesOn r (r.step .lost).1 := by
  have left : r.step .lost = (r, Reply.nothing) ∨ (r.step .lost).1.phase = .ending := by
    rw [step]
    cases r.phase with
    | handshake peer => exact .inr rfl
    | streaming peer => exact .inr rfl
    | _ => exact .inl rfl
  rcases left with stays | ends
  · rw [stays]
    exact goesOn_same rfl rfl rfl rfl
  · exact goesOn_stopped (by rw [ends]; rfl) (by rw [ends]; rfl)

theorem miracast_goesOn (r : Network) (out : SinkOut) (nowUs : UInt64) :
    GoesOn r (r.step (.miracast out nowUs)).1 := by
  cases out with
  | video data ptsUs =>
      obtain ⟨mode, interval⟩ := push_timing r.jitter _ nowUs
      exact goesOn_same rfl rfl mode interval
  | ended reason => exact goesOn_same rfl rfl rfl rfl
  | _ => exact goesOn_same rfl rfl rfl rfl

/-- What happens beside the messages of a connection. -/
theorem beside_spec (r : Network) (event : Event) (beside : Joint.Beside event) :
    GoesOn r (r.step event).1 := by
  cases event with
  | connect peer token => exact beside.elim
  | message message nowUs pin failAt => exact beside.elim
  | pairingDone ok saved nowUs => exact pairingDone_goesOn r ok saved nowUs
  | video frame nowUs => exact video_goesOn r frame nowUs
  | lost => exact lost_goesOn r
  | cleanUp nowUs =>
      rw [step]
      split
      · exact goesOn_stopped rfl rfl
      · exact goesOn_same rfl rfl rfl rfl
  | miracast out nowUs => exact miracast_goesOn r out nowUs
  | miracastAcquires => exact goesOn_same rfl rfl rfl rfl
  | miracastReleases => exact goesOn_same rfl rfl rfl rfl
  | pop nowUs =>
      obtain ⟨mode, interval⟩ := pop_timing r.jitter nowUs
      exact goesOn_same rfl rfl mode interval
  | decodeError => exact goesOn_same rfl rfl rfl rfl

theorem connect_spec (r : Network) (peer : Fingerprint) (token : Token)
    (accepting : r.phase = .accepting) :
    (r.step (.connect peer token)).1.phase = .handshake peer := by
  rw [step, if_pos accepting]

end Network

namespace Joint

variable {w : Joint}

def Unanswered (w : Joint) (link : Nat) : Prop :=
  (w.wires link).taken = false ∨ (w.serving = some link ∧ w.net.phase.waits = true)

structure Inv (w : Joint) : Prop where
  silent : ∀ link, w.Unanswered link → ¬ Welcomes (w.wires link).toSender
  waiting : w.Unanswered w.current → ∀ cast, w.phase ≠ .casting cast
  beyond : ∀ link, w.current < link → (w.wires link).taken = false
  taken : ∀ link, w.serving = some link → (w.wires link).taken = true
  ours : ∀ link, ∀ message ∈ (w.wires link).toReceiver, Ours message
  streams : ∀ link, w.serving = some link → w.net.phase.isStreaming = true →
    w.net.session.state.isStreaming = true
  agrees : ∀ cast, w.phase = .casting cast → w.serving = some w.current →
    w.net.phase.isStreaming = true →
      ((w.wires w.current).toReceiver.foldl Held.hear w.net.held).Agrees cast.params

theorem inv_begin (net : Network) : Inv (begin net) where
  silent := by
    rintro link - ⟨name, caps, among⟩
    cases among
  waiting := fun _ _ casts => nomatch casts
  beyond := fun _ _ => rfl
  taken := fun _ serving => nomatch serving
  ours := fun _ _ member => nomatch member
  streams := fun _ serving => nomatch serving
  agrees := fun _ casts => nomatch casts

theorem put_wires (w : Joint) (link : Nat) (wire : Wire) (other : Nat) :
    (w.put link wire).wires other = if other = link then wire else w.wires other :=
  Function.update_apply _ _ _ _

theorem taken_put (w : Joint) (link : Nat) (wire : Wire)
    (same : wire.taken = (w.wires link).taken) (other : Nat) :
    ((w.put link wire).wires other).taken = (w.wires other).taken := by
  rw [put_wires]
  split
  · rename_i here
    rw [here, same]
  · rfl

theorem unanswered_put (w : Joint) (link : Nat) (wire : Wire)
    (same : wire.taken = (w.wires link).taken) (other : Nat) :
    (w.put link wire).Unanswered other ↔ w.Unanswered other := by
  rw [Unanswered, taken_put w link wire same]
  rfl

/-- A step at one link, of which the receiver handles the same one as before. -/
theorem Inv.change (inv : Inv w) (link : Nat) (wire : Wire) (net : Network) (phase : CastPhase)
    (token : Option Token) (same : wire.taken = (w.wires link).taken)
    (waits : ∀ other, w.serving = some other → net.phase.waits = true → w.net.phase.waits = true)
    (silent : w.Unanswered link → wire.taken = false ∨ net.phase.waits = true →
      ¬ Welcomes wire.toSender)
    (ours : ∀ message ∈ wire.toReceiver, Ours message)
    (streams : ∀ other, w.serving = some other → net.phase.isStreaming = true →
      net.session.state.isStreaming = true)
    (answered : ∀ cast, phase = .casting cast → ¬ w.Unanswered w.current)
    (agrees : ∀ cast, phase = .casting cast → w.serving = some w.current →
      net.phase.isStreaming = true →
        (((w.put link wire).wires w.current).toReceiver.foldl Held.hear net.held).Agrees
          cast.params) :
    Inv { w.put link wire with net := net, phase := phase, token := token } := by
  have taken := taken_put w link wire same
  have before (other : Nat)
      (unanswered : Unanswered { w.put link wire with net := net, phase := phase, token := token }
        other) : w.Unanswered other := by
    rcases unanswered with fresh | ⟨serving, waiting⟩
    · exact .inl ((taken other).symm.trans fresh)
    · exact .inr ⟨serving, waits other serving waiting⟩
  refine ⟨fun other unanswered => ?_, fun unanswered cast casts => answered cast casts
    (before _ unanswered), fun other later => (taken other).trans (inv.beyond other later),
    fun other serving => (taken other).trans (inv.taken other serving),
    fun other message member => ?_, streams, agrees⟩
  · have old := inv.silent other (before other unanswered)
    dsimp only
    rw [put_wires]
    by_cases here : other = link
    · subst here
      rw [if_pos rfl]
      refine silent (before other unanswered) ?_
      refine unanswered.imp (fun fresh => ?_) And.right
      rw [same, ← taken other]
      exact fresh
    · rw [if_neg here]
      exact old
  · dsimp only at member
    rw [put_wires] at member
    split at member
    · exact ours message member
    · exact inv.ours other message member

theorem Inv.speak (inv : Inv w) (phase : CastPhase) (token : Option Token)
    (controls : List ControlMessage) (ours : ∀ message ∈ controls, Ours message)
    (answered : ∀ cast, phase = .casting cast → ¬ w.Unanswered w.current)
    (agrees : ∀ cast, phase = .casting cast → w.serving = some w.current →
      w.net.phase.isStreaming = true →
        (controls.foldl Held.hear ((w.wires w.current).toReceiver.foldl Held.hear
          w.net.held)).Agrees cast.params) :
    Inv ({ w with phase := phase, token := token }.send controls) := by
  refine inv.change w.current _ w.net phase token rfl (fun _ _ => id)
    (fun unanswered _ => inv.silent w.current unanswered) (fun message member => ?_) inv.streams
    answered (fun cast casts serving goes => ?_)
  · rcases List.mem_append.mp member with old | new
    · exact inv.ours _ message old
    · exact ours message new
  · rw [put_wires, if_pos rfl]
    dsimp only
    rw [List.foldl_append]
    exact agrees cast casts serving goes

theorem Inv.leave (inv : Inv w) (reason : String) : Inv (w.leave reason) :=
  inv.speak .over w.token [.goodbye reason] (fun message member => by
    rw [List.mem_singleton.mp member]
    trivial) (fun _ casts => nomatch casts) (fun _ casts => nomatch casts)

theorem Inv.pop (inv : Inv w) (rest : List ControlMessage)
    (less : ∀ message ∈ rest, message ∈ (w.wires w.current).toSender) :
    Inv (w.put w.current { w.wires w.current with toSender := rest }) := by
  refine inv.change w.current _ w.net w.phase w.token rfl (fun _ _ => id)
    (fun unanswered _ => ?_) (inv.ours w.current) inv.streams
    (fun cast casts unanswered => inv.waiting unanswered cast casts)
    (fun cast casts serving goes => ?_)
  · rintro ⟨name, caps, among⟩
    exact inv.silent w.current unanswered ⟨name, caps, less _ among⟩
  · rw [put_wires, if_pos rfl]
    exact inv.agrees cast casts serving goes

theorem Inv.beside (inv : Inv w) (event : Network.Event) (beside : Beside event) :
    Inv { w with net := (w.net.step event).1 } := by
  obtain ⟨waits, goes⟩ := w.net.beside_spec event beside
  refine ⟨fun link unanswered => inv.silent link (unanswered.imp_right (And.imp_right waits)),
    fun unanswered => inv.waiting (unanswered.imp_right (And.imp_right waits)),
      inv.beyond, inv.taken,
    inv.ours, fun link serving streams => ?_, fun cast casts serving streams => ?_⟩
  · obtain ⟨before, session, -⟩ := goes streams
    dsimp only
    rw [session]
    exact inv.streams link serving before
  · obtain ⟨before, -, held⟩ := goes streams
    dsimp only
    rw [held]
    exact inv.agrees cast casts serving before

theorem Inv.reads (inv : Inv w) {link : Nat} {message : ControlMessage} {rest : List ControlMessage}
    (serving : w.serving = some link) (listens : w.net.phase.listens = true)
    (line : (w.wires link).toReceiver = message :: rest) (nowUs : UInt64) (pin : String)
    (failAt : Option Nat) :
    let answer := w.net.step (.message message nowUs pin failAt)
    Inv { w.put link { w.wires link with
      toReceiver := rest
      toSender := (w.wires link).toSender ++ answer.2.sends } with net := answer.1 } := by
  have own : Ours message := inv.ours link message (by rw [line]; exact List.mem_cons_self)
  obtain ⟨waits, goes⟩ := w.net.read_spec message nowUs pin failAt listens
    (inv.streams link serving)
    own
  intro answer
  refine inv.change link _ answer.1 w.phase w.token rfl (fun _ _ waiting => (waits waiting).1)
    (fun unanswered now => ?_) (fun other member => ?_) (fun _ _ streams => (goes streams).1)
    (fun cast casts unanswered => inv.waiting unanswered cast casts)
    (fun cast casts current streams => ?_)
  · have waiting : answer.1.phase.waits = true := now.resolve_left (by
      rw [inv.taken link serving]
      exact Bool.true_eq_false.mp)
    rintro ⟨name, caps, among⟩
    rcases List.mem_append.mp among with old | new
    · exact inv.silent link unanswered ⟨name, caps, old⟩
    · exact (waits waiting).2 ⟨name, caps, new⟩
  · exact inv.ours link other (by rw [line]; exact List.mem_cons_of_mem _ member)
  · obtain rfl := Option.some.inj (current.symm.trans serving)
    rw [put_wires, if_pos rfl]
    -- the cast was welcomed, so the receiver was streaming already
    have before : w.net.phase.isStreaming = true := by
      cases phase : w.net.phase with
      | streaming peer => rfl
      | handshake peer =>
          exact absurd casts (inv.waiting (.inr ⟨serving, by rw [phase]; rfl⟩) cast)
      | _ => rw [phase] at listens; cases listens
    have agreed := inv.agrees cast casts current before
    rw [line, List.foldl_cons, ← (goes streams).2 before] at agreed
    exact agreed

theorem startStream_agrees (held : Held) (params : StreamParams) :
    (held.hear (.startStream params)).Agrees params :=
  ⟨params, rfl, rfl, rfl, rfl⟩

/-- A turn of the cast keeps the two at the same parameters, or brings them there. -/
theorem step_agrees {cast next : Cast} {event : Castr.Sender.Event} {out : Castr.Sender.Sent}
    {held : Held} (taken : cast.step event = some (next, out))
    (agrees : held.Agrees cast.params ∨ ∃ sent, event = .reconnected sent) :
    (out.controls.foldl Held.hear held).Agrees next.params := by
  have before (stays : ∀ sent, event ≠ .reconnected sent) : held.Agrees cast.params :=
    agrees.resolve_right (fun ⟨sent, same⟩ => stays sent same)
  cases event with
  | requestKeyframe =>
      cases taken
      exact before nofun
  | stats stats nowUs sent =>
      obtain ⟨own, params, same, mode, interval⟩ := before nofun
      rw [Cast.step, Cast.onStats] at taken
      obtain ⟨_, _, taken⟩ := Option.bind_eq_some_iff.mp taken
      obtain ⟨⟨ctl, decision⟩, _, taken⟩ := Option.bind_eq_some_iff.mp taken
      cases decision with
      | none =>
          cases taken
          exact ⟨own, params, same, mode, interval⟩
      | some decision =>
          obtain ⟨bitrateBps, resolution⟩ := decision
          dsimp only at taken
          split at taken
          · split at taken
            · cases taken
              exact startStream_agrees held _
            · cases taken
          · cases taken
            exact ⟨own, params, same, mode, interval⟩
  | setMode mode sent =>
      obtain ⟨own, params, same, -, interval⟩ := before nofun
      rw [Cast.step, Cast.setMode] at taken
      split at taken
      · cases taken
        refine ⟨{ own with mode := mode }, ?_, ?_, rfl, interval⟩
        · exact congrArg (Option.map _) params
        · exact congrArg (fun own : StreamParams => { own with mode := mode }) same
      · cases taken
  | reconnected sent =>
      rw [Cast.step] at taken
      split at taken
      · cases taken
        exact startStream_agrees held _
      · cases taken
  | other =>
      cases taken
      exact before nofun
  | ended => cases taken

theorem step_ours {cast next : Cast} {event : Castr.Sender.Event} {out : Castr.Sender.Sent}
    (taken : cast.step event = some (next, out)) : ∀ message ∈ out.controls, Ours message := by
  have said (message : ControlMessage) (own : Ours message) : ∀ other ∈ [message], Ours other := by
    intro other member
    rw [List.mem_singleton.mp member]
    exact own
  cases event with
  | requestKeyframe =>
      cases taken
      exact nofun
  | stats stats nowUs sent =>
      rw [Cast.step, Cast.onStats] at taken
      obtain ⟨_, _, taken⟩ := Option.bind_eq_some_iff.mp taken
      obtain ⟨⟨ctl, decision⟩, _, taken⟩ := Option.bind_eq_some_iff.mp taken
      cases decision with
      | none =>
          cases taken
          exact nofun
      | some decision =>
          dsimp only at taken
          split at taken
          · split at taken
            · cases taken
              exact said _ trivial
            · cases taken
          · cases taken
            exact nofun
  | setMode mode sent =>
      rw [Cast.step, Cast.setMode] at taken
      split at taken
      · cases taken
        exact said _ trivial
      · cases taken
  | reconnected sent =>
      rw [Cast.step] at taken
      split at taken
      · cases taken
        exact said _ trivial
      · cases taken
  | other =>
      cases taken
      exact nofun
  | ended => cases taken

theorem Inv.turn (inv : Inv w) (cast : Cast) (event : Castr.Sender.Event) (token : Option Token)
    (answered : ¬ w.Unanswered w.current)
    (from_ : w.phase = .casting cast ∨ ∃ sent, event = .reconnected sent) :
    Inv ({ w with token := token }.turn cast event) := by
  have kept : Inv { w with token := token } :=
    ⟨inv.silent, inv.waiting, inv.beyond, inv.taken, inv.ours, inv.streams, inv.agrees⟩
  unfold Joint.turn
  split
  · rename_i next out taken
    refine inv.speak (.casting next) token out.controls (step_ours taken) (fun _ _ => answered)
      (fun after casts serving streams => ?_)
    obtain rfl := CastPhase.casting.inj casts
    exact step_agrees taken
      (from_.imp_left (fun casts => inv.agrees cast casts serving streams))
  · exact kept.leave "failed"

theorem Inv.welcomed (inv : Inv w) (wanted : Wanted) (caps : Capabilities) (sent : Bool)
    (answered : ¬ w.Unanswered w.current) : Inv (w.welcomed wanted caps sent) := by
  unfold Joint.welcomed
  split
  · rename_i casting started
    split
    · refine inv.speak (.casting casting.cast) w.token _ (fun message member => ?_)
        (fun _ _ => answered) (fun after casts _ _ => ?_)
      · rw [List.mem_singleton.mp member]
        trivial
      · obtain rfl := CastPhase.casting.inj casts
        exact startStream_agrees ((w.wires w.current).toReceiver.foldl Held.hear w.net.held)
          casting.cast.params
    · exact inv.leave "failed"
  · exact inv.leave "failed"

/-- The cast takes what it has read; a welcome has been sent by then. -/
theorem Inv.hear (inv : Inv w) (message : ControlMessage) (wanted : Wanted) (nowUs : UInt64)
    (sent : Bool)
    (welcome : ∀ name caps, message = .helloAck name caps → ¬ w.Unanswered w.current) :
    Inv (w.hear message wanted nowUs sent) := by
  cases casts : w.phase with
  | greeting cast =>
      cases message with
      | helloAck name caps =>
          have answered := welcome name caps rfl
          cases cast with
          | none =>
              rw [Joint.hear, casts]
              exact inv.welcomed wanted caps sent answered
          | some cast =>
              rw [Joint.hear, casts]
              exact inv.turn cast (.reconnected sent) w.token answered (.inr ⟨sent, rfl⟩)
      | _ =>
          rw [Joint.hear, casts]
          exact inv.leave "failed"
  | casting cast =>
      have answered : ¬ w.Unanswered w.current := fun unanswered =>
        inv.waiting unanswered cast casts
      cases message with
      | sessionToken token =>
          rw [Joint.hear, casts]
          exact inv.turn cast .other (some token) answered (.inl casts)
      | requestKeyframe =>
          rw [Joint.hear, casts]
          exact inv.turn cast .requestKeyframe w.token answered (.inl casts)
      | stats stats =>
          rw [Joint.hear, casts]
          exact inv.turn cast (.stats stats nowUs sent) w.token answered (.inl casts)
      | goodbye reason =>
          rw [Joint.hear, casts]
          exact inv.leave "stopped"
      | _ =>
          rw [Joint.hear, casts]
          exact inv.turn cast .other w.token answered (.inl casts)
  | _ =>
      rw [Joint.hear, casts]
      exact inv

theorem Inv.hears (inv : Inv w) {message : ControlMessage} {rest : List ControlMessage}
    (line : (w.wires w.current).toSender = message :: rest) (wanted : Wanted) (nowUs : UInt64)
    (sent : Bool) :
    Inv ((w.put w.current { w.wires w.current with toSender := rest }).hear message wanted nowUs
      sent) := by
  refine (inv.pop rest (fun other member => ?_)).hear message wanted nowUs sent
    (fun name caps same unanswered => ?_)
  · rw [line]
    exact List.mem_cons_of_mem _ member
  · have before : w.Unanswered w.current :=
      (unanswered_put w w.current { w.wires w.current with toSender := rest } rfl _).mp unanswered
    refine inv.silent w.current before ⟨name, caps, ?_⟩
    rw [line, same]
    exact List.mem_cons_self

theorem Inv.dial (inv : Inv w) (name : String) (cast : Option Cast) : Inv (w.dial name cast) := by
  have wires (link : Nat) : (w.dial name cast).wires link =
      if link = w.current + 1 then ⟨false, [.hello protocolVersion name w.token], []⟩
      else w.wires link := put_wires w (w.current + 1) _ link
  have served (link : Nat) (serving : w.serving = some link) : link ≠ w.current + 1 := by
    rintro rfl
    exact Bool.false_ne_true ((inv.beyond _ (Nat.lt_succ_self _)).symm.trans (inv.taken _ serving))
  refine ⟨fun link unanswered => ?_, fun _ _ casts => (nomatch casts), fun link later => ?_,
    fun link serving => ?_, fun link message member => ?_, inv.streams,
    fun _ casts => (nomatch casts)⟩
  · rw [Unanswered, wires] at unanswered
    rw [wires]
    split
    · rintro ⟨name, caps, among⟩
      cases among
    · rename_i old
      rw [if_neg old] at unanswered
      exact inv.silent link unanswered
  · have later : w.current + 1 < link := later
    rw [wires, if_neg (by omega)]
    exact inv.beyond link (by omega)
  · rw [wires, if_neg (served link serving)]
    exact inv.taken link serving
  · rw [wires] at member
    split at member
    · rw [List.mem_singleton.mp member]
      rfl
    · exact inv.ours link message member

/-- The receiver takes a link, on which nobody has been welcomed. -/
theorem Inv.accepts (inv : Inv w) (link : Nat) (peer : Fingerprint) (token : Token)
    (accepting : w.net.phase = .accepting) (fresh : (w.wires link).taken = false)
    (known : link ≤ w.current) :
    Inv { w.put link { w.wires link with taken := true } with
      net := (w.net.step (.connect peer token)).1, serving := some link } := by
  have wires (other : Nat) : (w.put link { w.wires link with taken := true }).wires other =
      if other = link then { w.wires link with taken := true } else w.wires other :=
    put_wires w link _ other
  have phase := w.net.connect_spec peer token accepting
  generalize (w.net.step (.connect peer token)).1 = net at phase ⊢
  have dark : net.phase.isStreaming ≠ true := by
    rw [phase]
    exact Bool.false_ne_true
  have before (other : Nat)
      (unanswered : Unanswered { w.put link { w.wires link with taken := true } with
        net := net, serving := some link } other) : w.Unanswered other := by
    by_cases here : other = link
    · exact .inl (here ▸ fresh)
    · refine .inl (unanswered.elim (fun untaken => ?_) (fun serves => ?_))
      · dsimp only at untaken
        rw [wires, if_neg here] at untaken
        exact untaken
      · exact absurd (Option.some.inj serves.1).symm here
  refine ⟨fun other unanswered => ?_, fun unanswered => inv.waiting (before _ unanswered),
    fun other later => ?_, fun other serving => ?_, fun other message member => ?_,
    fun _ _ streams => absurd streams dark, fun _ _ _ streams => absurd streams dark⟩
  · have never := inv.silent other (before other unanswered)
    dsimp only
    rw [wires]
    split
    · rename_i here
      exact here ▸ never
    · exact never
  · have later : w.current < other := later
    dsimp only
    rw [wires, if_neg (by omega)]
    exact inv.beyond other later
  · obtain rfl : link = other := Option.some.inj serving
    dsimp only
    rw [wires, if_pos rfl]
  · dsimp only at member
    rw [wires] at member
    split at member
    · exact inv.ours link message member
    · exact inv.ours other message member

theorem Inv.elsewhere (inv : Inv w) (net : Network) :
    Inv { w with net := net, serving := none } where
  silent := fun link unanswered =>
    inv.silent link (.inl (unanswered.resolve_right (fun served => nomatch served.1)))
  waiting := fun unanswered =>
    inv.waiting (.inl (unanswered.resolve_right (fun served => nomatch served.1)))
  beyond := inv.beyond
  taken := fun _ serving => nomatch serving
  ours := inv.ours
  streams := fun _ serving => nomatch serving
  agrees := fun _ _ serving => nomatch serving

theorem Inv.drains (inv : Inv w) (link : Nat) (pairs : w.net.phase.isPairing = true) :
    Inv (w.put link { w.wires link with toReceiver := (w.wires link).toReceiver.tail }) := by
  refine inv.change link _ w.net w.phase w.token rfl (fun _ _ => id)
    (fun unanswered _ => inv.silent link unanswered)
    (fun message member => inv.ours link message (List.mem_of_mem_tail member)) inv.streams
    (fun cast casts unanswered => inv.waiting unanswered cast casts)
    (fun cast _ _ streams => ?_)
  cases phase : w.net.phase with
  | pairing peer =>
      rw [phase] at streams
      cases streams
  | _ =>
      rw [phase] at pairs
      cases pairs

theorem Inv.reports (inv : Inv w) (link : Nat) (message : ControlMessage)
    (reported : Reported message) :
    Inv (w.put link { w.wires link with toSender := (w.wires link).toSender ++ [message] }) := by
  refine inv.change link _ w.net w.phase w.token rfl (fun _ _ => id) (fun unanswered _ => ?_)
    (inv.ours link) inv.streams (fun cast casts unanswered => inv.waiting unanswered cast casts)
    (fun cast casts serving streams => ?_)
  · rintro ⟨name, caps, among⟩
    rcases List.mem_append.mp among with old | new
    · exact inv.silent link unanswered ⟨name, caps, old⟩
    · rw [← List.mem_singleton.mp new] at reported
      exact reported
  · have agreed := inv.agrees cast casts serving streams
    rw [put_wires]
    split
    · rename_i here
      exact here ▸ agreed
    · exact agreed

section Events

variable {next : Joint} (inv : Inv w)
include inv

theorem inv_dials {name : String} (acted : w.act (.dials name) = some next) : Inv next := by
  rw [act] at acted
  split at acted
  · cases acted
    exact inv.dial name none
  · rename_i cast _
    cases acted
    exact inv.dial name cast
  · rename_i cast _
    cases acted
    exact inv.dial name (some cast)
  · cases acted

theorem inv_hears {wanted : Wanted} {nowUs : UInt64} {sent : Bool}
    (acted : w.act (.hears wanted nowUs sent) = some next) : Inv next := by
  rw [act] at acted
  split at acted
  · rename_i message rest line
    cases acted
    exact inv.hears line wanted nowUs sent
  · cases acted

theorem inv_commands {mode : Mode} {sent : Bool} (acted : w.act (.commands mode sent) = some next) :
    Inv next := by
  rw [act] at acted
  split at acted
  · rename_i cast casts
    cases acted
    exact inv.turn cast (.setMode mode sent) w.token
      (fun unanswered => inv.waiting unanswered cast casts) (.inl casts)
  · cases acted

theorem inv_stops {reason : String} (acted : w.act (.stops reason) = some next) : Inv next := by
  rw [act] at acted
  split at acted
  · cases acted
  · cases acted
    exact inv.leave reason

theorem inv_accepts {link : Nat} {peer : Fingerprint} {token : Token}
    (acted : w.act (.accepts link peer token) = some next) : Inv next := by
  rw [act] at acted
  dsimp only at acted
  split at acted
  · rename_i possible
    cases acted
    exact inv.accepts link peer token possible.1 possible.2.1 possible.2.2.2
  · cases acted

theorem inv_acceptsOther {peer : Fingerprint} {token : Token}
    (acted : w.act (.acceptsOther peer token) = some next) : Inv next := by
  rw [act] at acted
  split at acted
  · cases acted
    exact inv.elsewhere _
  · cases acted

theorem inv_reads {nowUs : UInt64} {pin : String} {failAt : Option Nat}
    (acted : w.act (.reads nowUs pin failAt) = some next) : Inv next := by
  obtain ⟨link, serving, acted⟩ := Option.bind_eq_some_iff.mp acted
  dsimp only at acted
  split at acted
  · rename_i message rest line
    split at acted
    · rename_i listens
      cases acted
      exact inv.reads serving listens line nowUs pin failAt
    · cases acted
  · cases acted

theorem inv_readsOther {message : ControlMessage} {nowUs : UInt64} {pin : String}
    {failAt : Option Nat}
    (acted : w.act (.readsOther message nowUs pin failAt) = some next) : Inv next := by
  rw [act] at acted
  split at acted
  · rename_i other
    cases acted
    rw [other]
    exact inv.elsewhere _
  · cases acted

theorem inv_drains (acted : w.act .drains = some next) : Inv next := by
  obtain ⟨link, serving, acted⟩ := Option.bind_eq_some_iff.mp acted
  dsimp only at acted
  split at acted
  · rename_i pairs
    cases acted
    exact inv.drains link pairs
  · cases acted

theorem inv_reports {message : ControlMessage} (acted : w.act (.reports message) = some next) :
    Inv next := by
  obtain ⟨link, serving, acted⟩ := Option.bind_eq_some_iff.mp acted
  dsimp only at acted
  split at acted
  · rename_i possible
    cases acted
    exact inv.reports link message possible.2
  · cases acted

theorem inv_beside {event : Network.Event} (acted : w.act (.beside event) = some next) :
    Inv next := by
  rw [act] at acted
  split at acted
  · rename_i beside
    cases acted
    exact inv.beside event beside
  · cases acted

end Events

theorem inv_act {event : Joint.Event} {next : Joint} (acted : w.act event = some next)
    (inv : Inv w) : Inv next := by
  cases event with
  | dials name => exact inv_dials inv acted
  | hears wanted nowUs sent => exact inv_hears inv acted
  | commands mode sent => exact inv_commands inv acted
  | stops reason => exact inv_stops inv acted
  | accepts link peer token => exact inv_accepts inv acted
  | acceptsOther peer token => exact inv_acceptsOther inv acted
  | reads nowUs pin failAt => exact inv_reads inv acted
  | readsOther message nowUs pin failAt => exact inv_readsOther inv acted
  | drains => exact inv_drains inv acted
  | reports message => exact inv_reports inv acted
  | beside event => exact inv_beside inv acted

theorem inv_final (net : Network) {events : List Joint.Event}
    (ended : Halting.final step (begin net) events = some w) : Inv w :=
  Halting.final_invariant step Inv (inv_begin net)
    (fun before event next out taken inv => by
      obtain ⟨after, acted, same⟩ := Option.map_eq_some_iff.mp taken
      cases same
      exact inv_act acted inv) ended

/-- Whatever was lost on the way, and however often the cast came back: once the receiver streams
on the cast's own link and has read all there is, it plays by the cast's parameters. -/
theorem params_agree (net : Network) (events : List Joint.Event) (cast : Cast)
    (ended : Halting.final step (begin net) events = some w) (casts : w.phase = .casting cast)
    (serving : w.serving = some w.current) (streams : w.net.phase.isStreaming = true)
    (read : (w.wires w.current).toReceiver = []) :
    ∃ params, w.net.session.params = some params ∧
      params = { cast.params with bitrateBps := params.bitrateBps } ∧
      w.net.jitter.mode = cast.params.mode ∧
      w.net.jitter.intervalUs = frameInterval cast.params.fps := by
  have agrees := (inv_final net ended).agrees cast casts serving streams
  rw [read] at agrees
  exact agrees

/-- The order to switch is lost with the link; the cast comes back, and is welcomed again. -/
def interrupted : List Joint.Event :=
  let wanted : Wanted := ⟨⟨1920, 1080⟩, ⟨1920, 1080⟩, 60, none, .game⟩
  [.dials "Laptop", .accepts 1 Network.sender Network.tokenOne, .reads 10 "" none,
    .hears wanted 20 true, .hears wanted 30 true, .reads 40 "" none, .commands .quality true,
    .dials "Laptop", .beside .lost, .beside (.cleanUp 50),
    .accepts 2 Network.sender Network.tokenTwo, .reads 60 "" none, .hears wanted 70 true,
    .reads 80 "" none]

def switched : Option Cast :=
  (Casting.start ⟨1920, 1080⟩ ⟨1920, 1080⟩ 60 none .game Network.livingRoom.caps).bind
    (fun casting => (casting.cast.setMode .quality true).map Prod.fst)

theorem params_agree_interrupted : ∃ w cast,
    Halting.final step (begin Network.livingRoom) interrupted = some w ∧ switched = some cast ∧
      w.phase = .casting cast ∧ w.net.jitter.mode = cast.params.mode := by
  have run : (Halting.final step (begin Network.livingRoom) interrupted).map
      (fun w => (some w.phase, w.serving, w.current, w.net.phase.isStreaming,
        (w.wires w.current).toReceiver)) =
      some (switched.map .casting, some 2, 2, true, []) := by decide +kernel
  obtain ⟨w, ended, shown⟩ := Option.map_eq_some_iff.mp run
  obtain ⟨phase, serving, current, streams, read⟩ : some w.phase = switched.map .casting ∧
      w.serving = some 2 ∧ w.current = 2 ∧ w.net.phase.isStreaming = true ∧
        (w.wires w.current).toReceiver = [] := by
    simpa only [Prod.mk.injEq] using shown
  obtain ⟨cast, last, casts⟩ := Option.map_eq_some_iff.mp phase.symm
  obtain ⟨params, _, _, mode, _⟩ := params_agree Network.livingRoom interrupted cast ended
    casts.symm (serving.trans (congrArg some current.symm)) streams read
  exact ⟨w, cast, ended, last, casts.symm, mode⟩

end Joint

end Castr.Receiver
