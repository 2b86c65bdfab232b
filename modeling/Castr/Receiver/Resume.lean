import Castr.Receiver.Greeting

/-! Whether a lost session can be resumed, when other peers have called in between. -/

namespace Castr.Receiver.Network

open Castr.Lib.Run
open Castr.Lib.Word (saturatingSub)
open Castr.Proto

/-- The step is a greeting that the session does not refuse. -/
def accepts (r : Network) : Event → Bool
  | .message message nowUs pin failAt =>
      r.greets (.message message nowUs pin failAt) &&
        !(r.session.onMessage message nowUs).2.any Action.isFail
  | _ => false

/-- After a refusal the session is closed, until the next link gets a new one in its place. -/
inductive Lost (r : Network) : Prop where
  | closed (closed : r.session.state = .closed) (between : r.phase = .ending ∨ r.phase = .accepting)
  | replaced (fresh : r.session.state = .awaitingHello)

theorem Lost.handshake {r : Network} (lost : Lost r) (peer : Fingerprint)
    (waits : r.phase = .handshake peer) : r.session.state = .awaitingHello := by
  cases lost with
  | replaced fresh => exact fresh
  | closed closed between =>
      rw [waits] at between
      rcases between with ended | free
      · cases ended
      · cases free

theorem refusal_loses (r : Network) (peer : Fingerprint) (version : UInt16) (name : String)
    (token : Option Token) (nowUs : UInt64) (failAt : Option Nat)
    (waits : r.session.state = .awaitingHello ∨ r.session.state.isDisconnected = true)
    (refused : (r.session.onMessage (.hello version name token) nowUs).2.any Action.isFail = true) :
    (r.greet peer (.hello version name token) nowUs failAt).1.phase = .ending ∧
      Lost (r.greet peer (.hello version name token) nowUs failAt).1 := by
  have ended := greet_refused r peer (.hello version name token) nowUs failAt refused
  refine ⟨ended, .closed ?_ (Or.inl ended)⟩
  rw [greet_session]
  rcases r.session.onMessage_hello version name token nowUs waits with ⟨closed, _⟩ | ⟨_, took⟩
  · exact closed
  · rw [refused] at took
    cases took

theorem lost_step (r : Network) (event : Event) (lost : Lost r)
    (quiet : r.phase.isStreaming = false) (refuses : r.accepts event = false) :
    (r.step event).1.phase.isStreaming = false ∧ Lost (r.step event).1 := by
  have moves := step_moves r event quiet
  generalize (r.step event).1 = next at moves
  cases moves with
  | greeting peer version name token nowUs pin failAt waits known =>
      have fresh := lost.handshake peer waits
      obtain ⟨ended, still⟩ := refusal_loses r peer version name token nowUs failAt (Or.inl fresh)
        (by simpa [accepts, greets, waits, known] using refuses)
      exact ⟨by rw [ended]; rfl, still⟩
  | connects peer token free =>
      refine ⟨rfl, .replaced ?_⟩
      cases lost with
      | closed closed between => simp [closed, ReceiverSession.new]
      | replaced fresh => simp [fresh]
  | ends nowUs ended =>
      refine ⟨rfl, ?_⟩
      have session := cleanUp_session r nowUs
      cases lost with
      | closed closed between =>
          rw [closed] at session
          exact .closed (by rw [session]; exact closed) (Or.inr rfl)
      | replaced fresh =>
          rw [fresh] at session
          exact .replaced (by rw [session]; exact fresh)
  | other _ _ silent same still stays =>
      refine ⟨still, ?_⟩
      cases lost with
      | closed closed between =>
          exact .closed (by rw [same]; exact closed) (by rw [stays between]; exact between)
      | replaced fresh => exact .replaced (by rw [same]; exact fresh)

/-- What the session is in a run that refuses every greeting, by whether there was one. -/
structure Between (dropped : Network) (greeted : Bool) (r : Network) : Prop where
  quiet : r.phase.isStreaming = false
  held : greeted = false → r.session = dropped.session
  lost : greeted = true → Lost r

theorem between_run (dropped : Network) (events : List Event)
    (disconnected : dropped.session.state.isDisconnected = true)
    (quiet : dropped.phase.isStreaming = false)
    (refused : ever step accepts dropped events = false) :
    Between dropped (ever step greets dropped events) (final step dropped events) := by
  apply final_induction step dropped events
    (fun front r => Between dropped (ever step greets dropped front) r)
  · exact ⟨quiet, fun _ => rfl, fun greeted => by cases greeted⟩
  · intro front event back split between
    have refusedHere := never_at step dropped accepts events front back event split refused
    rw [ever_snoc]
    generalize final step dropped front = r at between refusedHere ⊢
    cases greeted : ever step greets dropped front with
    | true =>
        obtain ⟨still, lost⟩ := lost_step r event (between.lost greeted) between.quiet refusedHere
        exact ⟨still, fun silent => by simp at silent, fun _ => lost⟩
    | false =>
        have same := between.held greeted
        have waits : r.session.state.isDisconnected = true := by rw [same]; exact disconnected
        have alive : r.session.state ≠ .closed := by
          intro closed
          rw [closed] at waits
          cases waits
        have idle : r.session.state.isStreaming = false := by
          cases state : r.session.state with
          | streaming params =>
              rw [state] at waits
              cases waits
          | _ => rfl
        cases here : r.greets event with
        | false =>
            refine ⟨quiet_kept r event between.quiet here, fun _ => ?_, fun heard =>
              by simp at heard⟩
            rw [session_kept r event between.quiet alive idle here, same]
        | true =>
            have moves := step_moves r event between.quiet
            generalize (r.step event).1 = next at moves
            cases moves with
            | greeting peer version name token nowUs pin failAt inside known =>
                obtain ⟨ended, lost⟩ := refusal_loses r peer version name token nowUs failAt
                  (Or.inr waits) (by simpa [accepts, here] using refusedHere)
                exact ⟨by rw [ended]; rfl, fun silent => by simp at silent, fun _ => lost⟩
            | other _ _ silent _ _ _ => simp [silent] at here
            | connects peer token free => simp [greets] at here
            | ends nowUs ended => simp [greets] at here

/-- The peer gets the `HelloAck` and goes on with the parameters it had. -/
def resumes (params : Option StreamParams) (answer : Network × Reply) : Prop :=
  (∃ name caps rest, answer.2.sends = .helloAck name caps :: rest) ∧ answer.2.resumed = true ∧
    answer.1.session.state = .streaming params ∧ answer.1.session.params = params

theorem held_resumes (r : Network) (peer : Fingerprint) (name : String) (since nowUs : UInt64)
    (pin : String) (waits : r.phase = .handshake peer) (known : r.isPaired peer = true)
    (disconnected : r.session.state = .disconnected since)
    (fresh : nowUs.toNat ≤ since.toNat + tokenTtlUs.toNat) :
    resumes r.session.params
      (r.step (.message (.hello protocolVersion name (some r.session.token)) nowUs pin none)) := by
  have young : saturatingSub nowUs since ≤ tokenTtlUs := by
    rw [UInt64.le_iff_toNat_le, Castr.Lib.Word.saturatingSub_toNat]
    omega
  have answered :
      r.session.onMessage (.hello protocolVersion name (some r.session.token)) nowUs =
        ({ r.session with state := .streaming r.session.params },
          [.send r.session.ack, .resumed]) := by
    simp [ReceiverSession.onMessage, ReceiverSession.onHello, disconnected, young]
  obtain ⟨busy, _, reply⟩ := hello_reply r peer protocolVersion name (some r.session.token) nowUs
    pin waits known
  have session : (r.step (.message (.hello protocolVersion name (some r.session.token)) nowUs pin
      none)).1.session = { r.session with state := .streaming r.session.params } := by
    simp [step, handle, waits, known, answered]
  unfold resumes
  rw [reply, session, answered]
  exact ⟨⟨r.session.name, r.session.caps, busy, rfl⟩, rfl, rfl, rfl⟩

theorem lost_starts_over (r : Network) (peer : Fingerprint) (name : String) (token : Token)
    (nowUs : UInt64) (pin : String) (waits : r.phase = .handshake peer)
    (known : r.isPaired peer = true) (lost : Lost r) (params : Option StreamParams) :
    ¬ resumes params
      (r.step (.message (.hello protocolVersion name (some token)) nowUs pin none)) := by
  obtain ⟨busy, _, reply⟩ := hello_reply r peer protocolVersion name (some token) nowUs pin waits
    known
  have answered : (r.session.onMessage (.hello protocolVersion name (some token)) nowUs).2 =
      [.send r.session.ack, .send (.sessionToken r.session.token)] := by
    simp [ReceiverSession.onMessage, ReceiverSession.onHello, lost.handshake peer waits]
  rintro ⟨_, resumed, _⟩
  rw [reply, answered] at resumed
  cases resumed

/-- A session that was streaming when its connection ended is resumed by its own token within
the token's life exactly when no `Hello` of a paired peer has come in between, though each of
them was refused. -/
theorem resumed_iff (start : Network) (droppedUs : UInt64) (events : List Event)
    (ended : start.phase = .ending) (streaming : start.session.state.isStreaming = true)
    (refused : ever step accepts (start.step (.cleanUp droppedUs)).1 events = false)
    (peer : Fingerprint)
    (waits : (final step start (.cleanUp droppedUs :: events)).phase = .handshake peer)
    (known : (final step start (.cleanUp droppedUs :: events)).isPaired peer = true)
    (name : String) (nowUs : UInt64) (pin : String)
    (within : nowUs.toNat ≤ droppedUs.toNat + tokenTtlUs.toNat) :
    resumes start.session.params
        ((final step start (.cleanUp droppedUs :: events)).step
          (.message (.hello protocolVersion name (some start.session.token)) nowUs pin none)) ↔
      ever step greets (start.step (.cleanUp droppedUs)).1 events = false := by
  have dropped : (start.step (.cleanUp droppedUs)).1 = start.cleanUp droppedUs := by
    simp [step, ended]
  rw [final_cons, dropped] at waits known
  rw [final_cons, dropped]
  rw [dropped] at refused
  have left : (start.cleanUp droppedUs).session =
      { start.session with state := .disconnected droppedUs } := by
    rw [cleanUp_session, if_pos streaming]
  have between := between_run (start.cleanUp droppedUs) events (by rw [left]; rfl) rfl refused
  generalize final step (start.cleanUp droppedUs) events = r at waits known between ⊢
  cases greeted : ever step greets (start.cleanUp droppedUs) events with
  | false =>
      have same : r.session = { start.session with state := .disconnected droppedUs } :=
        (between.held greeted).trans left
      have held := held_resumes r peer name droppedUs nowUs pin waits known (by rw [same]) within
      rw [same] at held
      exact iff_of_true held rfl
  | true =>
      refine iff_of_false ?_ (by decide)
      exact lost_starts_over r peer name _ nowUs pin waits known (between.lost greeted) _

def laptopParams : StreamParams := ⟨.h264, 1280, 720, 30, .quality, 8000000⟩

/-- A second paired sender. -/
def neighbour : Fingerprint := Vector.replicate 32 9

/-- A session has started its stream, and its link is lost. -/
def droppedCast : Network :=
  final step { livingRoom with paired := [sender, neighbour] } [.connect sender tokenTwo,
    .message (.hello protocolVersion "laptop" none) 10 "" none,
    .message (.startStream laptopParams) 20 "" none, .lost]

theorem resumed_undisturbed :
    resumes (some laptopParams)
      ((final step droppedCast [.cleanUp 100, .connect sender tokenTwo]).step
      (.message (.hello protocolVersion "laptop" (some tokenOne)) 500 "" none)) :=
  (resumed_iff droppedCast 100 [.connect sender tokenTwo] (by decide +kernel) (by decide +kernel)
    (by decide +kernel) sender (by decide +kernel) (by decide +kernel) "laptop" 500 ""
    (by decide)).mpr (by decide +kernel)

/-- The neighbour asks for the display in between, has no token and is refused. -/
def neighbourRefused : List Event :=
  [.connect neighbour tokenTwo, .message (.hello protocolVersion "phone" none) 200 "" none,
    .cleanUp 210, .connect sender tokenTwo]

theorem neighbour_costs_resume :
    droppedCast.phase = .ending ∧ droppedCast.session.state.isStreaming = true ∧
      droppedCast.session.token = tokenOne ∧
      ever step accepts (droppedCast.step (.cleanUp 100)).1 neighbourRefused = false ∧
      (final step droppedCast (.cleanUp 100 :: neighbourRefused)).phase = .handshake sender ∧
      ¬ resumes droppedCast.session.params
        ((final step droppedCast (.cleanUp 100 :: neighbourRefused)).step
          (.message (.hello protocolVersion "laptop" (some tokenOne)) 500 "" none)) := by
  refine ⟨by decide +kernel, by decide +kernel, by decide +kernel, by decide +kernel,
    by decide +kernel, ?_⟩
  rintro ⟨_, resumed, _⟩
  exact absurd resumed (by decide +kernel)

end Castr.Receiver.Network
