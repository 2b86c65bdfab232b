import Castr.Receiver.Greeting

/-! What refused connections leave for the next `Hello`, while nobody has streamed. -/

namespace Castr.Receiver.Network

open Castr.Lib.Run
open Castr.Proto

/-- The step replaces the session, for a link that finds it closed. -/
def renews (r : Network) : Event → Bool
  | .connect _ _ => r.phase = .accepting ∧ r.session.state = .closed
  | _ => false

/-- The step leaves the receiver in the streaming loop. -/
def streams (r : Network) (event : Event) : Bool := (r.step event).1.phase.isStreaming

/-- A session that has heard a `Hello` without streaming waits for a token, or will once its
connection is cleaned up, or is closed and is replaced by the next link. -/
inductive Spoiled (r : Network) : Prop where
  | waiting (disconnected : r.session.state.isDisconnected = true)
  | leaving (ended : r.phase = .ending) (streaming : r.session.state.isStreaming = true)
  | closed (closed : r.session.state = .closed) (between : r.phase = .ending ∨ r.phase = .accepting)

theorem greeting_spoils (r : Network) (peer : Fingerprint) (version : UInt16) (name : String)
    (token : Option Token) (nowUs : UInt64) (failAt : Option Nat)
    (waits : r.session.state = .awaitingHello ∨ r.session.state.isDisconnected = true)
    (quiet : (r.greet peer (.hello version name token) nowUs failAt).1.phase.isStreaming = false) :
    Spoiled (r.greet peer (.hello version name token) nowUs failAt).1 := by
  obtain ⟨ended, closed | streaming⟩ :=
    greet_ends r peer version name token nowUs failAt waits quiet
  · exact .closed closed (Or.inl ended)
  · exact .leaving ended streaming

theorem cleanUp_spoiled (r : Network) (nowUs : UInt64) (spoiled : Spoiled r) :
    Spoiled (r.cleanUp nowUs) := by
  have session := cleanUp_session r nowUs
  by_cases streaming : r.session.state.isStreaming = true
  · rw [if_pos streaming] at session
    exact .waiting (by rw [session]; rfl)
  · rw [if_neg streaming] at session
    cases spoiled with
    | waiting disconnected => exact .waiting (by rw [session]; exact disconnected)
    | leaving ended waits => exact absurd waits streaming
    | closed closed between => exact .closed (by rw [session]; exact closed) (Or.inr rfl)

theorem Spoiled.handshake {r : Network} (spoiled : Spoiled r) (peer : Fingerprint)
    (waits : r.phase = .handshake peer) : r.session.state.isDisconnected = true := by
  cases spoiled with
  | waiting disconnected => exact disconnected
  | leaving ended streaming =>
      rw [waits] at ended
      cases ended
  | closed closed between =>
      rw [waits] at between
      rcases between with ended | free
      · cases ended
      · cases free

theorem spoiled_step (r : Network) (event : Event) (spoiled : Spoiled r)
    (before : r.phase.isStreaming = false) (kept : r.renews event = false)
    (dark : r.streams event = false) : Spoiled (r.step event).1 := by
  have moves := step_moves r event before
  unfold streams at dark
  generalize (r.step event).1 = next at moves dark
  cases moves with
  | greeting peer version name token nowUs pin failAt waits known =>
      exact greeting_spoils r peer version name token nowUs failAt
        (Or.inr (spoiled.handshake peer waits)) dark
  | connects peer token free =>
      have alive : r.session.state ≠ .closed := by simpa [renews, free] using kept
      cases spoiled with
      | waiting disconnected => exact .waiting (by simpa [alive] using disconnected)
      | leaving ended streaming =>
          rw [free] at ended
          cases ended
      | closed closed between => exact absurd closed alive
  | ends nowUs ended => exact cleanUp_spoiled r nowUs spoiled
  | other _ _ silent same quiet stays =>
      cases spoiled with
      | waiting disconnected => exact .waiting (by rw [same]; exact disconnected)
      | leaving ended streaming =>
          exact .leaving ((stays (Or.inl ended)).trans ended) (by rw [same]; exact streaming)
      | closed closed between =>
          refine .closed (by rw [same]; exact closed) ?_
          rw [stays between]
          exact between

/-- What the session is after a run without streaming, by whether a `Hello` has reached it. -/
structure Since (start : Network) (greeted : Bool) (r : Network) : Prop where
  quiet : r.phase.isStreaming = false
  fresh : greeted = false → r.session = start.session
  spoiled : greeted = true → Spoiled r

theorem since_run (start : Network) (events : List Event)
    (fresh : start.session.state = .awaitingHello) (quiet : start.phase.isStreaming = false)
    (kept : ever step renews start events = false) (dark : ever step streams start events = false) :
    Since start (ever step greets start events) (final step start events) := by
  apply final_induction step start events
    (fun front r => Since start (ever step greets start front) r)
  · exact ⟨quiet, fun _ => rfl, fun greeted => by cases greeted⟩
  · intro front event back split since
    have keptHere := never_at step start renews events front back event split kept
    have darkHere := never_at step start streams events front back event split dark
    rw [ever_snoc]
    generalize final step start front = r at since keptHere darkHere ⊢
    cases greeted : ever step greets start front with
    | true =>
        refine ⟨darkHere, fun silent => by simp at silent, fun _ => ?_⟩
        exact spoiled_step r event (since.spoiled greeted) since.quiet keptHere darkHere
    | false =>
        have same := since.fresh greeted
        have waits : r.session.state = .awaitingHello := by rw [same]; exact fresh
        refine ⟨darkHere, fun silent => ?_, fun heard => ?_⟩
        · rw [session_kept r event since.quiet (by simp [waits])
            (by rw [waits]; rfl) (by simpa using silent), same]
        · have moves := step_moves r event since.quiet
          have here : (r.step event).1.phase.isStreaming = false := darkHere
          generalize (r.step event).1 = next at moves here
          cases moves with
          | greeting peer version name token nowUs pin failAt _ _ =>
              exact greeting_spoils r peer version name token nowUs failAt (Or.inl waits) here
          | other _ _ silent _ _ _ => simp [silent] at heard
          | connects peer token free => simp [greets] at heard
          | ends nowUs ended => simp [greets] at heard

/-- The peer is greeted with a token, and not turned away for lack of one. -/
def welcomed (reply : Reply) : Prop :=
  (∃ name caps token rest, reply.sends = .helloAck name caps :: .sessionToken token :: rest) ∧
    ∀ text, .error 1 text ∉ reply.sends

theorem fresh_welcomes (r : Network) (peer : Fingerprint) (name : String) (nowUs : UInt64)
    (pin : String) (waits : r.phase = .handshake peer) (known : r.isPaired peer = true)
    (fresh : r.session.state = .awaitingHello) :
    welcomed (r.step (.message (.hello protocolVersion name none) nowUs pin none)).2 := by
  obtain ⟨busy, refusal, reply⟩ := hello_reply r peer protocolVersion name none nowUs
    pin waits known
  have answered : (r.session.onMessage (.hello protocolVersion name none) nowUs).2 =
      [.send r.session.ack, .send (.sessionToken r.session.token)] := by
    simp [ReceiverSession.onMessage, ReceiverSession.onHello, fresh]
  rw [reply, answered]
  refine ⟨⟨r.session.name, r.session.caps, r.session.token, busy, rfl⟩, ?_⟩
  intro text member
  rcases refusal with rfl | rfl
  · simp [perform, Reply.nothing, ReceiverSession.ack] at member
  · simp [perform, Reply.nothing, ReceiverSession.ack] at member

theorem spoiled_rejects (r : Network) (peer : Fingerprint) (name : String) (nowUs : UInt64)
    (pin : String) (waits : r.phase = .handshake peer) (known : r.isPaired peer = true)
    (spoiled : Spoiled r) :
    ¬ welcomed (r.step (.message (.hello protocolVersion name none) nowUs pin none)).2 := by
  obtain ⟨busy, _, reply⟩ := hello_reply r peer protocolVersion name none nowUs pin waits known
  have answered : (r.session.onMessage (.hello protocolVersion name none) nowUs).2 =
      ReceiverSession.badToken := by
    have disconnected := spoiled.handshake peer waits
    cases state : r.session.state with
    | disconnected since => simp [ReceiverSession.onMessage, ReceiverSession.onHello, state]
    | _ =>
        rw [state] at disconnected
        cases disconnected
  rw [reply, answered]
  rintro ⟨_, accepted⟩
  exact accepted "invalid or expired session token" (by simp [perform, ReceiverSession.badToken])

/-- While nobody has streamed since the session was made, the next paired `Hello` is welcome
exactly when no other has reached the session. -/
theorem next_hello_welcomed_iff (start : Network) (token : Token) (events : List Event)
    (made : start.session = ReceiverSession.new start.name start.caps token)
    (quiet : start.phase.isStreaming = false) (kept : ever step renews start events = false)
    (dark : ever step streams start events = false) (peer : Fingerprint)
    (waits : (final step start events).phase = .handshake peer)
    (known : (final step start events).isPaired peer = true) (name : String) (nowUs : UInt64)
    (pin : String) :
    welcomed
        ((final step start events).step
          (.message (.hello protocolVersion name none) nowUs pin none)).2 ↔
      ever step greets start events = false := by
  have fresh : start.session.state = .awaitingHello := by rw [made]; rfl
  have since := since_run start events fresh quiet kept dark
  cases greeted : ever step greets start events with
  | false =>
      have waiting : (final step start events).session.state = .awaitingHello := by
        rw [since.fresh greeted, fresh]
      exact iff_of_true (fresh_welcomes _ peer name nowUs pin waits known waiting) rfl
  | true =>
      refine iff_of_false (spoiled_rejects _ peer name nowUs pin waits known ?_) (by decide)
      exact since.spoiled greeted

/-- A peer that is not paired fails its PIN, and then a paired one connects. -/
def failedPairing : List Event :=
  [.connect (Vector.replicate 32 8) tokenTwo,
    .message (.hello protocolVersion "phone" none) 10 "1234" none, .pairingDone false false 20,
    .cleanUp 30, .connect sender tokenTwo]

theorem next_hello_after_pairing :
    welcomed ((final step livingRoom failedPairing).step
      (.message (.hello protocolVersion "laptop" none) 40 "" none)).2 :=
  (next_hello_welcomed_iff livingRoom tokenOne failedPairing rfl rfl (by decide +kernel)
    (by decide +kernel) sender (by decide +kernel) (by decide +kernel) "laptop" 40 "").mpr
    (by decide +kernel)

/-- A paired sender finds the display busy, and comes again later. -/
def comesAgain : List Event :=
  [.miracastAcquires, .connect sender tokenTwo,
    .message (.hello protocolVersion "laptop" none) 10 "" none, .cleanUp 20, .miracastReleases,
    .connect sender tokenTwo]

/-- The refusal leaves a session that asks for a token, and the next `Hello` has none. -/
theorem busy_then_token_demanded :
    ever step renews livingRoom comesAgain = false ∧
      ever step streams livingRoom comesAgain = false ∧
      (final step livingRoom comesAgain).phase = .handshake sender ∧
      ¬ welcomed ((final step livingRoom comesAgain).step
        (.message (.hello protocolVersion "laptop" none) 30 "" none)).2 := by
  refine ⟨by decide +kernel, by decide +kernel, by decide +kernel, ?_⟩
  rintro ⟨_, accepted⟩
  exact accepted "invalid or expired session token" (by decide +kernel)

end Castr.Receiver.Network
