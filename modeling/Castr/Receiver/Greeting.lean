import Castr.Receiver.Network

/-! What a step of the connection loop can do to the session. -/

namespace Castr.Receiver

open Castr.Lib.Run
open Castr.Proto

def Phase.isStreaming : Phase → Bool
  | .streaming _ => true
  | _ => false

namespace Network

/-- The step is a `Hello` of a paired peer, which is handed to the session. -/
def greets (r : Network) : Event → Bool
  | .message (.hello _ _ _) _ _ _ =>
      match r.phase with
      | .handshake peer => r.isPaired peer
      | _ => false
  | _ => false

@[simp] theorem startStreaming_session (r : Network) (peer : Fingerprint) :
    (r.startStreaming peer).session = r.session := by
  unfold startStreaming
  dsimp only
  split <;> rfl

@[simp] theorem startStreaming_phase (r : Network) (peer : Fingerprint) :
    (r.startStreaming peer).phase = .streaming peer := by
  unfold startStreaming
  dsimp only
  split <;> rfl

@[simp] theorem greet_session (r : Network) (peer : Fingerprint) (message : ControlMessage)
    (nowUs : UInt64) (failAt : Option Nat) :
    (r.greet peer message nowUs failAt).1.session = (r.session.onMessage message nowUs).1 := by
  unfold greet
  generalize r.session.onMessage message nowUs = answered
  obtain ⟨session, actions⟩ := answered
  dsimp only
  split
  · rfl
  · split
    · split
      · split
        · rfl
        · simp
      · rfl
    · rfl

theorem greet_phase (r : Network) (peer : Fingerprint) (message : ControlMessage) (nowUs : UInt64)
    (failAt : Option Nat) :
    (r.greet peer message nowUs failAt).1.phase = .streaming peer ∨
      (r.greet peer message nowUs failAt).1.phase = .ending ∨
      ((r.greet peer message nowUs failAt).1.phase = r.phase ∧
        (r.session.onMessage message nowUs).1.state.isStreaming = false ∧
        (perform (r.session.onMessage message nowUs).2 failAt).2.1 = true) := by
  unfold greet
  generalize r.session.onMessage message nowUs = answered
  obtain ⟨session, actions⟩ := answered
  dsimp only
  split
  · exact Or.inr (Or.inl rfl)
  · rename_i reply left performed
    split
    · split
      · split
        · exact Or.inr (Or.inl rfl)
        · exact Or.inl (by simp)
      · exact Or.inr (Or.inl rfl)
    · rename_i idle
      exact Or.inr (Or.inr ⟨rfl, by simpa using idle, by rw [performed]⟩)

theorem perform_fail (actions : List Action) (failAt : Option Nat)
    (failed : actions.any Action.isFail = true) : (perform actions failAt).2.1 = false := by
  induction actions generalizing failAt with
  | nil => cases failed
  | cons action actions ih =>
      cases action with
      | fail other => simp [perform]
      | resumed =>
          have rest := ih failAt (by simpa [Action.isFail] using failed)
          simpa [perform] using rest
      | send message =>
          have later : actions.any Action.isFail = true := by
            simpa [Action.isFail] using failed
          cases failAt with
          | none => simpa [perform] using ih none later
          | some n =>
              cases n with
              | zero => simp [perform]
              | succ n => simpa [perform] using ih (some n) later

theorem greet_refused (r : Network) (peer : Fingerprint) (message : ControlMessage)
    (nowUs : UInt64) (failAt : Option Nat)
    (refused : (r.session.onMessage message nowUs).2.any Action.isFail = true) :
    (r.greet peer message nowUs failAt).1.phase = .ending := by
  have failed := perform_fail _ failAt refused
  unfold greet
  generalize r.session.onMessage message nowUs = answered at failed
  obtain ⟨session, actions⟩ := answered
  dsimp only at failed ⊢
  split
  · rfl
  · rename_i performed
    rw [performed] at failed
    cases failed

theorem greet_ends (r : Network) (peer : Fingerprint) (version : UInt16) (name : String)
    (token : Option Token) (nowUs : UInt64) (failAt : Option Nat)
    (waits : r.session.state = .awaitingHello ∨ r.session.state.isDisconnected = true)
    (quiet : (r.greet peer (.hello version name token) nowUs failAt).1.phase.isStreaming = false) :
    (r.greet peer (.hello version name token) nowUs failAt).1.phase = .ending ∧
      ((r.greet peer (.hello version name token) nowUs failAt).1.session.state = .closed ∨
        (r.greet peer (.hello version name token) nowUs failAt).1.session.state.isStreaming =
          true) := by
  rw [greet_session]
  have answered := r.session.onMessage_hello version name token nowUs waits
  refine ⟨?_, answered.imp And.left And.left⟩
  rcases greet_phase r peer (.hello version name token) nowUs failAt with
    streaming | ended | ⟨_, idle, through⟩
  · rw [streaming] at quiet
    cases quiet
  · exact ended
  · rcases answered with ⟨_, failed⟩ | ⟨streaming, _⟩
    · rw [perform_fail _ _ failed] at through
      cases through
    · rw [streaming] at idle
      cases idle

/-- What a step outside the streaming loop leaves: a greeting, a new link or a clean-up
moves the session, and nothing else does. -/
inductive Moves (r : Network) : Event → Network → Prop where
  | greeting (peer : Fingerprint) (version : UInt16) (name : String) (token : Option Token)
      (nowUs : UInt64) (pin : String) (failAt : Option Nat) (waits : r.phase = .handshake peer)
      (known : r.isPaired peer = true) :
      Moves r (.message (.hello version name token) nowUs pin failAt)
        (r.greet peer (.hello version name token) nowUs failAt).1
  | connects (peer : Fingerprint) (token : Token) (free : r.phase = .accepting) :
      Moves r (.connect peer token) { r with
        session := if r.session.state = .closed then ReceiverSession.new r.name r.caps token
          else r.session
        phase := .handshake peer }
  | ends (nowUs : UInt64) (ended : r.phase = .ending) : Moves r (.cleanUp nowUs) (r.cleanUp nowUs)
  | other (event : Event) (next : Network) (silent : r.greets event = false)
      (same : next.session = r.session) (quiet : next.phase.isStreaming = false)
      (stays : r.phase = .ending ∨ r.phase = .accepting → next.phase = r.phase) :
      Moves r event next

theorem Moves.still (r : Network) (event : Event) (quiet : r.phase.isStreaming = false)
    (silent : r.greets event = false) (same : (r.step event).1 = r) :
    Moves r event (r.step event).1 := by
  rw [same]
  exact .other _ _ silent rfl quiet (fun _ => rfl)

theorem step_moves (r : Network) (event : Event) (quiet : r.phase.isStreaming = false) :
    Moves r event (r.step event).1 := by
  cases event with
  | connect peer token =>
      by_cases free : r.phase = .accepting
      · have linked := Moves.connects (r := r) peer token free
        simpa only [step, free, if_true] using linked
      · exact .still r _ quiet rfl (by simp [step, free])
  | message message nowUs pin failAt =>
      cases phase : r.phase with
      | handshake peer =>
          cases message with
          | hello version name token =>
              by_cases known : r.isPaired peer = true
              · have greeting := Moves.greeting peer version name token nowUs pin failAt phase known
                simpa [step, handle, phase, known] using greeting
              · refine .other _ _ (by simp [greets, phase, known]) ?_ ?_ (by simp [phase]) <;>
                · simp only [step, handle, phase, known, Bool.false_eq_true, if_false]
                  unfold refuseUnpaired
                  split
                  · rfl
                  · split <;> rfl
          | _ => exact .still r _ quiet rfl (by simp [step, handle, phase])
      | streaming peer =>
          rw [phase] at quiet
          cases quiet
      | _ =>
          exact .still r _ quiet (by cases message <;> simp [greets, phase])
            (by simp [step, handle, phase])
  | pairingDone ok saved nowUs =>
      cases phase : r.phase with
      | pairing peer =>
          cases ok with
          | true =>
              cases saved <;>
                exact .other _ _ rfl (by simp [step, phase])
                  (by simp [step, phase, Phase.isStreaming]) (by simp [phase])
          | false =>
              exact .other _ _ rfl (by simp [step, phase])
                (by simp [step, phase, Phase.isStreaming]) (by simp [phase])
      | streaming peer =>
          rw [phase] at quiet
          cases quiet
      | _ => exact .still r _ quiet rfl (by simp [step, phase])
  | video frame nowUs =>
      cases phase : r.phase with
      | streaming peer =>
          rw [phase] at quiet
          cases quiet
      | _ => exact .still r _ quiet rfl (by simp [step, phase])
  | lost =>
      cases phase : r.phase with
      | handshake peer =>
          exact .other _ _ rfl (by simp [step, phase])
            (by simp [step, phase, Phase.isStreaming]) (by simp [phase])
      | streaming peer =>
          rw [phase] at quiet
          cases quiet
      | _ => exact .still r _ quiet rfl (by simp [step, phase])
  | cleanUp nowUs =>
      by_cases ended : r.phase = .ending
      · have closing := Moves.ends (r := r) nowUs ended
        simpa [step, ended] using closing
      · exact .still r _ quiet rfl (by simp [step, ended])
  | miracast out nowUs =>
      cases out <;> exact .other _ _ rfl rfl quiet (fun _ => rfl)
  | _ => exact .other _ _ rfl rfl quiet (fun _ => rfl)

theorem cleanUp_session (r : Network) (nowUs : UInt64) :
    (r.cleanUp nowUs).session =
      if r.session.state.isStreaming then { r.session with state := .disconnected nowUs }
      else r.session := by
  unfold cleanUp shouldMarkDisconnected
  dsimp only
  split
  · rename_i streaming
    unfold ReceiverSession.onDisconnect
    split
    · rename_i closed
      rw [closed] at streaming
      cases streaming
    · rfl
  · rfl

theorem session_kept (r : Network) (event : Event) (quiet : r.phase.isStreaming = false)
    (alive : r.session.state ≠ .closed) (idle : r.session.state.isStreaming = false)
    (silent : r.greets event = false) : (r.step event).1.session = r.session := by
  have moves := step_moves r event quiet
  generalize (r.step event).1 = next at moves
  cases moves with
  | greeting peer version name token nowUs pin failAt waits known =>
      simp [greets, waits, known] at silent
  | connects peer token free => simp [alive]
  | ends nowUs ended => simp [cleanUp_session, idle]
  | other _ _ _ same _ _ => exact same

theorem quiet_kept (r : Network) (event : Event) (quiet : r.phase.isStreaming = false)
    (silent : r.greets event = false) : (r.step event).1.phase.isStreaming = false := by
  have moves := step_moves r event quiet
  generalize (r.step event).1 = next at moves
  cases moves with
  | greeting peer version name token nowUs pin failAt waits known =>
      simp [greets, waits, known] at silent
  | connects peer token free => rfl
  | ends nowUs ended => rfl
  | other _ _ _ _ still _ => exact still

theorem perform_unlimited (actions : List Action) : (perform actions none).2.2 = none := by
  induction actions with
  | nil => rfl
  | cons action actions ih => cases action <;> simp [perform, ih]

theorem greet_reply (r : Network) (peer : Fingerprint) (message : ControlMessage)
    (nowUs : UInt64) :
    ∃ busy, (busy = [] ∨ busy = [.error 5 "display busy"]) ∧
      (r.greet peer message nowUs none).2 =
        ⟨(perform (r.session.onMessage message nowUs).2 none).1.sends ++ busy,
          (perform (r.session.onMessage message nowUs).2 none).1.resumed⟩ := by
  unfold greet
  generalize r.session.onMessage message nowUs = answered
  obtain ⟨session, actions⟩ := answered
  have unlimited := perform_unlimited actions
  dsimp only
  split
  · rename_i reply left performed
    exact ⟨[], Or.inl rfl, by simp [performed]⟩
  · rename_i reply left performed
    rw [performed] at unlimited ⊢
    obtain rfl : left = none := unlimited
    split
    · split
      · exact ⟨[], Or.inl rfl, by simp⟩
      · exact ⟨[.error 5 "display busy"], Or.inr rfl, rfl⟩
    · exact ⟨[], Or.inl rfl, by simp⟩

theorem hello_reply (r : Network) (peer : Fingerprint) (version : UInt16) (name : String)
    (token : Option Token) (nowUs : UInt64) (pin : String) (waits : r.phase = .handshake peer)
    (known : r.isPaired peer = true) :
    ∃ busy, (busy = [] ∨ busy = [.error 5 "display busy"]) ∧
      (r.step (.message (.hello version name token) nowUs pin none)).2 =
        ⟨(perform (r.session.onMessage (.hello version name token) nowUs).2 none).1.sends ++ busy,
          (perform (r.session.onMessage (.hello version name token) nowUs).2 none).1.resumed⟩ := by
  simp only [step, handle, waits, known, if_true]
  exact greet_reply r peer (.hello version name token) nowUs

def sender : Fingerprint := Vector.replicate 32 7

def tokenOne : Token := Vector.replicate 16 1
def tokenTwo : Token := Vector.replicate 16 2

/-- A receiver that has just started, with one sender paired. -/
def livingRoom : Network :=
  new "Living room" none ⟨1920, 1080, 60, 40000000, [.h264], true⟩ tokenOne
    (Castr.Media.JitterBuffer.new .game 33333) [sender]

end Network

end Castr.Receiver
