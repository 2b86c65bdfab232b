import Castr.Lib.Word
import Castr.Proto.Control

/-! The receiver's `ReceiverSession`. -/

namespace Castr.Proto

open Castr.Lib.Word (saturatingSub)

def tokenTtlUs : UInt64 := 60000000

inductive ReceiverState where
  | awaitingHello
  | streaming (params : Option StreamParams)
  | disconnected (sinceUs : UInt64)
  | closed
  deriving DecidableEq, Repr

inductive Action where
  | send (message : ControlMessage)
  | resumed
  | fail (why : String)
  deriving DecidableEq, Repr

structure ReceiverSession where
  name : String
  caps : Capabilities
  token : Token
  state : ReceiverState
  params : Option StreamParams
  deriving DecidableEq, Repr

def ReceiverState.isStreaming : ReceiverState → Bool
  | .streaming _ => true
  | _ => false

def ReceiverState.isDisconnected : ReceiverState → Bool
  | .disconnected _ => true
  | _ => false

def Action.isFail : Action → Bool
  | .fail _ => true
  | _ => false

namespace ReceiverSession

def new (name : String) (caps : Capabilities) (token : Token) : ReceiverSession where
  name := name
  caps := caps
  token := token
  state := .awaitingHello
  params := none

def ack (s : ReceiverSession) : ControlMessage := .helloAck s.name s.caps

def onDisconnect (s : ReceiverSession) (nowUs : UInt64) : ReceiverSession :=
  if s.state = .closed then s else { s with state := .disconnected nowUs }

def badVersion (version : UInt16) : List Action :=
  [.send (.error 2 s!"unsupported protocol version {version}"), .fail "version mismatch"]

def badToken : List Action :=
  [.send (.error 1 "invalid or expired session token"), .fail "bad resume token"]

def onHello (s : ReceiverSession) (resumeToken : Option Token) (nowUs : UInt64) :
    ReceiverSession × List Action :=
  match s.state with
  | .awaitingHello =>
      ({ s with state := .streaming none }, [.send s.ack, .send (.sessionToken s.token)])
  | .disconnected since =>
      let fresh := saturatingSub nowUs since ≤ tokenTtlUs
      if resumeToken = some s.token ∧ fresh then
        ({ s with state := .streaming s.params }, [.send s.ack, .resumed])
      else ({ s with state := .closed }, badToken)
  | _ => (s, [])

def onMessage (s : ReceiverSession) (message : ControlMessage) (nowUs : UInt64) :
    ReceiverSession × List Action :=
  match message with
  | .hello version _ resumeToken =>
      if version ≠ protocolVersion then ({ s with state := .closed }, badVersion version)
      else s.onHello resumeToken nowUs
  | .startStream p =>
      if s.state.isStreaming then ({ s with params := some p, state := .streaming (some p) }, [])
      else (s, [])
  | .setMode m =>
      if s.state.isStreaming then
        ({ s with params := s.params.map (fun p => { p with mode := m }) }, [])
      else (s, [])
  | .goodbye _ => ({ s with state := .closed }, [])
  | _ => (s, [])

theorem onMessage_hello (s : ReceiverSession) (version : UInt16) (name : String)
    (token : Option Token) (nowUs : UInt64)
    (waits : s.state = .awaitingHello ∨ s.state.isDisconnected = true) :
    (s.onMessage (.hello version name token) nowUs).1.state = .closed ∧
        (s.onMessage (.hello version name token) nowUs).2.any Action.isFail = true ∨
      (s.onMessage (.hello version name token) nowUs).1.state.isStreaming = true ∧
        (s.onMessage (.hello version name token) nowUs).2.any Action.isFail = false := by
  simp only [onMessage]
  split
  · exact Or.inl ⟨rfl, rfl⟩
  · unfold onHello
    cases state : s.state with
    | awaitingHello => exact Or.inr ⟨rfl, rfl⟩
    | disconnected since =>
        dsimp only
        split
        · exact Or.inr ⟨rfl, rfl⟩
        · exact Or.inl ⟨rfl, rfl⟩
    | _ => simp [state, ReceiverState.isDisconnected] at waits

end ReceiverSession

end Castr.Proto
