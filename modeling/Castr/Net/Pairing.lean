import Castr.Proto.Control

/-! Pairing two devices over a link: the sender's and the receiver's side, over any password
authenticated key exchange and any keyed hash. -/

namespace Castr.Net.Pairing

open Castr.Proto

abbrev Fingerprint := Vector UInt8 32

inductive Role where
  | sender
  | receiver
  deriving DecidableEq, Repr

def ascii (text : String) : Bytes := text.toList.map (fun c => UInt8.ofNat c.toNat)

def idSender : Bytes := ascii "castr-sender"

def idReceiver : Bytes := ascii "castr-receiver"

def Role.tag : Role → Bytes
  | .sender => ascii "sender"
  | .receiver => ascii "receiver"

/-- What the code takes from its packages: the key exchange, which is started with a password, both
identities and randomness and finished with the other's message; the keyed hash; and the text of a
message for a log. -/
structure Primitives (Rand State Key : Type) where
  startA : Bytes → Bytes → Bytes → Rand → State × Bytes
  startB : Bytes → Bytes → Bytes → Rand → State × Bytes
  finish : State → Bytes → Option Key
  hmac : Key → Bytes → Vector UInt8 32
  debug : ControlMessage → String

/-- Where the sender's side waits: for the key exchange, for the receiver's proof, for its word. -/
inductive SenderPhase (State Key : Type) where
  | start (state : State)
  | proof (key : Key)
  | ok (key : Key)
  | paired (key : Key)
  | failed

inductive ReceiverPhase (Key : Type) where
  | start
  | proof (key : Key)
  | ok (key : Key)
  | paired (key : Key)
  | failed

/-- What a side of a pairing is given: the PIN, its randomness and the fingerprints of its link. -/
structure Party (Rand : Type) where
  pin : Bytes
  rand : Rand
  own : Fingerprint
  peer : Fingerprint

section Sides

variable {Rand State Key : Type} (lib : Primitives Rand State Key)

def proven (role : Role) (fp : Fingerprint) : Bytes := role.tag ++ fp.toList

def proof (key : Key) (role : Role) (fp : Fingerprint) : Vector UInt8 32 :=
  lib.hmac key (proven role fp)

def verify (key : Key) (role : Role) (fp : Fingerprint) (got : Vector UInt8 32) : Bool :=
  lib.hmac key (proven role fp) = got

def fail (why : String) : ControlMessage := .error 3 why

def Party.startA (party : Party Rand) : State × Bytes :=
  lib.startA party.pin idSender idReceiver party.rand

def Party.startB (party : Party Rand) : State × Bytes :=
  lib.startB party.pin idSender idReceiver party.rand

/-- `pair_as_sender`, from one message to the next; once it has returned it reads nothing. -/
def senderRecv (party : Party Rand) :
    SenderPhase State Key → ControlMessage → SenderPhase State Key × List ControlMessage
  | .start state, .pairResp m =>
      match lib.finish state m with
      | none => (.failed, [])
      | some key => (.proof key, [.pairProof (proof lib key .sender party.own)])
  | .start _, .error _ _ => (.failed, [])
  | .start _, other => (.failed, [fail ("unexpected " ++ lib.debug other)])
  | .proof key, .pairProof p =>
      if verify lib key .receiver party.peer p then (.ok key, [.pairOk])
      else (.failed, [fail "receiver proof mismatch"])
  | .proof _, .error _ _ => (.failed, [])
  | .proof _, _ => (.failed, [fail "receiver proof mismatch"])
  | .ok key, .pairOk => (.paired key, [])
  | .ok _, _ => (.failed, [])
  | .paired key, _ => (.paired key, [])
  | .failed, _ => (.failed, [])

/-- `pair_as_receiver`, from one message to the next. -/
def receiverRecv (party : Party Rand) :
    ReceiverPhase Key → ControlMessage → ReceiverPhase Key × List ControlMessage
  | .start, .pairInit m =>
      match lib.finish (party.startB lib).1 m with
      | none => (.failed, [])
      | some key => (.proof key, [.pairResp (party.startB lib).2])
  | .start, other => (.failed, [fail ("unexpected " ++ lib.debug other)])
  | .proof key, .pairProof p =>
      if verify lib key .sender party.peer p then
        (.ok key, [.pairProof (proof lib key .receiver party.own)])
      else (.failed, [fail "wrong PIN"])
  | .proof _, .error _ _ => (.failed, [])
  | .proof _, _ => (.failed, [fail "wrong PIN"])
  | .ok key, .pairOk => (.paired key, [.pairOk])
  | .ok _, _ => (.failed, [])
  | .paired key, _ => (.paired key, [])
  | .failed, _ => (.failed, [])

/-- The key of a side, from the key exchange until it fails. -/
def SenderPhase.key : SenderPhase State Key → Option Key
  | .proof key | .ok key | .paired key => some key
  | _ => none

def SenderPhase.verified : SenderPhase State Key → Option Key
  | .ok key | .paired key => some key
  | _ => none

def ReceiverPhase.key : ReceiverPhase Key → Option Key
  | .proof key | .ok key | .paired key => some key
  | _ => none

def ReceiverPhase.verified : ReceiverPhase Key → Option Key
  | .ok key | .paired key => some key
  | _ => none

end Sides

end Castr.Net.Pairing
