import Castr.Lib.Run
import Castr.Media.Jitter
import Castr.Proto.Session
import Castr.Receiver.Display

/-! The receiver's connection loop, with the Miracast sink and the decode thread beside it.

Connections are handled one at a time; the session outlives them. An event is what one of
the three tasks does between two waits. A message comes with what only its handling finds
out: the clock, the PIN it would generate, and which of its sends fails, if any. -/

namespace Castr.Receiver

open Castr.Lib
open Castr.Media (JitterBuffer)
open Castr.Proto

abbrev Fingerprint := Vector UInt8 32

def pairingWindowUs : Nat := 60000000
def pairingLockoutUs : Nat := 60000000
def pairingMaxFailures : Nat := 3

structure PairingGuard where
  failures : List Nat
  lockedUntil : Option Nat
  deriving DecidableEq, Repr

namespace PairingGuard

def new : PairingGuard := ⟨[], none⟩

def isLocked (g : PairingGuard) (now : Nat) : Bool := g.lockedUntil.any (fun until_ => now < until_)

def recordFailure (g : PairingGuard) (now : Nat) : PairingGuard :=
  let failures := g.failures.dropWhile (fun oldest => now - oldest > pairingWindowUs) ++ [now]
  if failures.length ≥ pairingMaxFailures then ⟨[], some (now + pairingLockoutUs)⟩
  else { g with failures := failures }

end PairingGuard

inductive Phase where
  | accepting
  | handshake (peer : Fingerprint)
  | pairing (peer : Fingerprint)
  | streaming (peer : Fingerprint)
  | ending
  deriving DecidableEq, Repr

structure Network where
  name : String
  /-- The name the Miracast sink shows, when it has one of its own. -/
  miracastName : Option String
  caps : Capabilities
  session : ReceiverSession
  phase : Phase
  owner : Owner
  jitter : JitterBuffer
  /-- What the screen shows over the picture. -/
  overlay : Option String
  guard : PairingGuard
  paired : List Fingerprint
  /-- The Miracast thread's own frame counter. -/
  accessUnits : UInt32
  deriving DecidableEq, Repr

inductive SinkOut where
  | pin (pin : String)
  | pinCleared
  | video (data : Bytes) (ptsUs : Option UInt64)
  | audio (data : Bytes)
  | started
  | ended (reason : String)
  | reconnecting
  | idle
  deriving DecidableEq, Repr

/-- What the peer gets to see of a step, and whether the session was resumed in it. -/
structure Reply where
  sends : List ControlMessage
  resumed : Bool
  deriving DecidableEq, Repr

def Reply.nothing : Reply := ⟨[], false⟩

def idleOverlay (name : String) : String := name ++ "\nWaiting for sender"

def pairingOverlay (name pin : String) : String := name ++ "\nMiracast PIN " ++ pin

def hasKeyframe : Bytes → Bool
  | 0 :: 0 :: 1 :: nal :: rest =>
      if nal &&& 0x1f = 5 ∨ nal &&& 0x1f = 7 then true else hasKeyframe (nal :: rest)
  | _ :: rest => hasKeyframe rest
  | [] => false

/-- The actions of the session in order: sends until the one that fails, an end at a `fail`.
The last part is how many sends may still follow. -/
def perform : List Action → Option Nat → Reply × Bool × Option Nat
  | [], left => (Reply.nothing, true, left)
  | .send _ :: _, some 0 => (Reply.nothing, false, some 0)
  | .send message :: rest, left =>
      let (reply, through, left) := perform rest (left.map (· - 1))
      ({ reply with sends := message :: reply.sends }, through, left)
  | .resumed :: rest, left =>
      let (reply, through, left) := perform rest left
      ({ reply with resumed := true }, through, left)
  | .fail _ :: _, left => (Reply.nothing, false, left)

def performSends (actions : List Action) (left : Option Nat) : Reply × Bool :=
  let sends := actions.filterMap (fun action =>
    match action with
    | .send message => some message
    | _ => none)
  match left with
  | none => (⟨sends, false⟩, true)
  | some n => (⟨sends.take n, false⟩, decide (sends.length ≤ n))

def shouldMarkDisconnected (state : ReceiverState) : Bool := state.isStreaming

namespace Network

inductive Event where
  /-- A link is accepted; `token` is the token of a session made for it. -/
  | connect (peer : Fingerprint) (token : Token)
  | message (message : ControlMessage) (nowUs : UInt64) (pin : String) (failAt : Option Nat)
  | pairingDone (ok saved : Bool) (nowUs : UInt64)
  /-- The connection's reassembler completed a video frame. -/
  | video (frame : CompleteFrame) (nowUs : UInt64)
  | lost
  | cleanUp (nowUs : UInt64)
  | miracast (out : SinkOut) (nowUs : UInt64)
  | miracastAcquires
  | miracastReleases
  | pop (nowUs : UInt64)
  | decodeError
  deriving DecidableEq, Repr

def new (name : String) (miracastName : Option String) (caps : Capabilities) (token : Token)
    (jitter : JitterBuffer) (paired : List Fingerprint) : Network where
  name := name
  miracastName := miracastName
  caps := caps
  session := ReceiverSession.new name caps token
  phase := .accepting
  owner := .idle
  jitter := jitter
  overlay := some (idleOverlay name)
  guard := PairingGuard.new
  paired := paired
  accessUnits := 0

def isPaired (r : Network) (peer : Fingerprint) : Bool := r.paired.contains peer

def startStreaming (r : Network) (peer : Fingerprint) : Network :=
  let r := { r with phase := .streaming peer }
  match r.session.params with
  | some p => { r with jitter := r.jitter.setMode p.mode, overlay := none }
  | none => r

def refuseUnpaired (r : Network) (peer : Fingerprint) (nowUs : UInt64) (pin : String)
    (failAt : Option Nat) : Network × Reply :=
  if r.guard.isLocked nowUs.toNat then
    ({ r with phase := .ending },
      (perform [.send (.error 4 "pairing locked, try again later")] failAt).1)
  else
    match perform [.send (.error 4 "pairing required")] failAt with
    | (reply, true, _) =>
        ({ r with phase := .pairing peer, overlay := some ("PIN " ++ pin) }, reply)
    | (reply, false, _) => ({ r with phase := .ending }, reply)

/-- A `Hello` of a paired peer: the session answers, then the display decides. -/
def greet (r : Network) (peer : Fingerprint) (message : ControlMessage) (nowUs : UInt64)
    (failAt : Option Nat) : Network × Reply :=
  let (session, actions) := r.session.onMessage message nowUs
  let r := { r with session := session }
  match perform actions failAt with
  | (reply, false, _) => ({ r with phase := .ending }, reply)
  | (reply, true, left) =>
      if session.state.isStreaming then
        match r.owner.tryAcquire .castr with
        | (true, owner) =>
            -- the NACK stream is opened before anything else
            if left = some 0 then ({ r with owner := owner, phase := .ending }, reply)
            else (startStreaming { r with owner := owner } peer, reply)
        | (false, owner) =>
            let (busy, _, _) := perform [.send (.error 5 "display busy")] left
            ({ r with owner := owner, phase := .ending },
              { reply with sends := reply.sends ++ busy.sends })
      else (r, reply)

def control (r : Network) (message : ControlMessage) (nowUs : UInt64) (failAt : Option Nat) :
    Network × Reply :=
  let r :=
    match message with
    | .startStream p =>
        { r with
          jitter := JitterBuffer.new p.mode (1000000 / (max p.fps 1).toUInt64), overlay := none }
    | .setMode mode => { r with jitter := r.jitter.setMode mode }
    | _ => r
  let (session, actions) := r.session.onMessage message nowUs
  let r := { r with session := session }
  let goodbye := match message with
    | .goodbye _ => true
    | _ => false
  match performSends actions failAt with
  | (reply, through) => (if !through || goodbye then { r with phase := .ending } else r, reply)

def handle (r : Network) (message : ControlMessage) (nowUs : UInt64) (pin : String)
    (failAt : Option Nat) : Network × Reply :=
  match r.phase with
  | .handshake peer =>
      match message with
      | .hello _ _ _ =>
          if r.isPaired peer then r.greet peer message nowUs failAt
          else r.refuseUnpaired peer nowUs pin failAt
      | _ => (r, Reply.nothing)
  | .streaming _ => r.control message nowUs failAt
  | _ => (r, Reply.nothing)

def cleanUpOverlay (name : String) (state : ReceiverState) : String :=
  if state.isDisconnected then "Reconnecting" else idleOverlay name

/-- What follows every connection, however it ended. -/
def cleanUp (r : Network) (nowUs : UInt64) : Network :=
  let session :=
    if shouldMarkDisconnected r.session.state then r.session.onDisconnect nowUs else r.session
  { r with
    owner := r.owner.release .castr
    session := session
    jitter := r.jitter.flush
    overlay := some (cleanUpOverlay r.name session.state)
    phase := .accepting }

def idleName (r : Network) : String := r.miracastName.getD r.name

def sink (r : Network) (out : SinkOut) (nowUs : UInt64) : Network :=
  match out with
  | .pin pin => { r with overlay := some (pairingOverlay r.idleName pin) }
  | .pinCleared => { r with overlay := some (idleOverlay r.idleName) }
  | .started => { r with overlay := none }
  | .reconnecting => { r with overlay := some "Reconnecting…" }
  | .idle => { r with overlay := some (idleOverlay r.idleName) }
  | .video data ptsUs =>
      let frame : CompleteFrame := {
        stream := 0
        frameNumber := r.accessUnits
        timestampUs := ptsUs.getD nowUs
        keyframe := hasKeyframe data
        data := data }
      { r with accessUnits := r.accessUnits + 1, jitter := r.jitter.push frame nowUs }
  | .audio _ => r
  | .ended _ => { r with jitter := r.jitter.flush }

def step (r : Network) : Event → Network × Reply
  | .connect peer token =>
      if r.phase = .accepting then
        let session :=
          if r.session.state = .closed then ReceiverSession.new r.name r.caps token else r.session
        ({ r with session := session, phase := .handshake peer }, Reply.nothing)
      else (r, Reply.nothing)
  | .message message nowUs pin failAt => r.handle message nowUs pin failAt
  | .pairingDone ok saved nowUs =>
      match r.phase with
      | .pairing peer =>
          if ok then
            ({ r with
              paired := peer :: r.paired
              phase := if saved then .handshake peer else .ending }, Reply.nothing)
          else
            ({ r with guard := r.guard.recordFailure nowUs.toNat, phase := .ending }, Reply.nothing)
      | _ => (r, Reply.nothing)
  | .video frame nowUs =>
      match r.phase with
      | .streaming _ => ({ r with jitter := r.jitter.push frame nowUs }, Reply.nothing)
      | _ => (r, Reply.nothing)
  | .lost =>
      match r.phase with
      | .handshake _ | .streaming _ => ({ r with phase := .ending }, Reply.nothing)
      | _ => (r, Reply.nothing)
  | .cleanUp nowUs =>
      if r.phase = .ending then (r.cleanUp nowUs, Reply.nothing) else (r, Reply.nothing)
  | .miracast out nowUs => (r.sink out nowUs, Reply.nothing)
  | .miracastAcquires => ({ r with owner := (r.owner.tryAcquire .miracast).2 }, Reply.nothing)
  | .miracastReleases => ({ r with owner := r.owner.release .miracast }, Reply.nothing)
  | .pop nowUs => ({ r with jitter := (r.jitter.pop nowUs).buffer }, Reply.nothing)
  | .decodeError => ({ r with jitter := r.jitter.requireKeyframe }, Reply.nothing)

end Network

end Castr.Receiver
