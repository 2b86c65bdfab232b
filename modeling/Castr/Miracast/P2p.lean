import Mathlib.Data.List.Infix
import Castr.Lib.Run
import Castr.Lib.Sharing
import Castr.Lib.Text

/-! The supplicant's control channel. Replies and events come down one socket: `request` queues
the events it meets while it waits for its reply, and `pollEvent` hands them out. -/

namespace Castr.Miracast.P2p

open Castr.Lib.Run
open Castr.Lib.Sharing
open Castr.Lib.Text

inductive Event where
  | groupStarted (interface : String) (go : Bool) (freqMhz : Nat)
  | groupRemoved (interface : String)
  | clientConnected (mac : String)
  | clientDisconnected (mac : String)
  | provisionRequest (peer : String)
  | wpsSuccess
  | wpsFail
  | other (text : String)
  deriving DecidableEq, Repr

def routine : List String :=
  ["CTRL-EVENT-SCAN-STARTED", "CTRL-EVENT-SCAN-RESULTS", "CTRL-EVENT-BSS-ADDED",
    "CTRL-EVENT-BSS-REMOVED", "CTRL-EVENT-SUBNET-STATUS-UPDATE", "P2P-DEVICE-FOUND",
    "P2P-DEVICE-LOST", "P2P-FIND-STOPPED"]

def isRoutine (name : List Char) : Bool := routine.any (fun known => known.toList == name)

def body (line : List Char) : List Char :=
  match splitOnce '>' line with
  | some parts => if parts.1.head? = some '<' then parts.2 else line
  | none => line

def frequency (body : List Char) : Nat :=
  (((words body).findSome? (stripPrefix "freq=".toList)).bind (number 10 (2 ^ 32))).getD 0

def parseEvent (line : List Char) : Option Event :=
  match words (body line) with
  | [] => none
  | name :: parts =>
      let argument := parts.head?.map String.ofList
      if name = "P2P-GROUP-STARTED".toList then
        argument.map (fun interface =>
          .groupStarted interface ((parts.drop 1).head? = some "GO".toList) (frequency (body line)))
      else if name = "P2P-GROUP-REMOVED".toList then argument.map .groupRemoved
      else if name = "AP-STA-CONNECTED".toList then argument.map .clientConnected
      else if name = "AP-STA-DISCONNECTED".toList then argument.map .clientDisconnected
      else if name = "P2P-PROV-DISC-PBC-REQ".toList ∨ name = "P2P-PROV-DISC-SHOW-PIN".toList ∨
          name = "P2P-PROV-DISC-ENTER-PIN".toList then argument.map .provisionRequest
      else if name = "WPS-SUCCESS".toList then some .wpsSuccess
      else if name = "WPS-FAIL".toList ∨ name = "WPS-TIMEOUT".toList then some .wpsFail
      else if isRoutine name then none
      else some (.other (String.ofList (trim (body line))))

inductive Look where
  | datagram (text : List Char)
  | nothing
  | broken
  deriving DecidableEq, Repr

def linesOf (looks : List Look) : List (List Char) :=
  looks.filterMap (fun look =>
    match look with
    | .datagram text => some (trimEnd text)
    | .nothing => none
    | .broken => none)

def isEvent (line : List Char) : Bool := line.head? == some '<'

inductive Fault where
  | noReply
  | io
  deriving DecidableEq, Repr

structure Control where
  pending : List Event
  deriving DecidableEq, Repr

namespace Control

def opened : Control := ⟨[]⟩

def awaitReply (control : Control) :
    List Look → Except Fault (List Char) × Control × List Look
  | [] => (.error .noReply, control, [])
  | .nothing :: looks => (.error .noReply, control, looks)
  | .broken :: looks => (.error .io, control, looks)
  | .datagram text :: looks =>
      let line := trimEnd text
      if isEvent line then awaitReply ⟨control.pending ++ (parseEvent line).toList⟩ looks
      else (.ok line, control, looks)

/-- A command and its reply; `sent` says whether the socket took the command. -/
def request (control : Control) (sent : Bool) (looks : List Look) :
    Except Fault (List Char) × Control × List Look :=
  if sent then control.awaitReply looks else (.error .io, control, looks)

def readEvent : List Look → Except Fault (Option Event) × List Look
  | [] => (.ok none, [])
  | .nothing :: looks => (.ok none, looks)
  | .broken :: looks => (.error .io, looks)
  | .datagram text :: looks =>
      match parseEvent (trimEnd text) with
      | some event => (.ok (some event), looks)
      | none => readEvent looks

def pollEvent (control : Control) (looks : List Look) :
    Except Fault (Option Event) × Control × List Look :=
  match control.pending with
  | event :: pending => (.ok (some event), ⟨pending⟩, looks)
  | [] => ((readEvent looks).1, control, (readEvent looks).2)

end Control

inductive Call where
  | request (command : String) (sent : Bool)
  | pollEvent
  deriving DecidableEq, Repr

inductive Answer where
  | reply (result : Except Fault (List Char))
  | event (result : Except Fault (Option Event))

/-- The channel, and the looks at its socket still to come. -/
structure Channel where
  control : Control
  looks : List Look

namespace Channel

def request (channel : Channel) (sent : Bool) : Except Fault (List Char) × Channel :=
  let out := channel.control.request sent channel.looks
  (out.1, ⟨out.2.1, out.2.2⟩)

def pollEvent (channel : Channel) : Except Fault (Option Event) × Channel :=
  let out := channel.control.pollEvent channel.looks
  (out.1, ⟨out.2.1, out.2.2⟩)

def step (channel : Channel) : Call → Channel × Answer
  | .request _ sent => ((channel.request sent).2, .reply (channel.request sent).1)
  | .pollEvent => (channel.pollEvent.2, .event channel.pollEvent.1)

end Channel

end Castr.Miracast.P2p
