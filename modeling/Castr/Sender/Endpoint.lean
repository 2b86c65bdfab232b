import Mathlib.Data.List.Nodup
import Mathlib.Data.List.Perm.Basic
import Castr.Lib.Halting
import Castr.Lib.Hex
import Castr.Sender.Control

/-! Casts that leave a record and serve a port, and the clients that find them by it: any number of
both, whose steps come in any order. A port is free again when its cast is gone, for another cast or
for a stranger. -/

namespace Castr.Sender.Control

open Castr.Lib Castr.Lib.Text

structure Record where
  pid : UInt32
  port : UInt16
  token : List Char
  display : List Char
  address : List Char
  started : UInt64
  deriving DecidableEq, Repr

inductive File where
  | record (record : Record)
  | unreadable
  deriving DecidableEq, Repr

inductive Outcome where
  | noCast
  | stale (started : UInt64)
  | live
  deriving DecidableEq, Repr

def interpret (record : Option Record) (reachable : Bool) : Outcome :=
  match record with
  | none => .noCast
  | some record => if reachable then .live else .stale record.started

inductive Report where
  | noCast
  | stale (started : Option UInt64)
  | answered (response : Response)
  deriving DecidableEq, Repr

inductive Published (Rate : Type) where
  | poisoned
  | current (snapshot : Option (Snapshot Rate))

section Serving

variable {Rate : Type} (oneDecimal : Rate → List Char)

def beforeFirst : List Char := "mode=-\tmbps=0.0".toList

def stopping : List Char := "stopping".toList

def status : Published Rate → List Char
  | .poisoned => Denial.badRequest.line
  | .current none => formatOk beforeFirst
  | .current (some snapshot) => formatOk (snapshot.toFields oneDecimal)

/-- The reply, and whether the loop is told to stop. -/
def serve (line token : List Char) (published : Published Rate) : List Char × Bool :=
  match parseRequest line token with
  | .error denial => (denial.line, false)
  | .ok .stop => (formatOk stopping, true)
  | .ok .status => (status oneDecimal published, false)

end Serving

namespace Endpoint

def mintToken (bytes : Vector UInt8 16) : List Char := Hex.encode bytes.toList

/-- A cast's side: its record, whether its listener is open, and what it has published. -/
structure Cast (Rate : Type) where
  record : Record
  alive : Bool
  published : Published Rate

namespace Cast

variable {Rate : Type} (cast : Cast Rate)

def publish (snapshot : Snapshot Rate) : Cast Rate :=
  match cast.published with
  | .poisoned => cast
  | .current _ => { cast with published := .current (some snapshot) }

def panic : Cast Rate := { cast with published := .poisoned }

def close : Cast Rate := { cast with alive := false }

theorem publish_record (snapshot : Snapshot Rate) :
    (cast.publish snapshot).record = cast.record := by
  unfold publish
  split <;> rfl

end Cast

inductive Peer where
  | cast (index : Nat)
  | other
  deriving DecidableEq, Repr

inductive Result where
  | talked (report : Report)
  | failed
  | running (record : Option Record)
  deriving DecidableEq, Repr

inductive Phase where
  | arrived
  | looked
  | connected
  | waiting
  | replied (line : List Char)
  /-- About to remove the file. -/
  | discarding (result : Result)
  | finished (result : Result)
  deriving DecidableEq, Repr

/-- A client: what it is for (`none` asks only whether a cast is running), the record it has read,
and whom it is connected to. -/
structure Client where
  req : Option Request
  seen : Option Record
  peer : Option Peer
  phase : Phase
  deriving DecidableEq, Repr

structure Asked where
  cast : Nat
  client : Nat
  line : List Char
  deriving DecidableEq, Repr

/-- A stop that a cast was told, and the client whose line it was; `none` is a stranger. -/
structure Stop where
  cast : Nat
  client : Option Nat
  deriving DecidableEq, Repr

structure Reading (Rate : Type) where
  cast : Nat
  client : Nat
  published : Published Rate

structure World (Rate : Type) where
  file : Option File
  casts : List (Cast Rate)
  clients : List Client
  asked : List Asked
  stops : List Stop
  readings : List (Reading Rate)

inductive Event (Rate : Type) where
  /-- A listener is bound, and a token minted. -/
  | started (pid : UInt32) (port : UInt16) (bytes : Vector UInt8 16) (display address : List Char)
      (now : UInt64)
  /-- Some of the record is in the file: only when no more than its last number is cut short can it
  be read. -/
  | wrote (cast : Nat) (started : Option UInt64)
  | published (cast : Nat) (snapshot : Snapshot Rate)
  | panicked (cast : Nat)
  | removed (cast : Nat)
  | closed (cast : Nat)
  | arrived (req : Option Request)
  | looked (client : Nat)
  | connected (client : Nat) (peer : Option Peer)
  | sent (client : Nat)
  | served (place : Nat)
  /-- The connection ends, with no reply to read. -/
  | hungUp (client : Nat)
  /-- The reply of something that is no cast. -/
  | misled (client : Nat) (line : List Char)
  | gaveUp (client : Nat)
  | heard (client : Nat)
  | discarded (client : Nat)
  /-- A line of someone who is no client. -/
  | stranger (cast : Nat) (line : List Char)

def Client.conclude (client : Client) (report : Report) : Result :=
  if client.req = none then .running none else .talked report

namespace World

variable {Rate : Type}

def empty : World Rate := ⟨none, [], [], [], [], []⟩

def turn (w : World Rate) (k : Nat) (client : Client) : World Rate :=
  { w with clients := w.clients.set k client }

def looked (client : Client) : Option File → Client
  | none => { client with phase := .finished (client.conclude .noCast) }
  | some .unreadable => { client with phase := .discarding (client.conclude (.stale none)) }
  | some (.record record) => { client with seen := some record, phase := .looked }

/-- What follows from the record and from who answers at its port. -/
def connected (client : Client) (record : Record) (peer : Option Peer) : Client :=
  match interpret (some record) peer.isSome with
  | .live =>
      if client.req = none then
        { client with peer := peer, phase := .finished (.running (some record)) }
      else { client with peer := peer, phase := .connected }
  | .stale started =>
      { client with phase := .discarding (client.conclude (.stale (some started))) }
  | .noCast => client

def heard (client : Client) (record : Record) (line : List Char) : Client :=
  if trim line = [] then
    { client with phase := .discarding (.talked (.stale (some record.started))) }
  else
    match parseResponse line with
    | .ok response => { client with phase := .finished (.talked (.answered response)) }
    | .error _ => { client with phase := .finished .failed }

/-- The peer can accept: a cast does at its own port, while it listens. -/
def accepts (w : World Rate) (record : Record) : Peer → Bool
  | .cast i => w.casts[i]?.any (fun cast => cast.alive && cast.record.port == record.port)
  | .other => true

def bound (w : World Rate) (port : UInt16) : Bool :=
  w.casts.any (fun cast => cast.alive && cast.record.port == port)

def serveAt (oneDecimal : Rate → List Char) (w : World Rate) (cast : Cast Rate) (i : Nat)
    (client : Option Nat) (line : List Char) : World Rate × List Char :=
  let reply := serve oneDecimal line cast.record.token cast.published
  (if reply.2 then { w with stops := w.stops ++ [⟨i, client⟩] } else w, reply.1)

/-- A line is served, and what it is served with is noted. -/
def take (w : World Rate) (place : Nat) (asked : Asked) (published : Published Rate) : World Rate :=
  { w with
    asked := w.asked.eraseIdx place
    readings := w.readings ++ [⟨asked.cast, asked.client, published⟩] }

/-- The reply reaches a client that still waits for it. -/
def reply (w : World Rate) (k : Nat) (line : List Char) : World Rate :=
  match w.clients[k]? with
  | some client =>
      if client.phase = .waiting then w.turn k { client with phase := .replied line } else w
  | none => w

end World

open World

variable {Rate : Type} (oneDecimal : Rate → List Char)

/-- What anyone does next; `none` where it is not possible. -/
def act (w : World Rate) : Event Rate → Option (World Rate)
  | .started pid port bytes display address now =>
      if w.bound port then none
      else
        let cast : Cast Rate :=
          ⟨⟨pid, port, mintToken bytes, display, address, now⟩, true, .current none⟩
        some { w with casts := w.casts ++ [cast] }
  | .wrote i started => do
      let cast ← w.casts[i]?
      some { w with file := some (started.elim .unreadable
        (fun now => .record { cast.record with started := now })) }
  | .published i snapshot => do
      let cast ← w.casts[i]?
      some { w with casts := w.casts.set i (cast.publish snapshot) }
  | .panicked i => do
      let cast ← w.casts[i]?
      some { w with casts := w.casts.set i cast.panic }
  | .removed i => do
      let _ ← w.casts[i]?
      some { w with file := none }
  | .closed i => do
      let cast ← w.casts[i]?
      some { w with casts := w.casts.set i cast.close }
  | .arrived req => some { w with clients := w.clients ++ [⟨req, none, none, .arrived⟩] }
  | .looked k => do
      let client ← w.clients[k]?
      if client.phase = .arrived then some (w.turn k (World.looked client w.file)) else none
  | .connected k peer => do
      let client ← w.clients[k]?
      let record ← client.seen
      if client.phase = .looked ∧ peer.all (w.accepts record) then
        some (w.turn k (World.connected client record peer))
      else none
  | .sent k => do
      let client ← w.clients[k]?
      let record ← client.seen
      let req ← client.req
      if client.phase = .connected then
        let w := w.turn k { client with phase := .waiting }
        match client.peer with
        | some (.cast i) =>
            some { w with asked := w.asked ++ [⟨i, k, formatRequest req record.token⟩] }
        | _ => some w
      else none
  | .served place => do
      let asked ← w.asked[place]?
      let cast ← w.casts[asked.cast]?
      if cast.alive then
        let (next, line) := serveAt oneDecimal (w.take place asked cast.published) cast asked.cast
          (some asked.client) asked.line
        some (next.reply asked.client line)
      else none
  | .hungUp k => do
      let client ← w.clients[k]?
      if client.phase = .waiting then some (w.turn k { client with phase := .replied [] }) else none
  | .misled k line => do
      let client ← w.clients[k]?
      if client.phase = .waiting ∧ client.peer = some .other then
        some (w.turn k { client with phase := .replied line })
      else none
  | .gaveUp k => do
      let client ← w.clients[k]?
      if client.phase = .connected ∨ client.phase = .waiting then
        some (w.turn k { client with phase := .finished .failed })
      else none
  | .heard k => do
      let client ← w.clients[k]?
      let record ← client.seen
      match client.phase with
      | .replied line => some (w.turn k (World.heard client record line))
      | _ => none
  | .discarded k => do
      let client ← w.clients[k]?
      match client.phase with
      | .discarding result =>
          some { w.turn k { client with phase := .finished result } with file := none }
      | _ => none
  | .stranger i line => do
      let cast ← w.casts[i]?
      if cast.alive then some (serveAt oneDecimal w cast i none line).1 else none

def step (w : World Rate) (event : Event Rate) : Option (World Rate × Unit) :=
  (act oneDecimal w event).map (fun next => (next, ()))

section Lines

theorem mintToken_solid (bytes : Vector UInt8 16) :
    mintToken bytes ≠ [] ∧ ∀ c ∈ mintToken bytes, isSpace c = false := by
  constructor
  · intro none_
    have length := Hex.encode_length bytes.toList
    rw [← mintToken, none_, Vector.length_toList] at length
    simp at length
  · intro c member
    obtain ⟨byte, -, among⟩ := List.mem_flatMap.mp member
    have small := byte.toNat_lt
    rw [Hex.pair, List.mem_cons, List.mem_singleton] at among
    rcases among with rfl | rfl
    · exact digit_not_space _ _ (digit_digitChar _ (by omega))
    · exact digit_not_space _ _ (digit_digitChar _ (by omega))

theorem mintToken_injective : Function.Injective mintToken := by
  intro one other same
  have bytes := congrArg Hex.decode same
  rw [mintToken, mintToken, Hex.decode_encode, Hex.decode_encode] at bytes
  exact Vector.toList_inj.mp (Option.some.inj bytes)

theorem words_formatRequest (req : Request) (token : List Char) (some_ : token ≠ [])
    (solid : ∀ c ∈ token, isSpace c = false) :
    words (formatRequest req token) = [req.verb, token] := by
  have verb : req.verb ≠ [] ∧ req.verb.any isSpace = false := by
    cases req <;> decide
  have solid_ : ∀ c ∈ req.verb, isSpace c = false := by
    intro c member
    exact Bool.eq_false_iff.mpr (List.any_eq_false.mp verb.2 c member)
  rw [formatRequest, words_cons req.verb _ ' ' verb.1 solid_ rfl, words_append token [] '\n' rfl,
    words_word token some_ solid]
  rfl

theorem parseRequest_other (req : Request) (token other : List Char) (some_ : token ≠ [])
    (solid : ∀ c ∈ token, isSpace c = false) (apart : token ≠ other) :
    parseRequest (formatRequest req token) other = .error .unauthorised := by
  unfold parseRequest
  rw [words_formatRequest req token some_ solid]
  cases req <;> simp [Request.verb, apart]

theorem serve_stranger (line token : List Char) (published : Published Rate)
    (unknown : (words line)[1]? ≠ some token) :
    (serve oneDecimal line token published).2 = false := by
  have refused : ∃ denial, parseRequest line token = .error denial := by
    unfold parseRequest
    dsimp only
    split
    · exact ⟨_, if_neg unknown⟩
    · exact ⟨_, rfl⟩
  obtain ⟨denial, refused⟩ := refused
  unfold serve
  rw [refused]

end Lines

def Event.minted : Event Rate → Option (Vector UInt8 16)
  | .started _ _ bytes _ _ _ => some bytes
  | _ => none

def Fresh (events : List (Event Rate)) : Prop := (events.filterMap Event.minted).Nodup

/-- No stranger's line has the token of the cast it goes to in its place. -/
def Unguessed (events : List (Event Rate)) : Prop :=
  ∀ i line bytes, .stranger i line ∈ events → (events.filterMap Event.minted)[i]? = some bytes →
    (words line)[1]? ≠ some (mintToken bytes)

end Endpoint

end Castr.Sender.Control
