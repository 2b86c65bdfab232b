import Castr.Lib.Run
import Castr.Miracast.Lifecycle
import Castr.Miracast.Pairing
import Castr.Receiver.Display

/-! The sink's serve loop, one arm at a time, beside the castr path on one display.

The arms of a pass may come in any order here. A connection is the station at its other end. -/

namespace Castr.Miracast

open Castr.Receiver (Owner)

inductive SinkOut where
  | pin (pin : String)
  | pinCleared
  | started
  | ended (reason : String)
  | reconnecting
  | idle
  deriving DecidableEq, Repr

/-- What the serve loop tells the receiver, or commands of the registrar. -/
inductive Told where
  | out (event : SinkOut)
  | wpsPin (pin : String)
  deriving DecidableEq, Repr

inductive CastrOp where
  | acquire
  | release
  deriving DecidableEq, Repr

def CastrOp.apply (owner : Owner) : CastrOp → Owner
  | .acquire => (owner.tryAcquire .castr).2
  | .release => owner.release .castr

structure Serve where
  life : Lifecycle
  held : Bool
  conn : Option String
  sessionPeer : Option String
  clients : List String
  pairing : Pairing
  wps : WpsWindow
  deriving DecidableEq, Repr

structure Sink where
  owner : Owner
  serve : Option Serve
  deriving DecidableEq, Repr

inductive ServeEvent where
  | castr (op : CastrOp)
  /-- A group comes up, and its first PIN is taken by the registrar or not. -/
  | groupUp (entropy : UInt32) (taken : Bool)
  | stop
  /-- The check for an idle sink, at the start of a pass. -/
  | idle (entropy : UInt32) (taken : Bool) (now : Nat)
  | provisionRequest (peer : String) (entropy : UInt32) (taken : Bool)
  | wpsFail (entropy : UInt32) (taken : Bool)
  | clientConnected (mac : String)
  | clientDisconnected (mac : String) (now : Nat)
  | groupRemoved
  /-- A station opens an RTSP connection; castr may act between the two acquisitions. -/
  | accept (station : String) (configured : Bool) (between : List CastrOp) (now : Nat)
  | sessionEnded (reason : String) (now : Nat)
  | tick (now : Nat)
  deriving DecidableEq, Repr

def lowerMac (mac : String) : String := String.ofList (mac.toList.map Char.toLower)

namespace Sink

def new : Sink := ⟨.idle, none⟩

def applyLifecycle (owner : Owner) (held : Bool) : LifeAction → Owner × Bool × List SinkOut
  | .acquireDisplay =>
      ((owner.tryAcquire .miracast).2, (owner.tryAcquire .miracast).1, [])
  | .releaseDisplay => (if held then owner.release .miracast else owner, false, [.idle])
  | .showReconnecting => (owner, held, [.reconnecting])
  | .clearOverlay => (owner, held, [.started])
  | .rebuildGroup => (owner, held, [])

def applyAll (owner : Owner) (held : Bool) : List LifeAction → Owner × Bool × List SinkOut
  | [] => (owner, held, [])
  | action :: actions =>
      let first := applyLifecycle owner held action
      let rest := applyAll first.1 first.2.1 actions
      (rest.1, rest.2.1, first.2.2 ++ rest.2.2)

def carryOut (owner : Owner) (s : Serve) (change : Lifecycle × List LifeAction) :
    Owner × Serve × List SinkOut :=
  let done := applyAll owner s.held change.2
  (done.1, { s with life := change.1, held := done.2.1 }, done.2.2)

def radioErrorReleases (owner : Owner) (s : Serve) (now : Nat) : Sink × List Told :=
  let done := carryOut owner s (s.life.on .radioError now)
  (⟨done.1, none⟩, done.2.2.map Told.out)

def applyPin : Show → List Told
  | .pin pin => [.out (.pin pin), .wpsPin pin]
  | .clear => [.out .pinCleared]
  | .nothing => []

def showPin (owner : Owner) (s : Serve) (paired : Pairing × Show) (taken : Bool) :
    Sink × List Told :=
  let s := { s with pairing := paired.1 }
  match paired.2, taken with
  | .pin _, false =>
      let failed := radioErrorReleases owner s 0
      (failed.1, applyPin paired.2 ++ failed.2)
  | _, _ => (⟨owner, some s⟩, applyPin paired.2)

def idle (owner : Owner) (s : Serve) (entropy : UInt32) (taken : Bool) (now : Nat) :
    Sink × List Told :=
  if s.conn = none ∧ s.clients = [] then
    match s.pairing.pin with
    | none => showPin owner { s with wps := .armed now } (s.pairing.groupUp entropy) taken
    | some pin =>
        if s.wps.due now then
          (⟨owner, some (if taken then { s with wps := .armed now } else s)⟩, [.wpsPin pin])
        else (⟨owner, some s⟩, [])
  else (⟨owner, some s⟩, [])

def clientConnected (owner : Owner) (s : Serve) (mac : String) : Sink × List Told :=
  let joined := { s with
    clients := s.clients.insert (lowerMac mac), pairing := s.pairing.joined.1 }
  let told := applyPin s.pairing.joined.2
  -- the hold is for the peer that was casting
  if joined.life.phase = .holding ∧ joined.sessionPeer ≠ some (lowerMac mac) then
    let done := carryOut owner joined joined.life.abandonHold
    (⟨done.1, some { done.2.1 with sessionPeer := some (lowerMac mac) }⟩,
      told ++ done.2.2.map Told.out)
  else (⟨owner, some { joined with sessionPeer := some (lowerMac mac) }⟩, told)

def dropSession (owner : Owner) (s : Serve) (reason : String) (now : Nat) : Sink × List Told :=
  let change := s.life.on .ended now
  let done := carryOut owner { s with conn := none } change
  (⟨done.1, some done.2.1⟩,
    (if change.2 = [] then [] else [.out (.ended reason)]) ++ done.2.2.map Told.out)

def clientDisconnected (owner : Owner) (s : Serve) (mac : String) (now : Nat) :
    Sink × List Told :=
  let left := { s with clients := s.clients.erase (lowerMac mac) }
  if left.sessionPeer = some (lowerMac mac) then dropSession owner left "peer disconnected" now
  else (⟨owner, some left⟩, [])

def connect (owner : Owner) (s : Serve) (station : String) (now : Nat) : Sink × List Told :=
  let done := carryOut owner { s with held := true, conn := some station }
    (s.life.on .connected now)
  (⟨done.1, some done.2.1⟩, done.2.2.map Told.out)

def accept (owner : Owner) (s : Serve) (station : String) (configured : Bool)
    (between : List CastrOp) (now : Nat) : Sink × List Told :=
  if s.conn ≠ none ∨ configured = false then (⟨owner, some s⟩, [])
  else if s.life.phase = .holding then connect owner s station now
  else
    let asked := owner.tryAcquire .miracast
    if asked.1 then connect (between.foldl CastrOp.apply asked.2) s station now
    else (⟨asked.2, some s⟩, [])

/-- Whatever ends a session is noticed only while one is on. -/
def sessionEnded (owner : Owner) (s : Serve) (reason : String) (now : Nat) : Sink × List Told :=
  if s.conn = none then (⟨owner, some s⟩, []) else dropSession owner s reason now

def tick (owner : Owner) (s : Serve) (now : Nat) : Sink × List Told :=
  let change := s.life.tick now
  let s := if .releaseDisplay ∈ change.2 then { s with sessionPeer := none } else s
  let done := carryOut owner s change
  (⟨done.1, some done.2.1⟩, done.2.2.map Told.out)

def groupUp (owner : Owner) (entropy : UInt32) (taken : Bool) : Sink × List Told :=
  let paired := Pairing.new.groupUp entropy
  let fresh : Serve := {
    life := .new
    held := false
    conn := none
    sessionPeer := none
    clients := []
    pairing := paired.1
    wps := .new }
  (⟨owner, if taken then some fresh else none⟩, applyPin paired.2)

def step (sink : Sink) (event : ServeEvent) : Sink × List Told :=
  match sink.serve, event with
  | _, .castr op => ({ sink with owner := op.apply sink.owner }, [])
  | none, .groupUp entropy taken => groupUp sink.owner entropy taken
  | none, _ => (sink, [])
  | some s, .stop => (⟨if s.held then sink.owner.release .miracast else sink.owner, none⟩, [])
  | some s, .idle entropy taken now => idle sink.owner s entropy taken now
  | some s, .provisionRequest _ entropy taken =>
      showPin sink.owner s (s.pairing.provisioning entropy) taken
  | some s, .wpsFail entropy taken => showPin sink.owner s (Pairing.failed entropy) taken
  | some s, .clientConnected mac => clientConnected sink.owner s mac
  | some s, .clientDisconnected mac now => clientDisconnected sink.owner s mac now
  | some s, .groupRemoved => radioErrorReleases sink.owner s 0
  | some s, .accept station configured between now =>
      accept sink.owner s station configured between now
  | some s, .sessionEnded reason now => sessionEnded sink.owner s reason now
  | some s, .tick now => tick sink.owner s now
  | some _, .groupUp _ _ => (sink, [])

/-- The arbiter, the `held` flag, the connection and the lifecycle say the same. -/
structure Fits (owner : Owner) (s : Serve) : Prop where
  held : owner = .miracast ↔ s.held = true
  phase : s.held = true ↔ s.life.phase ≠ .advertising
  conn : s.conn ≠ none ↔ s.life.phase = .streaming
  since : s.life.holdingSince ≠ none ↔ s.life.phase = .holding

def Coherent (sink : Sink) : Prop :=
  match sink.serve with
  | none => sink.owner ≠ .miracast
  | some s => Fits sink.owner s

def RadioFails : ServeEvent → Prop
  | .idle _ taken _ => taken = false
  | .provisionRequest _ _ taken => taken = false
  | .wpsFail _ taken => taken = false
  | .groupRemoved => True
  | _ => False

structure SameHold (s next : Serve) : Prop where
  life : next.life = s.life
  held : next.held = s.held
  conn : next.conn = s.conn

def connects (owner : Owner) (s : Serve) : ServeEvent → Option String
  | .accept station configured _ _ =>
      if s.conn = none ∧ configured = true ∧ (s.life.phase = .holding ∨ owner ≠ .castr) then
        some (lowerMac station)
      else none
  | _ => none

/-- What an arm does to the display, the connection and the one the session belongs to. -/
inductive Turned (owner : Owner) (s : Serve) (event : ServeEvent) : Sink → Prop where
  | castr (op : CastrOp) (same : event = .castr op) : Turned owner s event ⟨op.apply owner, some s⟩
  | quiet (next : Serve) (kept : SameHold s next) (peer : next.sessionPeer = s.sessionPeer)
      (unjoined : ∀ mac, event ≠ .clientConnected mac) (refused : connects owner s event = none) :
      Turned owner s event ⟨owner, some next⟩
  | closed (finished : event = .stop ∨ RadioFails event) :
      Turned owner s event ⟨if s.held then .idle else owner, none⟩
  | joined (mac : String) (same : event = .clientConnected mac) (next : Serve)
      (kept : SameHold s next) (peer : next.sessionPeer = some (lowerMac mac))
      (mine : s.life.phase = .holding → s.sessionPeer = some (lowerMac mac)) :
      Turned owner s event ⟨owner, some next⟩
  | abandoned (mac : String) (same : event = .clientConnected mac) (next : Serve)
      (holding : s.life.phase = .holding) (other : s.sessionPeer ≠ some (lowerMac mac))
      (life : next.life = .new) (held : next.held = false) (conn : next.conn = s.conn)
      (peer : next.sessionPeer = some (lowerMac mac)) : Turned owner s event ⟨.idle, some next⟩
  | dropped (now : Nat) (cause : (∃ mac, event = .clientDisconnected mac now ∧
        s.sessionPeer = some (lowerMac mac)) ∨ ∃ reason, event = .sessionEnded reason now)
      (next : Serve) (streaming : s.life.phase = .streaming)
      (life : next.life = ⟨.holding, some now⟩) (held : next.held = s.held)
      (conn : next.conn = none) (peer : next.sessionPeer = s.sessionPeer) :
      Turned owner s event ⟨owner, some next⟩
  | connected (station : String) (between : List CastrOp) (now : Nat)
      (same : event = .accept station true between now) (next : Serve)
      (taken : connects owner s event = some (lowerMac station))
      (granted : s.life.phase = .holding ∨ owner = .idle)
      (life : next.life = ⟨.streaming, none⟩) (held : next.held = true)
      (conn : next.conn = some station) (peer : next.sessionPeer = s.sessionPeer) :
      Turned owner s event ⟨.miracast, some next⟩
  | expired (since now : Nat) (same : event = .tick now) (next : Serve)
      (held : s.life.phase = .holding) (noted : s.life.holdingSince = some since)
      (late : since + holdTime ≤ now) (life : next.life = .new) (freed : next.held = false)
      (conn : next.conn = s.conn) (peer : next.sessionPeer = none) :
      Turned owner s event ⟨.idle, some next⟩

theorem release_held (owner : Owner) (held : Bool) (same : owner = .miracast ↔ held = true) :
    (if held then owner.release .miracast else owner) = if held then .idle else owner := by
  cases held with
  | false => rfl
  | true =>
      rw [same.mpr rfl]
      rfl

theorem radioError_sink (owner : Owner) (s : Serve) (now : Nat) (fits : Fits owner s) :
    (radioErrorReleases owner s now).1 = ⟨if s.held then .idle else owner, none⟩ := by
  have freed := release_held owner s.held fits.held
  cases phase : s.life.phase with
  | advertising =>
      have unheld : s.held = false := by
        have none := fits.phase
        simpa [phase] using none
      simp [radioErrorReleases, carryOut, Lifecycle.on, Lifecycle.holdsDisplay, phase, applyAll,
        applyLifecycle, unheld]
  | streaming =>
      simp [radioErrorReleases, carryOut, Lifecycle.on, Lifecycle.holdsDisplay, phase, applyAll,
        applyLifecycle, freed]
  | holding =>
      simp [radioErrorReleases, carryOut, Lifecycle.on, Lifecycle.holdsDisplay, phase, applyAll,
        applyLifecycle, freed]

theorem turned_showPin (owner : Owner) (s shown : Serve) (event : ServeEvent)
    (paired : Pairing × Show) (taken : Bool) (fits : Fits owner s) (kept : SameHold s shown)
    (peer : shown.sessionPeer = s.sessionPeer) (fails : taken = false → RadioFails event)
    (unjoined : ∀ mac, event ≠ .clientConnected mac) (refused : connects owner s event = none) :
    Turned owner s event (showPin owner shown paired taken).1 := by
  have quiet : Turned owner s event ⟨owner, some { shown with pairing := paired.1 }⟩ :=
    .quiet _ ⟨kept.life, kept.held, kept.conn⟩ peer unjoined refused
  have closed (lost : taken = false) : Turned owner s event
      (radioErrorReleases owner { shown with pairing := paired.1 } 0).1 := by
    have fits' : Fits owner { shown with pairing := paired.1 } :=
      ⟨kept.held ▸ fits.held, kept.held ▸ kept.life ▸ fits.phase,
        kept.conn ▸ kept.life ▸ fits.conn, kept.life ▸ fits.since⟩
    rw [radioError_sink _ _ _ fits']
    have same : ({ shown with pairing := paired.1 } : Serve).held = s.held := kept.held
    rw [same]
    exact .closed (Or.inr (fails lost))
  unfold showPin
  cases paired.2 with
  | pin pin =>
      cases taken with
      | false => exact closed rfl
      | true => exact quiet
  | clear => exact quiet
  | nothing => exact quiet

theorem turned_idle (owner : Owner) (s : Serve) (entropy : UInt32) (taken : Bool) (now : Nat)
    (fits : Fits owner s) :
    Turned owner s (.idle entropy taken now) (idle owner s entropy taken now).1 := by
  have still (next : Serve) (kept : SameHold s next) (peer : next.sessionPeer = s.sessionPeer) :
      Turned owner s (.idle entropy taken now) ⟨owner, some next⟩ :=
    .quiet next kept peer nofun rfl
  unfold idle
  split
  · cases s.pairing.pin with
    | none =>
        exact turned_showPin owner s { s with wps := .armed now } _ _ taken fits ⟨rfl, rfl, rfl⟩ rfl
          (fun lost => lost) nofun rfl
    | some pin =>
        dsimp only
        split
        · cases taken with
          | false => exact still s ⟨rfl, rfl, rfl⟩ rfl
          | true => exact still _ ⟨rfl, rfl, rfl⟩ rfl
        · exact still s ⟨rfl, rfl, rfl⟩ rfl
  · exact still s ⟨rfl, rfl, rfl⟩ rfl

theorem turned_joined (owner : Owner) (s : Serve) (mac : String) (fits : Fits owner s) :
    Turned owner s (.clientConnected mac) (clientConnected owner s mac).1 := by
  unfold clientConnected
  dsimp only
  split
  · rename_i other
    have held : s.held = true := fits.phase.mpr (by simp [other.1])
    have mine : owner = .miracast := fits.held.mpr held
    subst mine
    have change : s.life.abandonHold = (.new, [.releaseDisplay]) := by
      simp [Lifecycle.abandonHold, other.1]
    rw [change]
    simp only [carryOut, applyAll, applyLifecycle, held]
    exact .abandoned mac rfl _ other.1 other.2 rfl rfl rfl rfl
  · rename_i mine
    refine .joined mac rfl _ ⟨rfl, rfl, rfl⟩ rfl ?_
    intro holding
    by_contra other
    exact mine ⟨holding, other⟩

theorem turned_dropSession (owner : Owner) (s left : Serve) (event : ServeEvent) (reason : String)
    (now : Nat) (fits : Fits owner s) (kept : SameHold s left)
    (peer : left.sessionPeer = s.sessionPeer)
    (cause : (∃ mac, event = .clientDisconnected mac now ∧ s.sessionPeer = some (lowerMac mac)) ∨
      ∃ reason, event = .sessionEnded reason now) :
    Turned owner s event (dropSession owner left reason now).1 := by
  have unjoined : ∀ mac, event ≠ .clientConnected mac := by
    rintro mac rfl
    rcases cause with ⟨_, same, _⟩ | ⟨_, same⟩ <;> cases same
  have refused : connects owner s event = none := by
    rcases cause with ⟨_, rfl, _⟩ | ⟨_, rfl⟩ <;> rfl
  have idle (other : s.life.phase ≠ .streaming) : s.conn = none :=
    not_not.mp (mt fits.conn.mp other)
  cases phase : s.life.phase with
  | streaming =>
      have change : left.life.on .ended now = (⟨.holding, some now⟩, [.showReconnecting]) := by
        simp [kept.life, Lifecycle.on, phase]
      simp only [dropSession, carryOut, change, applyAll, applyLifecycle]
      exact .dropped now cause _ phase rfl kept.held rfl peer
  | advertising =>
      have change : left.life.on .ended now = (left.life, []) := by
        simp [kept.life, Lifecycle.on, phase]
      simp only [dropSession, carryOut, change, applyAll]
      exact .quiet _ ⟨kept.life, kept.held, (idle (by simp [phase])).symm⟩ peer unjoined
        refused
  | holding =>
      have change : left.life.on .ended now = (left.life, []) := by
        simp [kept.life, Lifecycle.on, phase]
      simp only [dropSession, carryOut, change, applyAll]
      exact .quiet _ ⟨kept.life, kept.held, (idle (by simp [phase])).symm⟩ peer unjoined
        refused

theorem castr_kept (ops : List CastrOp) : ops.foldl CastrOp.apply .miracast = .miracast := by
  induction ops with
  | nil => rfl
  | cons op ops ih =>
      have kept : CastrOp.apply .miracast op = .miracast := by cases op <;> rfl
      rw [List.foldl_cons, kept, ih]

theorem turned_accept (owner : Owner) (s : Serve) (station : String) (configured : Bool)
    (between : List CastrOp) (now : Nat) (fits : Fits owner s) :
    Turned owner s (.accept station configured between now)
      (accept owner s station configured between now).1 := by
  have still (refused : connects owner s (.accept station configured between now) = none) :
      Turned owner s (.accept station configured between now) ⟨owner, some s⟩ :=
    .quiet s ⟨rfl, rfl, rfl⟩ rfl (by simp) refused
  unfold accept
  split
  · rename_i unusable
    refine still (if_neg ?_)
    rintro ⟨free, good, _⟩
    rcases unusable with busy | bad
    · exact busy free
    · rw [good] at bad
      cases bad
  · rename_i usable
    rw [not_or, not_not, Bool.not_eq_false] at usable
    obtain ⟨free, rfl⟩ := usable
    split
    · rename_i holding
      have mine : owner = .miracast := fits.held.mpr (fits.phase.mpr (by simp [holding]))
      subst mine
      have change : s.life.on .connected now = (⟨.streaming, none⟩, [.clearOverlay]) := by
        simp [Lifecycle.on, holding]
      simp only [connect, carryOut, change, applyAll, applyLifecycle]
      exact .connected station between now rfl _ (if_pos ⟨free, rfl, Or.inl holding⟩)
        (Or.inl holding) rfl rfl rfl rfl
    · rename_i other
      have phase : s.life.phase = .advertising := by
        cases same : s.life.phase with
        | advertising => rfl
        | streaming => exact absurd free (fits.conn.mpr same)
        | holding => exact absurd same other
      have unheld : s.held ≠ true := fun held => fits.phase.mp held phase
      have fresh : s.life.holdingSince = none :=
        not_not.mp (mt fits.since.mp (by simp [phase]))
      have change : s.life.on .connected now =
          (⟨.streaming, none⟩, [.acquireDisplay, .clearOverlay]) := by
        simp [Lifecycle.on, phase, ← fresh]
      cases owner with
      | castr => exact still (if_neg (by simp [phase]))
      | miracast => exact absurd (fits.held.mp rfl) unheld
      | idle =>
          simp only [Owner.tryAcquire, true_or, if_true, castr_kept, connect, carryOut, change,
            applyAll, applyLifecycle, or_true]
          exact .connected station between now rfl _ (if_pos ⟨free, rfl, Or.inr (by decide)⟩)
            (Or.inr rfl) rfl rfl rfl rfl

theorem turned_tick (owner : Owner) (s : Serve) (now : Nat) (fits : Fits owner s) :
    Turned owner s (.tick now) (tick owner s now).1 := by
  cases noted : s.life.holdingSince with
  | none =>
      have change : s.life.tick now = (s.life, []) := by simp [Lifecycle.tick, noted]
      simp only [tick, change, carryOut, applyAll]
      exact .quiet _ ⟨rfl, rfl, rfl⟩ rfl nofun rfl
  | some since =>
      have holding : s.life.phase = .holding := fits.since.mp (by simp [noted])
      have held : s.held = true := fits.phase.mpr (by simp [holding])
      have mine : owner = .miracast := fits.held.mpr held
      subst mine
      by_cases early : now - since < holdTime
      · have change : s.life.tick now = (s.life, []) := by simp [Lifecycle.tick, noted, early]
        simp only [tick, change, carryOut, applyAll]
        exact .quiet _ ⟨rfl, rfl, rfl⟩ rfl nofun rfl
      · have change : s.life.tick now = (.new, [.releaseDisplay]) := by
          simp [Lifecycle.tick, noted, early]
        have late : since + holdTime ≤ now := by
          have long : 0 < holdTime := by decide
          omega
        simp only [tick, change, carryOut, applyAll, applyLifecycle, List.mem_singleton, if_true,
          held]
        exact .expired since now rfl _ holding noted late rfl rfl rfl rfl

theorem turned (owner : Owner) (s : Serve) (event : ServeEvent) (fits : Fits owner s) :
    Turned owner s event (step ⟨owner, some s⟩ event).1 := by
  cases event with
  | castr op => exact .castr op rfl
  | groupUp entropy taken => exact .quiet s ⟨rfl, rfl, rfl⟩ rfl nofun rfl
  | stop =>
      simp only [step]
      rw [release_held owner s.held fits.held]
      exact .closed (Or.inl rfl)
  | idle entropy taken now => exact turned_idle owner s entropy taken now fits
  | provisionRequest peer entropy taken =>
      exact turned_showPin owner s s _ _ taken fits ⟨rfl, rfl, rfl⟩ rfl (fun lost => lost) nofun rfl
  | wpsFail entropy taken =>
      exact turned_showPin owner s s _ _ taken fits ⟨rfl, rfl, rfl⟩ rfl (fun lost => lost) nofun rfl
  | clientConnected mac => exact turned_joined owner s mac fits
  | clientDisconnected mac now =>
      simp only [step, clientDisconnected]
      split
      · rename_i mine
        exact turned_dropSession owner s _ _ _ now fits ⟨rfl, rfl, rfl⟩ rfl
          (Or.inl ⟨mac, rfl, mine⟩)
      · exact .quiet _ ⟨rfl, rfl, rfl⟩ rfl nofun rfl
  | groupRemoved =>
      simp only [step]
      rw [radioError_sink owner s 0 fits]
      exact .closed (Or.inr trivial)
  | accept station configured between now =>
      exact turned_accept owner s station configured between now fits
  | sessionEnded reason now =>
      simp only [step, sessionEnded]
      split
      · exact .quiet s ⟨rfl, rfl, rfl⟩ rfl nofun rfl
      · exact turned_dropSession owner s s _ reason now fits ⟨rfl, rfl, rfl⟩ rfl
          (Or.inr ⟨reason, rfl⟩)
  | tick now => exact turned_tick owner s now fits

end Sink

end Castr.Miracast
