import Castr.Lib.Sliding
import Castr.Sender.Control

/-! What a running cast has sent, in counters and a window. Times are in nanoseconds; the rate is
a floating-point quotient of bytes and a duration. -/

namespace Castr.Sender.Control

open Castr.Lib.Sliding

def window : Nat := 5 * 10 ^ 9

def total (numbers : List UInt64) : UInt64 := numbers.foldl (· + ·) 0

theorem total_snoc (numbers : List UInt64) (number : UInt64) :
    total (numbers ++ [number]) = total numbers + number := by
  rw [total, List.foldl_append]
  rfl

/-- What a snapshot needs that the counters do not know. -/
structure Context where
  display : List Char
  address : List Char
  mode : Option (List Char)
  ceilingMbps : Option UInt16
  lastHeard : Option Nat

structure Sent where
  time : Nat
  bytes : UInt64
  deriving DecidableEq, Repr

structure Stats where
  videoUnits : UInt64
  audioUnits : UInt64
  repeatedFrames : UInt64
  datagrams : UInt64
  bytes : UInt64
  window : List Sent
  deriving DecidableEq, Repr

inductive Noted where
  | video (repeats : Bool)
  | audio
  | sent (datagrams bytes : UInt64) (now : Nat)
  deriving DecidableEq, Repr

namespace Stats

def new : Stats := ⟨0, 0, 0, 0, 0, []⟩

def video (s : Stats) (repeats : Bool) : Stats :=
  { s with
    videoUnits := s.videoUnits + 1
    repeatedFrames := if repeats then s.repeatedFrames + 1 else s.repeatedFrames }

def audio (s : Stats) : Stats := { s with audioUnits := s.audioUnits + 1 }

/-- Pruned on every push: the window holds what is not older than the last send by more. -/
def sent (s : Stats) (datagrams bytes : UInt64) (now : Nat) : Stats :=
  { s with
    datagrams := s.datagrams + datagrams
    bytes := s.bytes + bytes
    window := push Sent.time Control.window s.window ⟨now, bytes⟩ }

def note (s : Stats) : Noted → Stats
  | .video repeats => s.video repeats
  | .audio => s.audio
  | .sent datagrams bytes now => s.sent datagrams bytes now

def recentBytes (s : Stats) (now : Nat) : UInt64 :=
  total ((recent Sent.time Control.window now s.window).map Sent.bytes)

/-- The time to divide by: the window, or a younger cast's whole life, and a tenth of a second at
least. -/
def span (elapsed : Nat) : Nat := max (min elapsed Control.window) (10 ^ 8)

variable {Rate : Type} (rate : UInt64 → Nat → Rate)

def mbps (s : Stats) (now elapsed : Nat) : Rate := rate (s.recentBytes now) (span elapsed)

def seconds (nanoseconds : Nat) : UInt64 := UInt64.ofNat (nanoseconds / 10 ^ 9)

def snapshot (s : Stats) (now started : Nat) (ctx : Context) : Snapshot Rate where
  display := ctx.display
  address := ctx.address
  mode := ctx.mode
  ceilingMbps := ctx.ceilingMbps
  mbps := s.mbps rate now (now - started)
  videoUnits := s.videoUnits
  audioUnits := s.audioUnits
  datagrams := s.datagrams
  bytes := s.bytes
  repeatedFrames := s.repeatedFrames
  elapsedS := seconds (now - started)
  keepaliveAgeS := ctx.lastHeard.map (fun heard => seconds (now - heard))

end Stats

section History

def Noted.sends : Noted → Option Sent
  | .sent _ bytes now => some ⟨now, bytes⟩
  | _ => none

def sendsOf (noted : List Noted) : List Sent := noted.filterMap Noted.sends

def Noted.isVideo : Noted → Bool
  | .video _ => true
  | _ => false

def Noted.isRepeat : Noted → Bool
  | .video repeats => repeats
  | _ => false

def Noted.isAudio : Noted → Bool
  | .audio => true
  | _ => false

def Noted.datagrams : Noted → UInt64
  | .sent datagrams _ _ => datagrams
  | _ => 0

/-- The snapshot as the whole history gives it, with nothing forgotten. -/
def plainSnapshot {Rate : Type} (rate : UInt64 → Nat → Rate) (noted : List Noted)
    (now started : Nat) (ctx : Context) : Snapshot Rate where
  display := ctx.display
  address := ctx.address
  mode := ctx.mode
  ceilingMbps := ctx.ceilingMbps
  mbps := rate (total ((recent Sent.time window now (sendsOf noted)).map Sent.bytes))
    (Stats.span (now - started))
  videoUnits := UInt64.ofNat (noted.countP Noted.isVideo)
  audioUnits := UInt64.ofNat (noted.countP Noted.isAudio)
  datagrams := total (noted.map Noted.datagrams)
  bytes := total ((sendsOf noted).map Sent.bytes)
  repeatedFrames := UInt64.ofNat (noted.countP Noted.isRepeat)
  elapsedS := Stats.seconds (now - started)
  keepaliveAgeS := ctx.lastHeard.map (fun heard => Stats.seconds (now - heard))

def Stats.of (noted : List Noted) : Stats where
  videoUnits := UInt64.ofNat (noted.countP Noted.isVideo)
  audioUnits := UInt64.ofNat (noted.countP Noted.isAudio)
  repeatedFrames := UInt64.ofNat (noted.countP Noted.isRepeat)
  datagrams := total (noted.map Noted.datagrams)
  bytes := total ((sendsOf noted).map Sent.bytes)
  window := (sendsOf noted).foldl (push Sent.time Control.window) []

theorem sendsOf_snoc (noted : List Noted) (next : Noted) :
    sendsOf (noted ++ [next]) = sendsOf noted ++ next.sends.toList := by
  rw [sendsOf, List.filterMap_append]
  cases next <;> rfl

theorem note_of (noted : List Noted) (next : Noted) :
    (Stats.of noted).note next = Stats.of (noted ++ [next]) := by
  cases next with
  | video repeats =>
      cases repeats <;>
        simp [Stats.note, Stats.video, Stats.of, sendsOf_snoc, Noted.sends, Noted.isVideo,
          Noted.isAudio, Noted.isRepeat, Noted.datagrams, total_snoc]
  | audio =>
      simp [Stats.note, Stats.audio, Stats.of, sendsOf_snoc, Noted.sends, Noted.isVideo,
        Noted.isAudio, Noted.isRepeat, Noted.datagrams, total_snoc]
  | sent datagrams bytes now =>
      simp [Stats.note, Stats.sent, Stats.of, sendsOf_snoc, Noted.sends, Noted.isVideo,
        Noted.isAudio, Noted.isRepeat, Noted.datagrams, total_snoc]

theorem notes_of (noted : List Noted) : noted.foldl Stats.note .new = Stats.of noted := by
  induction noted using List.reverseRecOn with
  | nil => rfl
  | append_singleton noted next ih => rw [List.foldl_append, ih, List.foldl_cons, List.foldl_nil,
      note_of]

/-- Whatever was sent, and however long ago the cast began, a snapshot is the one the whole history
gives: the pruned window loses nothing that counts. -/
theorem snapshot_history {Rate : Type} (rate : UInt64 → Nat → Rate) (noted : List Noted)
    (now started : Nat) (ctx : Context) (ordered : Ordered Sent.time (sendsOf noted))
    (past : ∀ sent ∈ sendsOf noted, sent.time ≤ now) :
    (noted.foldl Stats.note .new).snapshot rate now started ctx =
      plainSnapshot rate noted now started ctx := by
  have shown : (Stats.of noted).recentBytes now =
      total ((recent Sent.time window now (sendsOf noted)).map Sent.bytes) := by
    rw [Stats.recentBytes, Stats.of, recent_pushes (sendsOf noted) now ordered past]
  rw [notes_of, Stats.snapshot, Stats.mbps, shown]
  rfl

theorem snapshot_history_later :
    (Stats.recentBytes ([.sent 1 10 0, .video true, .sent 2 7 (6 * 10 ^ 9)].foldl Stats.note .new)
      (6 * 10 ^ 9)) = 7 ∧
    (([.sent 1 10 0, .video true, .sent 2 7 (6 * 10 ^ 9)] : List Noted).foldl Stats.note
        .new).snapshot (fun bytes _ => bytes) (6 * 10 ^ 9) 0 ⟨[], [], none, none, none⟩ =
      plainSnapshot (fun bytes _ => bytes)
        [.sent 1 10 0, .video true, .sent 2 7 (6 * 10 ^ 9)] (6 * 10 ^ 9) 0
        ⟨[], [], none, none, none⟩ :=
  ⟨by decide, snapshot_history _ [.sent 1 10 0, .video true, .sent 2 7 (6 * 10 ^ 9)] _ _ _
    (by unfold Ordered; decide) (by decide)⟩

end History

end Castr.Sender.Control
