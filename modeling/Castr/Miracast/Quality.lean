import Mathlib.Algebra.Group.Nat.Defs

/-! The bitrate ladder: loss numbers in, a ceiling out. Times are in nanoseconds. -/

namespace Castr.Miracast

def ladder : List UInt32 := [8000, 4000, 2000]
def badSecond : Nat := 5
def cleanPerStep : Nat := 10
def sampleInterval : Nat := 10 ^ 9

structure BitrateLadder where
  rung : Nat
  clean : Nat
  lastLoss : Nat
  lastSample : Option Nat
  deriving DecidableEq, Repr

namespace BitrateLadder

def new : BitrateLadder := ⟨0, 0, 0, none⟩

def currentKbps (l : BitrateLadder) : UInt32 := ladder.getD l.rung 0

def bottom : Nat := ladder.length - 1

/-- What a second of samples changes, once it may be looked at. -/
def judge (l : BitrateLadder) (delta : Nat) : BitrateLadder × Option UInt32 :=
  if badSecond ≤ delta then
    if l.rung = bottom then ({ l with clean := 0 }, none)
    else
      let fallen := { l with clean := 0, rung := bottom }
      (fallen, some fallen.currentKbps)
  else if cleanPerStep ≤ l.clean + 1 ∧ 0 < l.rung then
    let climbed := { l with clean := 0, rung := l.rung - 1 }
    (climbed, some climbed.currentKbps)
  else ({ l with clean := l.clean + 1 }, none)

def sample (l : BitrateLadder) (cumulativeLoss now : Nat) : BitrateLadder × Option UInt32 :=
  if l.lastSample.any (fun last => now - last < sampleInterval) then (l, none)
  else { l with lastSample := some now, lastLoss := cumulativeLoss }.judge
    (cumulativeLoss - l.lastLoss)

end BitrateLadder

end Castr.Miracast
