import Castr.Lib.Checked
import Castr.Lib.Halting
import Castr.Lib.Word
import Castr.Proto.Control
import Mathlib.Data.Rat.Floor
import Mathlib.Tactic.Linarith

/-! The sender's bitrate controller. `none` is a panic, of a failed check or of a sum or product
that does not fit its type; the ratios of the source are rational numbers. -/

namespace Castr.Media

open Castr.Lib
open Castr.Lib.Checked (add32 mul32 mulWord)
open Castr.Lib.Word (saturatingSub)
open Castr.Proto (Mode Stats)

def minBitrate : UInt32 := 1000000

def cutGuardUs : UInt64 := 500000

def cleanRaiseUs : UInt64 := 1000000

def floorStepDownUs : UInt64 := 2000000

def cleanStepUpUs : UInt64 := 5000000

def queueStepDownUs : UInt64 := 1000000

def maxStepUpWaitUs : UInt64 := 60000000

structure Resolution where
  width : UInt32
  height : UInt32
  deriving DecidableEq, Repr

def Resolution.hd : Resolution := ⟨1920, 1080⟩

structure Decision where
  bitrateBps : UInt32
  resolution : Resolution
  deriving DecidableEq, Repr

structure BitrateController where
  ceiling : UInt32
  bitrate : UInt32
  ladder : List Resolution
  rung : Nat
  mode : Mode
  lastCutUs : Option UInt64
  cleanSinceUs : Option UInt64
  atFloorSinceUs : Option UInt64
  lastRaiseUs : Option UInt64
  lastStepUpUs : Option UInt64
  queueHighSinceUs : Option UInt64
  stepUpWaitUs : UInt64
  deriving DecidableEq, Repr

def loss (stats : Stats) (total : UInt32) : ℚ :=
  if total = 0 then 0 else stats.fragmentsLost.toNat / total.toNat

/-- `(bitrate as f64 * ratio) as u32` with the exact ratio, of which the product in floating point
can fall one short: it is 1889999 for 2700000 and 0.7. -/
def scaled (bitrate : UInt32) (ratio : ℚ) : UInt32 := UInt32.ofNat ⌊bitrate.toNat * ratio⌋.toNat

def clamp (value low high : UInt32) : Option UInt32 :=
  if low ≤ high then some (if value < low then low else if high < value then high else value)
  else none

namespace BitrateController

/-- A rung keeps the native aspect ratio, its height rounded to even. -/
def pushRung (native : Resolution) (ladder : List Resolution) (width : UInt32) :
    Option (List Resolution) :=
  if width < native.width then do
    let product ← mul32 width native.height
    return ladder ++ [⟨width, product / native.width &&& ~~~1⟩]
  else some ladder

def new (ceilingBps initialBps : UInt32) (native : Resolution) (mode : Mode) :
    Option BitrateController := do
  let ladder ← [1280, 960].foldlM (pushRung native) [native]
  let bitrate ← clamp initialBps minBitrate ceilingBps
  return {
    ceiling := ceilingBps
    bitrate := bitrate
    ladder := ladder
    rung := 0
    mode := mode
    lastCutUs := none
    cleanSinceUs := none
    atFloorSinceUs := none
    lastRaiseUs := none
    lastStepUpUs := none
    queueHighSinceUs := none
    stepUpWaitUs := cleanStepUpUs }

def setMode (c : BitrateController) (mode : Mode) : BitrateController :=
  match mode with
  | .quality => { c with mode := mode, rung := 0 }
  | .game => { c with mode := mode }

def current (c : BitrateController) : Option Decision :=
  (c.ladder[c.rung]?).map (fun resolution => ⟨c.bitrate, resolution⟩)

def clean (loss : ℚ) (depth : UInt32) : Bool := decide (loss < 5 / 1000 ∧ depth ≤ 1)

def deep (loss : ℚ) (depth : UInt32) : Bool := decide (depth > 3 ∧ loss < 5 / 1000)

def cutAllowed (c : BitrateController) (nowUs : UInt64) : Bool :=
  c.lastCutUs.all (fun t => decide (saturatingSub nowUs t ≥ cutGuardUs))

def cut (c : BitrateController) (loss : ℚ) (depth : UInt32) (nowUs : UInt64) :
    BitrateController :=
  if loss > 2 / 100 ∧ c.cutAllowed nowUs then
    { c with bitrate := max (scaled c.bitrate (7 / 10)) minBitrate, lastCutUs := some nowUs }
  else if depth > 3 ∧ c.cutAllowed nowUs then
    { c with bitrate := max (scaled c.bitrate (85 / 100)) minBitrate, lastCutUs := some nowUs }
  else c

def raiseDue (c : BitrateController) (nowUs : UInt64) : Bool :=
  decide (saturatingSub nowUs (c.lastRaiseUs.getD (c.cleanSinceUs.getD nowUs)) ≥ cleanRaiseUs ∧
    c.bitrate < c.ceiling)

def raise (c : BitrateController) (loss : ℚ) (depth : UInt32) (nowUs : UInt64) :
    Option BitrateController :=
  if clean loss depth then do
    let since := some (c.cleanSinceUs.getD nowUs)
    if c.raiseDue nowUs then
      let raised ← add32 c.bitrate (c.ceiling / 20)
      return { c with
        cleanSinceUs := since
        bitrate := min raised c.ceiling
        lastRaiseUs := some nowUs }
    else return { c with cleanSinceUs := since }
  else some { c with cleanSinceUs := none, lastRaiseUs := none }

/-- A timer that started at `since`, or starts now, has run for `wait` and there is a rung below. -/
def stepDownDue (c : BitrateController) (since : Option UInt64) (wait nowUs : UInt64) : Bool :=
  decide (saturatingSub nowUs (since.getD nowUs) ≥ wait ∧ c.rung + 1 < c.ladder.length)

def queueStep (c : BitrateController) (loss : ℚ) (depth : UInt32) (nowUs : UInt64) :
    Option BitrateController :=
  if deep loss depth then
    if c.stepDownDue c.queueHighSinceUs queueStepDownUs nowUs then do
      let doubled ← mulWord c.stepUpWaitUs 2
      return { c with
        rung := c.rung + 1
        queueHighSinceUs := some nowUs
        stepUpWaitUs := min doubled maxStepUpWaitUs }
    else some { c with queueHighSinceUs := some (c.queueHighSinceUs.getD nowUs) }
  else some { c with queueHighSinceUs := none }

def floorStep (c : BitrateController) (nowUs : UInt64) : BitrateController :=
  if c.bitrate = minBitrate then
    if c.stepDownDue c.atFloorSinceUs floorStepDownUs nowUs then
      { c with rung := c.rung + 1, atFloorSinceUs := some nowUs }
    else { c with atFloorSinceUs := some (c.atFloorSinceUs.getD nowUs) }
  else { c with atFloorSinceUs := none }

def stepRef (c : BitrateController) (since : UInt64) : UInt64 :=
  match c.lastStepUpUs with
  | some t => max t since
  | none => since

def stepUp (c : BitrateController) (nowUs : UInt64) : BitrateController :=
  match c.cleanSinceUs with
  | some since =>
      if saturatingSub nowUs (c.stepRef since) ≥ c.stepUpWaitUs ∧ c.rung > 0 then
        { c with rung := c.rung - 1, lastStepUpUs := some nowUs }
      else c
  | none => c

def gameStep (c : BitrateController) (loss : ℚ) (depth : UInt32) (nowUs : UInt64) :
    Option BitrateController :=
  match c.mode with
  | .game => do
      let queued ← c.queueStep loss depth nowUs
      return (queued.floorStep nowUs).stepUp nowUs
  | .quality => some c

/-- The body of `on_stats` between the two looks at `current`. -/
def adapt (c : BitrateController) (loss : ℚ) (depth : UInt32) (nowUs : UInt64) :
    Option BitrateController := do
  let raised ← (c.cut loss depth nowUs).raise loss depth nowUs
  raised.gameStep loss depth nowUs

def onStats (c : BitrateController) (stats : Stats) (nowUs : UInt64) :
    Option (BitrateController × Option Decision) := do
  let before ← c.current
  let total ← add32 stats.fragmentsLost stats.fragmentsReceived
  let next ← c.adapt (loss stats total) stats.decodeQueueDepth nowUs
  let after ← next.current
  return (next, if after ≠ before then some after else none)

inductive Event where
  | stats (stats : Stats) (nowUs : UInt64)
  | setMode (mode : Mode)

def step (c : BitrateController) : Event → Option (BitrateController × Option Decision)
  | .stats stats nowUs => c.onStats stats nowUs
  | .setMode mode => some (c.setMode mode, none)

end BitrateController

end Castr.Media
