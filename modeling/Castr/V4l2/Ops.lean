import Mathlib.Algebra.Group.Nat.Defs
import Castr.Lib.Calls

/-! The V4L2 driver, as the decoder sees it: what it is asked, and what it answers.

A driver answers from everything it was asked before, so any driver's behaviour in one run is
one of these. The log has its last entry first. -/

namespace Castr.V4l2

open Castr.Lib.Calls

/-- The two queues of the decoder, by their multiplanar buffer types. -/
inductive BufType where
  | output
  | capture
  deriving DecidableEq, Repr

inductive IoError where
  | os (code : Nat)
  | other (text : String)
  deriving DecidableEq, Repr

def einval : Nat := 22

structure Capability where
  capabilities : UInt32
  deviceCaps : UInt32
  deriving DecidableEq, Repr

structure FormatInfo where
  width : UInt32
  height : UInt32
  pixelformat : UInt32
  bytesperline : UInt32
  sizeimage : UInt32
  deriving DecidableEq, Repr

structure Rect where
  left : Int
  top : Int
  width : UInt32
  height : UInt32
  deriving DecidableEq, Repr

structure PlaneInfo where
  length : UInt32
  memOffset : UInt32
  deriving DecidableEq, Repr

structure Dequeued where
  index : UInt32
  bytesused : UInt32
  timestampUs : UInt64
  flags : UInt32
  deriving DecidableEq, Repr

inductive Dequeue where
  | idle
  | buffer (dequeued : Dequeued)
  | endOfSequence
  deriving DecidableEq, Repr

structure Event where
  kind : UInt32
  changes : UInt32
  deriving DecidableEq, Repr

structure PollResult where
  readable : Bool
  writable : Bool
  event : Bool
  error : Bool
  deriving DecidableEq, Repr

/-- A mapped plane: a length of the device's memory from an offset on. -/
structure Mapping where
  len : Nat
  offset : UInt32
  deriving DecidableEq, Repr

inductive Request where
  | queryCap
  | enumFmt (bufType : BufType) (index : UInt32)
  | gFmt (bufType : BufType)
  | sFmt (bufType : BufType) (want : FormatInfo)
  | reqbufs (bufType : BufType) (count : UInt32)
  | querybuf (bufType : BufType) (index : UInt32)
  | mmap (length : Nat) (offset : UInt32)
  | expbuf (bufType : BufType) (index : UInt32)
  | qbuf (bufType : BufType) (index length bytesused : UInt32) (timestampUs : UInt64)
  | dqbuf (bufType : BufType)
  | streamon (bufType : BufType)
  | streamoff (bufType : BufType)
  | subscribe (eventType : UInt32)
  | dqevent
  | poll (timeoutMs : Int)
  | gCtrl (id : UInt32)
  | gSelectionCompose (bufType : BufType)
  deriving DecidableEq, Repr

@[reducible] def Reply : Request → Type
  | .queryCap => Capability
  | .enumFmt _ _ => Option UInt32
  | .gFmt _ => FormatInfo
  | .sFmt _ _ => FormatInfo
  | .reqbufs _ _ => UInt32
  | .querybuf _ _ => PlaneInfo
  | .mmap _ _ => Unit
  | .expbuf _ _ => Unit
  | .qbuf _ _ _ _ _ => Unit
  | .dqbuf _ => Dequeue
  | .streamon _ => Unit
  | .streamoff _ => Unit
  | .subscribe _ => Unit
  | .dqevent => Option Event
  | .poll _ => PollResult
  | .gCtrl _ => Int
  | .gSelectionCompose _ => Rect

inductive Entry where
  | asked (request : Request) (answer : Except IoError (Reply request))
  | clock (now : Nat)
  /-- Bytes stored at the start of a mapped plane. -/
  | stored (mapping : Mapping) (bytes : List UInt8)

abbrev Log : Type := List Entry

structure Driver where
  answer : Log → (request : Request) → Except IoError (Reply request)
  /-- The monotonic clock, in nanoseconds. -/
  clock : Log → Nat
  /-- What a mapped plane holds after everything so far. -/
  memory : Log → Mapping → Nat → UInt8

namespace Driver

variable (driver : Driver)

def call (request : Request) : Call IoError Log (Reply request) := fun log =>
  match driver.answer log request with
  | .ok reply => .ok reply (.asked request (.ok reply) :: log)
  | .error error => .error (.fault error) (.asked request (.error error) :: log)

def queryCap : Call IoError Log Capability := driver.call .queryCap

def enumFmt (bufType : BufType) (index : UInt32) : Call IoError Log (Option UInt32) :=
  driver.call (.enumFmt bufType index)

def gFmt (bufType : BufType) : Call IoError Log FormatInfo := driver.call (.gFmt bufType)

def sFmt (bufType : BufType) (want : FormatInfo) : Call IoError Log FormatInfo :=
  driver.call (.sFmt bufType want)

def reqbufs (bufType : BufType) (count : UInt32) : Call IoError Log UInt32 :=
  driver.call (.reqbufs bufType count)

def querybuf (bufType : BufType) (index : UInt32) : Call IoError Log PlaneInfo :=
  driver.call (.querybuf bufType index)

def mmap (length : Nat) (offset : UInt32) : Call IoError Log Mapping := do
  driver.call (.mmap length offset)
  pure ⟨length, offset⟩

def expbuf (bufType : BufType) (index : UInt32) : Call IoError Log Unit :=
  driver.call (.expbuf bufType index)

def qbuf (bufType : BufType) (index length bytesused : UInt32) (timestampUs : UInt64) :
    Call IoError Log Unit :=
  driver.call (.qbuf bufType index length bytesused timestampUs)

def dqbuf (bufType : BufType) : Call IoError Log Dequeue := driver.call (.dqbuf bufType)

def streamon (bufType : BufType) : Call IoError Log Unit := driver.call (.streamon bufType)

def streamoff (bufType : BufType) : Call IoError Log Unit := driver.call (.streamoff bufType)

def subscribe (eventType : UInt32) : Call IoError Log Unit := driver.call (.subscribe eventType)

def dqevent : Call IoError Log (Option Event) := driver.call .dqevent

def poll (timeoutMs : Int) : Call IoError Log PollResult := driver.call (.poll timeoutMs)

def now {ε : Type} : Call ε Log Nat := fun log =>
  .ok (driver.clock log) (.clock (driver.clock log) :: log)

def gCtrl (id : UInt32) : Call IoError Log Int := driver.call (.gCtrl id)

def gSelectionCompose (bufType : BufType) : Call IoError Log Rect :=
  driver.call (.gSelectionCompose bufType)

end Driver

/-- A mapped plane is memory: nothing answers a store. -/
def store {ε : Type} (mapping : Mapping) (bytes : List UInt8) : Call ε Log Unit :=
  modify (fun log => .stored mapping bytes :: log)

section Rules

variable (driver : Driver) {before : Log → Prop}

theorem meets_call {failed : Halt IoError → Log → Prop} (request : Request)
    {done : Reply request → Log → Prop}
    (replied : ∀ log, before log → ∀ reply, driver.answer log request = .ok reply →
      done reply (.asked request (.ok reply) :: log))
    (refused : ∀ log, before log → ∀ error, driver.answer log request = .error error →
      failed (.fault error) (.asked request (.error error) :: log)) :
    Meets before (driver.call request) done failed := by
  intro log holds
  unfold Driver.call
  cases answer : driver.answer log request with
  | ok reply => exact replied log holds reply answer
  | error error => exact refused log holds error answer

theorem meets_now {ε : Type} {failed : Halt ε → Log → Prop} {done : Nat → Log → Prop}
    (holds : ∀ log, before log → done (driver.clock log) (.clock (driver.clock log) :: log)) :
    Meets before driver.now done failed := holds

theorem meets_store {ε : Type} {failed : Halt ε → Log → Prop} {done : Unit → Log → Prop}
    (mapping : Mapping) (bytes : List UInt8)
    (holds : ∀ log, before log → done () (.stored mapping bytes :: log)) :
    Meets before (store mapping bytes) done failed := holds

end Rules

end Castr.V4l2
