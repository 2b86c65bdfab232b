import Castr.V4l2.Ops

/-! One buffer queue: allocation, queue and dequeue, teardown. -/

namespace Castr.V4l2

open Castr.Lib.Calls

structure Buffer where
  mapping : Mapping
  queued : Bool
  deriving DecidableEq, Repr

structure Queue where
  bufType : BufType
  buffers : List Buffer
  streaming : Bool
  deriving DecidableEq, Repr

structure Wired where
  queue : Queue
  log : Log

variable (driver : Driver)

namespace Queue

def new (bufType : BufType) : Queue := ⟨bufType, [], false⟩

def ops {ε α : Type} (call : Call ε Log α) : Call ε Wired α :=
  on Wired.log (fun wired log => { wired with log := log }) call

def update {ε : Type} (change : Queue → Queue) : Call ε Wired Unit :=
  modify (fun wired => { wired with queue := change wired.queue })

def freeSlot (queue : Queue) : Option Nat :=
  queue.buffers.findIdx? (fun buffer => !buffer.queued)

def inFlight (queue : Queue) : Nat := queue.buffers.countP Buffer.queued

def mark (index : Nat) (queued : Bool) (queue : Queue) : Queue :=
  { queue with buffers := queue.buffers.modify index (fun buffer => { buffer with queued }) }

def allocateFrom (bufType : BufType) (exports : Bool) : Nat → Nat → Call IoError Wired Unit
  | _, 0 => pure ()
  | index, left + 1 => do
      let info ← ops (driver.querybuf bufType (UInt32.ofNat index))
      let mapping ← ops (driver.mmap info.length.toNat info.memOffset)
      (if exports then ops (driver.expbuf bufType (UInt32.ofNat index)) else pure ())
      update (fun queue => { queue with buffers := queue.buffers ++ [⟨mapping, false⟩] })
      allocateFrom bufType exports (index + 1) left

def allocate (count : UInt32) (exports : Bool) : Call IoError Wired Unit := do
  let wired ← get
  let granted ← ops (driver.reqbufs wired.queue.bufType count)
  update (fun queue => { queue with buffers := [] })
  allocateFrom driver wired.queue.bufType exports 0 granted.toNat

def streamOn : Call IoError Wired Unit := do
  let wired ← get
  ops (driver.streamon wired.queue.bufType)
  update (fun queue => { queue with streaming := true })

def streamOff : Call IoError Wired Unit := do
  let wired ← get
  ops (driver.streamoff wired.queue.bufType)
  update (fun queue => { queue with
    streaming := false
    buffers := queue.buffers.map (fun buffer => { buffer with queued := false }) })

def queue (index : Nat) (bytesused : UInt32) (timestampUs : UInt64) :
    Call IoError Wired Unit := do
  let wired ← get
  match wired.queue.buffers[index]? with
  | none => fail (.other "buffer index out of range")
  | some buffer =>
      if buffer.queued then fail (.other s!"buffer {index} already queued")
      else do
        ops (driver.qbuf wired.queue.bufType (UInt32.ofNat index)
          (UInt32.ofNat buffer.mapping.len) bytesused timestampUs)
        update (mark index true)

def dequeue : Call IoError Wired Dequeue := do
  let wired ← get
  let answered ← ops (driver.dqbuf wired.queue.bufType)
  match answered with
  | .buffer dequeued =>
      match wired.queue.buffers[dequeued.index.toNat]? with
      | some _ => do
          update (mark dequeued.index.toNat false)
          pure answered
      | none => fail (.other s!"driver dequeued unknown buffer {dequeued.index}")
  | _ => pure answered

def release : Call IoError Wired Unit := do
  let wired ← get
  (if wired.queue.streaming then streamOff driver else pure ())
  update (fun queue => { queue with buffers := [] })
  let _ ← ops (driver.reqbufs wired.queue.bufType 0)
  pure ()

end Queue

section Rules

variable {before : Wired → Prop} {failed : Halt IoError → Wired → Prop}

theorem meets_asked (request : Request) {done : Reply request → Wired → Prop}
    (replied : ∀ wired, before wired → ∀ reply, driver.answer wired.log request = .ok reply →
      done reply { wired with log := .asked request (.ok reply) :: wired.log })
    (refused : ∀ wired, before wired → ∀ error, driver.answer wired.log request = .error error →
      failed (.fault error) { wired with log := .asked request (.error error) :: wired.log }) :
    Meets before (Queue.ops (driver.call request)) done failed := by
  apply meets_on
  intro wired holds
  apply meets_call
  · rintro log rfl reply answer
    exact replied wired holds reply answer
  · rintro log rfl error answer
    exact refused wired holds error answer

theorem meets_asked_bind {α : Type} {done : α → Wired → Prop} (request : Request) (wired : Wired)
    {next : Reply request → Call IoError Wired α}
    (replied : ∀ reply, driver.answer wired.log request = .ok reply →
      Meets (fun w => w = { wired with log := .asked request (.ok reply) :: wired.log })
        (next reply) done failed)
    (refused : ∀ error, driver.answer wired.log request = .error error →
      failed (.fault error) { wired with log := .asked request (.error error) :: wired.log }) :
    Meets (fun w => w = wired) (Queue.ops (driver.call request) >>= next) done failed := by
  refine meets_bind (fun reply w => driver.answer wired.log request = .ok reply ∧
    w = { wired with log := .asked request (.ok reply) :: wired.log }) ?_ (fun reply => ?_)
  · apply meets_asked
    · rintro _ rfl reply answer
      exact ⟨answer, rfl⟩
    · rintro _ rfl error answer
      exact refused error answer
  · rintro _ ⟨answer, rfl⟩
    exact replied reply answer _ rfl

end Rules

end Castr.V4l2
