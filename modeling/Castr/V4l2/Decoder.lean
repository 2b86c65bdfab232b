import Castr.V4l2.Queue

/-! The decoder over a driver: H.264 in, NV12 out. -/

namespace Castr.V4l2

open Castr.Lib.Calls

inductive Fault where
  | io (context : String) (error : IoError)
  | bail (text : String)
  deriving DecidableEq, Repr

inductive PixelFormat where
  | bgra
  | i420
  | nv12
  deriving DecidableEq, Repr

structure RawFrame where
  format : PixelFormat
  width : UInt32
  height : UInt32
  stride : UInt32
  data : List UInt8
  timestampUs : UInt64
  deriving DecidableEq, Repr

structure Capture where
  queue : Queue
  coded : FormatInfo
  visible : Rect
  /-- No source change yet: no picture of the stream comes out. -/
  provisional : Bool
  deriving DecidableEq, Repr

structure Decoder where
  log : Log
  output : Queue
  capture : Option Capture
  ready : List RawFrame
  unanswered : UInt32
  lastPicture : Nat
  finished : Bool
  sawLast : Bool

def outputBuffers : UInt32 := 4
def outputBufferSize : UInt32 := 1048576
def captureBuffers : UInt32 := 6
def maxInFlight : Nat := 2
def stallInputs : UInt32 := 60
def stallPollMs : Nat := 2000
def pollStepMs : Nat := 20
def drainPasses : Nat := 1000 / pollStepMs

/-- A number of milliseconds on the clock. -/
def fromMillis (ms : Nat) : Nat := ms * 10 ^ 6

def capVideoM2mMplane : UInt32 := 0x00004000
def capDeviceCaps : UInt32 := 0x80000000
def eventEos : UInt32 := 2
def eventSourceChange : UInt32 := 5
def eventSrcChResolution : UInt32 := 1
def bufFlagLast : UInt32 := 0x00100000
def cidMinBuffersForCapture : UInt32 := 0x00980927

def fourcc (a b c d : Char) : UInt32 :=
  UInt32.ofNat (a.toNat + b.toNat * 2 ^ 8 + c.toNat * 2 ^ 16 + d.toNat * 2 ^ 24)

def pixFmtH264 : UInt32 := fourcc 'H' '2' '6' '4'
def pixFmtNv12 : UInt32 := fourcc 'N' 'V' '1' '2'

def hexText (value : UInt32) : String := "0x" ++ String.ofList (Nat.toDigits 16 value.toNat)

def context {σ α : Type} (text : String) (call : Call IoError σ α) : Call Fault σ α :=
  mapError (Fault.io text) call

def pollError : Fault :=
  .bail "decoder failed: poll reported POLLERR on the device (the driver dropped the stream)"

def noFreeOutputBuffer : Fault := .bail "no free output buffer"

def startsWithStartCode (data : List UInt8) : Bool :=
  [0, 0, 1].isPrefixOf data || [0, 0, 0, 1].isPrefixOf data

def checkAccessUnit (data : List UInt8) : Except Fault Unit :=
  if data = [] then .error (.bail "empty access unit")
  else if startsWithStartCode data then .ok ()
  else .error (.bail "access unit is not Annex B (no start code)")

/-- `rows` rows of `w` bytes, one every `stride` bytes. -/
def plane (src : Nat → UInt8) (stride w base rows : Nat) : List UInt8 :=
  (List.range rows).flatMap (fun row => (List.range w).map (fun i => src (base + row * stride + i)))

inductive Copied where
  | taken (frame : Option RawFrame)
  | outOfBounds (text : String)
  | panics
  deriving DecidableEq, Repr

/-- The rows of both planes; a row that runs past the mapping panics. -/
def copyPlanes (src : Nat → UInt8) (len stride w : Nat) (y uv : Nat × Nat) :
    Option (List UInt8) :=
  if (y.2 = 0 ∨ y.1 + (y.2 - 1) * stride + w ≤ len) ∧
      (uv.2 = 0 ∨ uv.1 + (uv.2 - 1) * stride + w ≤ len) then
    some (plane src stride w y.1 y.2 ++ plane src stride w uv.1 uv.2)
  else none

/-- What a dequeued buffer carries, in a debug build: arithmetic past the machine word panics. -/
def Capture.picture (cap : Capture) (dequeued : Dequeued) (memory : Mapping → Nat → UInt8) :
    Copied :=
  if cap.provisional then .taken none
  else if dequeued.bytesused = 0 then .taken none
  else
    match cap.queue.buffers[dequeued.index.toNat]? with
    | none => .panics
    | some buffer =>
        let w := cap.visible.width.toNat
        let h := cap.visible.height.toNat
        let stride := cap.coded.bytesperline.toNat
        let codedH := cap.coded.height.toNat
        let top := cap.visible.top.toNat
        let left := cap.visible.left.toNat
        let len := buffer.mapping.len
        if 2 ^ 64 ≤ stride * codedH * 3 then .panics
        else if len < stride * codedH * 3 / 2 ∨ codedH < top + h ∨ stride < left + w then
          .outOfBounds (s!"capture geometry out of bounds: visible {w}x{h} at ({left},{top})" ++
            s!" in {stride}x{codedH} coded, mapping {len} bytes")
        else
          match copyPlanes (memory buffer.mapping) len stride w (top * stride + left, h)
            (stride * codedH + top / 2 * stride + left, h / 2) with
          | none => .panics
          | some data => .taken (some {
              format := .nv12
              width := cap.visible.width
              height := cap.visible.height
              stride := cap.visible.width
              data
              timestampUs := dequeued.timestampUs })

variable (driver : Driver)

def visibleRect (coded : FormatInfo) : Call Fault Log Rect := do
  match ← attempt (driver.gSelectionCompose .capture) with
  | .ok rect =>
      pure (if 0 < rect.width ∧ 0 < rect.height then rect else ⟨0, 0, coded.width, coded.height⟩)
  | .error _ => pure ⟨0, 0, coded.width, coded.height⟩

/-- Queues the buffers from `index` on, as many as are left. -/
def queueFrom : Nat → Nat → Call Fault Wired Unit
  | _, 0 => pure ()
  | index, left + 1 => do
      context "queue capture buffer" (Queue.queue driver index 0 0)
      queueFrom (index + 1) left

def queueAllAndStart : Call Fault Wired Unit := do
  let wired ← get
  queueFrom driver 0 wired.queue.buffers.length
  context "STREAMON capture" (Queue.streamOn driver)

def allocateAndStart (count : UInt32) : Call Fault Wired Unit := do
  context "allocate capture buffers" (Queue.allocate driver count true)
  queueAllAndStart driver

def startOrRelease (count : UInt32) : Call Fault Wired Unit := do
  match ← attempt (allocateAndStart driver count) with
  | .ok () => pure ()
  | .error fault => do
      let _ ← (attempt (Queue.release driver) : Call Fault Wired (Except IoError Unit))
      fail fault

def owning {ε α : Type} (queue : Queue) (call : Call ε Wired α) : Call ε Log (Queue × α) :=
  fun log =>
    match call ⟨queue, log⟩ with
    | .ok value wired => .ok (wired.queue, value) wired.log
    | .error halt wired => .error halt wired.log

def bringUpCapture (provisional : Bool) : Call Fault Log Capture := do
  let reported ← context "G_FMT capture" (driver.gFmt .capture)
  let coded ← context "S_FMT capture"
    (driver.sFmt .capture { reported with pixelformat := pixFmtNv12 })
  if coded.pixelformat ≠ pixFmtNv12 then
    fail (.bail s!"driver refused NV12 (gave {hexText coded.pixelformat})")
  else do
    let min ← attempt (driver.gCtrl cidMinBuffersForCapture)
    let least := match min with
      | .ok value => value.toNat
      | .error _ => 0
    let count := max captureBuffers (UInt32.ofNat (least + 2))
    let (queue, _) ← owning (Queue.new .capture) (startOrRelease driver count)
    let visible ← visibleRect driver coded
    pure ⟨queue, coded, visible, provisional⟩

namespace Decoder

def ops {ε α : Type} (call : Call ε Log α) : Call ε Decoder α :=
  on Decoder.log (fun decoder log => { decoder with log := log }) call

def onOutput {ε α : Type} (call : Call ε Wired α) : Call ε Decoder α :=
  on (fun decoder => ⟨decoder.output, decoder.log⟩)
    (fun decoder wired => { decoder with output := wired.queue, log := wired.log }) call

def onCapture {ε α : Type} (cap : Capture) (call : Call ε Wired α) : Call ε Decoder α :=
  on (fun decoder => ⟨cap.queue, decoder.log⟩)
    (fun decoder wired => { decoder with
      capture := some { cap with queue := wired.queue }, log := wired.log }) call

def requeue (cap : Capture) (index : Nat) : Call Fault Decoder Unit := do
  match ← attempt (onCapture cap (Queue.queue driver index 0 0)) with
  | .ok () => pure ()
  | .error error =>
      if error = .os einval then modify (fun decoder => { decoder with sawLast := true })
      else fail (.io "requeue capture buffer" error)

def finishCapture (cap : Capture) (dequeued : Dequeued) (frame : Except Fault (Option RawFrame)) :
    Call Fault Decoder (Option (Option RawFrame)) := do
  (if dequeued.flags &&& bufFlagLast ≠ 0 then
    modify (fun decoder => { decoder with sawLast := true })
  else requeue driver cap dequeued.index.toNat)
  match frame with
  | .error fault => fail fault
  | .ok none => pure (some none)
  | .ok (some frame) => do
      modify (fun decoder => { decoder with unanswered := 0 })
      let now ← ops driver.now
      modify (fun decoder => { decoder with lastPicture := now })
      pure (some (some frame))

/-- `none` when nothing was ready, `some none` for a buffer that carried no picture. -/
def takeCapture : Call Fault Decoder (Option (Option RawFrame)) := do
  let before ← get
  match before.capture with
  | none => pure none
  | some cap => do
      match ← context "DQBUF capture" (onCapture cap (Queue.dequeue driver)) with
      | .idle => pure none
      | .endOfSequence => do
          modify (fun decoder => { decoder with sawLast := true })
          pure none
      | .buffer dequeued => do
          let after ← get
          let cap := { cap with queue := cap.queue.mark dequeued.index.toNat false }
          match cap.picture dequeued (driver.memory after.log) with
          | .panics => throw .panic
          | .outOfBounds text => finishCapture driver cap dequeued (.error (.bail text))
          | .taken frame => finishCapture driver cap dequeued (.ok frame)

def collectFrom : Nat → Bool → Call Fault Decoder Bool
  | 0, any => pure any
  | limit + 1, any => do
      match ← takeCapture driver with
      | none => pure any
      | some picture => do
          modify (fun decoder => { decoder with ready := decoder.ready ++ picture.toList })
          let decoder ← get
          if decoder.sawLast then pure true else collectFrom limit true

/-- Up to `limit` buffers; nothing more comes once the sequence has ended. -/
def collectCapture (limit : Nat) : Call Fault Decoder Bool := do
  let decoder ← get
  if decoder.sawLast then pure false else collectFrom driver limit false

def drainOutputFrom : Nat → Bool → Call Fault Decoder Bool
  | 0, _ => throw .unfinished
  | fuel + 1, any => do
      match ← context "DQBUF output" (onOutput (Queue.dequeue driver)) with
      | .buffer _ => drainOutputFrom fuel true
      | _ => pure any

def drainOutput (fuel : Nat) : Call Fault Decoder Bool := drainOutputFrom driver fuel false

def usizeMax : Nat := 2 ^ 64 - 1

def drainRounds (fuel : Nat) : Nat → Call Fault Decoder Unit
  | 0 => do
      let _ ← collectCapture driver usizeMax
      pure ()
  | left + 1 => do
      let _ ← collectCapture driver usizeMax
      let decoder ← get
      if decoder.sawLast then pure ()
      else do
        let _ ← drainOutput driver fuel
        let polled ← context "poll" (ops (driver.poll pollStepMs))
        if polled.error then fail pollError else drainRounds fuel left

/-- The tail of the sequence, up to the buffer that ends it, or for as long as a second. -/
def drainToLast (fuel : Nat) : Call Fault Decoder Unit := do
  modify (fun decoder => { decoder with sawLast := false })
  drainRounds driver fuel drainPasses

def stopOld (old : Queue) : Call Fault Decoder Queue := do
  if old.streaming then do
    let (queue, _) ← context "STREAMOFF capture" (ops (owning old (Queue.streamOff driver)))
    pure queue
  else pure old

/-- The capture queue is rebuilt, or only restarted if its geometry is the same. -/
def restartCapture (old : Capture) : Call Fault Decoder Unit := do
  let queue ← stopOld driver old.queue
  let reported ← context "G_FMT capture" (ops (driver.gFmt .capture))
  if old.provisional = false ∧ reported.width = old.coded.width ∧
      reported.height = old.coded.height ∧ reported.bytesperline = old.coded.bytesperline ∧
      reported.sizeimage = old.coded.sizeimage then do
    let visible ← ops (visibleRect driver old.coded)
    let (queue, _) ← ops (owning queue (queueAllAndStart driver))
    modify (fun decoder => { decoder with
      sawLast := false, capture := some { old with queue, visible } })
  else do
    let _ ← context "release old capture buffers" (ops (owning queue (Queue.release driver)))
    let capture ← ops (bringUpCapture driver false)
    modify (fun decoder => { decoder with sawLast := false, capture := some capture })

def reconfigureCapture (fuel : Nat) : Call Fault Decoder Unit := do
  let before ← get
  (if before.capture.any Capture.provisional then pure () else drainToLast driver fuel)
  let decoder ← get
  match decoder.capture with
  | none => fail (.bail "capture queue missing")
  | some old => do
      modify (fun decoder => { decoder with capture := none })
      restartCapture driver old

def handle (fuel : Nat) (event : Event) : Call Fault Decoder Unit :=
  if event.kind = eventSourceChange then
    if event.changes &&& eventSrcChResolution ≠ 0 then reconfigureCapture driver fuel else pure ()
  else if event.kind = eventEos then modify (fun decoder => { decoder with finished := true })
  else pure ()

def drainEventsFrom (fuel : Nat) : Nat → Bool → Call Fault Decoder Bool
  | 0, _ => throw .unfinished
  | left + 1, any => do
      match ← context "DQEVENT" (ops driver.dqevent) with
      | none => pure any
      | some event => do
          handle driver fuel event
          drainEventsFrom fuel left true

def drainEvents (fuel : Nat) : Call Fault Decoder Bool := drainEventsFrom driver fuel fuel false

def stalled : Fault := .bail s!"decoder stalled: no progress for {stallPollMs} ms"

def stalledDespite : Fault := .bail
  s!"decoder stalled: no output slot freed within {4 * stallPollMs} ms despite ongoing progress"

def collectOne (fuel : Nat) : Call Fault Decoder Bool := do
  if ← collectCapture driver 1 then do
    let _ ← drainOutput driver fuel
    pure true
  else pure false

/-- The deadline after a round that made progress or did not. -/
def nextDeadline (progressed : Bool) (deadline : Nat) : Call Fault Decoder Nat := do
  if progressed then do
    let now ← ops driver.now
    pure (now + fromMillis stallPollMs)
  else do
    let now ← ops driver.now
    if deadline ≤ now then fail stalled else pure deadline

def waitFrom (fuel absolute : Nat) : Nat → Nat → Nat → Call Fault Decoder Nat
  | 0, _, _ => throw .unfinished
  | left + 1, deadline, budget => do
      let before ← get
      if before.output.inFlight < maxInFlight then pure budget
      else do
        let polled ← context "poll" (ops (driver.poll pollStepMs))
        if polled.error then fail pollError
        else do
          let handled ← drainEvents driver fuel
          let drained ← drainOutput driver fuel
          let after ← get
          if after.output.inFlight < maxInFlight then pure budget
          else do
            let collected ← collectOne driver fuel
            let deadline ← nextDeadline driver (handled || drained || collected) deadline
            let now ← ops driver.now
            if absolute ≤ now then fail stalledDespite
            else waitFrom fuel absolute left deadline (if collected then budget - 1 else budget)

def waitForSlot (fuel budget : Nat) : Call Fault Decoder Nat := do
  let entered ← ops driver.now
  waitFrom driver fuel (entered + fromMillis (4 * stallPollMs)) fuel
    (entered + fromMillis stallPollMs) budget

def popReady : Call Fault Decoder (Option RawFrame) := do
  let decoder ← get
  modify (fun decoder => { decoder with ready := decoder.ready.tail })
  pure decoder.ready.head?

def queueInput (data : List UInt8) (timestampUs : UInt64) : Call Fault Decoder Unit := do
  let decoder ← get
  match decoder.output.freeSlot with
  | none => fail noFreeOutputBuffer
  | some slot =>
      match decoder.output.buffers[slot]? with
      | none => throw .panic
      | some buffer =>
          if buffer.mapping.len < data.length then
            fail (.bail (s!"access unit of {data.length} bytes exceeds the " ++
              s!"{buffer.mapping.len} byte output buffer actually allocated"))
          else do
            ops (store buffer.mapping data)
            context "QBUF output" (onOutput
              (Queue.queue driver slot (UInt32.ofNat data.length) timestampUs))

def checkStall : Call Fault Decoder Unit := do
  let now ← ops driver.now
  let decoder ← get
  if decoder.ready = [] ∧ stallInputs ≤ decoder.unanswered ∧
      fromMillis stallPollMs ≤ now - decoder.lastPicture then
    fail (.bail (s!"decoder stalled: {decoder.unanswered} access units queued with no picture " ++
      s!"for {(now - decoder.lastPicture) / 10 ^ 6} ms"))
  else pure ()

def decode (fuel : Nat) (data : List UInt8) (timestampUs : UInt64) :
    Call Fault Decoder (Option RawFrame) := do
  lift (checkAccessUnit data)
  if outputBufferSize.toNat < data.length then
    fail (.bail
      s!"access unit of {data.length} bytes exceeds the {outputBufferSize} byte decoder buffer")
  else do
    let before ← get
    if before.finished then fail (.bail "decoder reported end of stream")
    else do
      let budget ← waitForSlot driver fuel 1
      queueInput driver data timestampUs
      modify (fun decoder => { decoder with unanswered := decoder.unanswered + 1 })
      let _ ← drainEvents driver fuel
      let _ ← (if 0 < budget then collectCapture driver budget else pure false)
      checkStall driver
      popReady

def pollFrame (fuel : Nat) : Call Fault Decoder (Option RawFrame) := do
  let before ← get
  if before.ready ≠ [] then popReady
  else do
    let polled ← context "poll" (ops (driver.poll 0))
    if polled.error then fail pollError
    else do
      let _ ← drainEvents driver fuel
      let _ ← drainOutput driver fuel
      let _ ← collectCapture driver 1
      popReady

end Decoder

def supportsFrom (bufType : BufType) (format : UInt32) : Nat → Nat → Call Fault Log Bool
  | _, 0 => fail (.bail "device listed more than 64 formats")
  | index, left + 1 => do
      match ← context "ENUM_FMT" (driver.enumFmt bufType (UInt32.ofNat index)) with
      | some found =>
          if found = format then pure true else supportsFrom bufType format (index + 1) left
      | none => pure false

def supports (bufType : BufType) (format : UInt32) : Call Fault Log Bool :=
  supportsFrom driver bufType format 0 64

def openOutput : Call Fault Wired Unit := do
  context "allocate output buffers" (Queue.allocate driver outputBuffers false)
  let wired ← get
  if wired.queue.buffers.length < maxInFlight then
    fail (.bail (s!"driver granted only {wired.queue.buffers.length} output buffer(s), " ++
      s!"need at least {maxInFlight}"))
  else
    match wired.queue.buffers.find? (fun buffer => buffer.mapping.len < outputBufferSize.toNat) with
    | some buffer =>
        fail (.bail (s!"driver granted an output buffer of {buffer.mapping.len} bytes, " ++
          s!"need at least {outputBufferSize}"))
    | none => context "STREAMON output" (Queue.streamOn driver)

def openCapture (output : Queue) : Call Fault Log Capture := do
  match ← attempt (bringUpCapture driver true) with
  | .ok capture => pure capture
  | .error fault => do
      let _ ← (attempt (owning output (Queue.release driver)) :
        Call Fault Log (Except IoError (Queue × Unit)))
      fail fault

/-- A decoder over a driver nothing was asked of yet. -/
def withOps : Call Fault Log Decoder := do
  let cap ← context "QUERYCAP" driver.queryCap
  let caps := if cap.capabilities &&& capDeviceCaps ≠ 0 then cap.deviceCaps else cap.capabilities
  if caps &&& capVideoM2mMplane = 0 then
    fail (.bail s!"device is not a multiplanar memory-to-memory codec (caps {hexText caps})")
  else do
    if ← supports driver .output pixFmtH264 then
      if ← supports driver .capture pixFmtNv12 then do
        let _ ← context "S_FMT output"
          (driver.sFmt .output ⟨0, 0, pixFmtH264, 0, outputBufferSize⟩)
        context "subscribe SOURCE_CHANGE" (driver.subscribe eventSourceChange)
        context "subscribe EOS" (driver.subscribe eventEos)
        let (output, _) ← owning (Queue.new .output) (openOutput driver)
        let capture ← openCapture driver output
        let lastPicture ← driver.now
        let log ← get
        pure {
          log
          output
          capture := some capture
          ready := []
          unanswered := 0
          lastPicture
          finished := false
          sawLast := false }
      else fail (.bail "device does not produce NV12")
    else fail (.bail "device does not accept H.264")

inductive Ask where
  | decode (data : List UInt8) (timestampUs : UInt64)
  | pollFrame
  deriving DecidableEq, Repr

def Decoder.ask (fuel : Nat) : Ask → Call Fault Decoder (Option RawFrame)
  | .decode data timestampUs => Decoder.decode driver fuel data timestampUs
  | .pollFrame => Decoder.pollFrame driver fuel

/-- A decoder after calls that returned, with the frames they gave, the first one first. -/
inductive Served : Decoder → List RawFrame → Prop
  | opened (s : Decoder) (log : Log) : withOps driver [] = .ok s log → Served s []
  | answered (s next : Decoder) (given : List RawFrame) (fuel : Nat) (ask : Ask)
      (frame : Option RawFrame) : Served s given → Decoder.ask driver fuel ask s = .ok frame next →
      Served next (given ++ frame.toList)
  | failed (s next : Decoder) (given : List RawFrame) (fuel : Nat) (ask : Ask) (fault : Fault) :
      Served s given → Decoder.ask driver fuel ask s = .error (.fault fault) next →
        Served next given

end Castr.V4l2
