import Castr.V4l2.Calling

/-! What the calls of the decoder add to the log: only what the driver answers, and only one of them
asks for events. -/

namespace Castr.V4l2

open Castr.Lib.Calls

def Driver.Gives (driver : Driver) (log : Log) : Entry → Prop
  | .asked request answer => driver.answer log request = answer
  | .clock now => driver.clock log = now
  | .stored _ _ => True

def Entry.asksEvent : Entry → Bool
  | .asked .dqevent _ => true
  | _ => false

def Takes (driver : Driver) (events : Bool) (kept : Log → Prop) : Prop :=
  ∀ entry log, driver.Gives log entry → (entry.asksEvent = true → events = true) → kept log →
    kept (entry :: log)

inductive Later (driver : Driver) (events : Bool) (start : Log) : Log → Prop
  | refl : Later driver events start start
  | cons {entry : Entry} {log : Log} (before : Later driver events start log)
      (given : driver.Gives log entry) (may : entry.asksEvent = true → events = true) :
      Later driver events start (entry :: log)

theorem takes_later (driver : Driver) (events : Bool) (start : Log) :
    Takes driver events (Later driver events start) :=
  fun _ _ given may before => .cons before given may

theorem Takes.later {driver : Driver} {events : Bool} {kept : Log → Prop} {start log : Log}
    (takes : Takes driver events kept) (later : Later driver events start log)
    (holds : kept start) : kept log := by
  induction later with
  | refl => exact holds
  | cons before given may ih => exact takes _ _ given may ih

theorem Takes.and {driver : Driver} {events : Bool} {kept other : Log → Prop}
    (takes : Takes driver events kept) (more : Takes driver events other) :
    Takes driver events (fun log => kept log ∧ other log) :=
  fun entry log given may holds =>
    ⟨takes entry log given may holds.1, more entry log given may holds.2⟩

theorem Takes.quiet {driver : Driver} {kept : Log → Prop} (takes : Takes driver true kept) :
    Takes driver false kept :=
  fun entry log given _ => takes entry log given (fun _ => rfl)

def Logs {ε σ α : Type} (log : σ → Log) (kept : Log → Prop) (call : Call ε σ α) : Prop :=
  Meets (fun s => kept (log s)) call (fun _ s => kept (log s))
    (fun halt s => halt ≠ .unfinished ∧ kept (log s))

section Rules

variable {ε ε' σ τ α β : Type} {log : σ → Log} {kept : Log → Prop}

theorem logs_pure (value : α) : Logs log kept (pure value : Call ε σ α) :=
  meets_pure _ (fun _ holds => holds)

theorem logs_fail (error : ε) : Logs log kept (fail error : Call ε σ α) :=
  meets_fail _ (fun _ holds => ⟨nofun, holds⟩)

theorem logs_panic : Logs log kept (throw .panic : Call ε σ α) :=
  meets_throw _ (fun _ holds => ⟨nofun, holds⟩)

theorem logs_get : Logs log kept (get : Call ε σ σ) := meets_get (fun _ holds => holds)

theorem logs_modify (change : σ → σ) (same : ∀ s, log (change s) = log s) :
    Logs log kept (modify change : Call ε σ Unit) :=
  meets_modify _ (fun s holds => (same s).symm ▸ holds)

theorem logs_bind {first : Call ε σ β} {next : β → Call ε σ α} (start : Logs log kept first)
    (rest : ∀ value, Logs log kept (next value)) : Logs log kept (first >>= next) :=
  meets_bind _ start rest

theorem logs_ite {c : Prop} [Decidable c] {yes no : Call ε σ α} (holds : Logs log kept yes)
    (fails : Logs log kept no) : Logs log kept (if c then yes else no) :=
  meets_ite (fun _ => holds) (fun _ => fails)

theorem logs_attempt {call : Call ε σ α} (logs : Logs log kept call) :
    Logs log kept (attempt call : Call ε' σ (Except ε α)) :=
  meets_attempt _ _ logs (fun _ _ after => after) (fun _ _ early => early.2)
    (fun _ early => ⟨nofun, early.2⟩) (fun _ early => absurd rfl early.1)

theorem logs_context {text : String} {call : Call IoError σ α} (logs : Logs log kept call) :
    Logs log kept (context text call) :=
  meets_mapError logs (fun _ _ early => ⟨nofun, early.2⟩) (fun _ early => ⟨nofun, early.2⟩)
    (fun _ early => absurd rfl early.1)

theorem logs_on {inner : τ → Log} {get : σ → τ} {set : σ → τ → σ} {call : Call ε τ α}
    (got : ∀ s, inner (get s) = log s) (put : ∀ s t, log (set s t) = inner t)
    (logs : Logs inner kept call) : Logs log kept (on get set call) := by
  apply meets_on
  intro s holds
  refine meets_mono logs ?_ (fun _ t after => (put s t).symm ▸ after)
    (fun _ t early => (put s t).symm ▸ early)
  rintro _ rfl
  exact (got s).symm ▸ holds

theorem logs_owning {queue : Queue} {call : Call ε Wired α} (logs : Logs Wired.log kept call) :
    Logs id kept (owning queue call) := by
  apply meets_owning
  intro log holds
  exact meets_mono logs (by rintro _ rfl; exact holds) (fun _ _ after => after)
    (fun _ _ early => early)

end Rules

section Queues

variable {driver : Driver} {events : Bool} {kept : Log → Prop} (takes : Takes driver events kept)

include takes

theorem logs_call (request : Request) (other : request = .dqevent → events = true) :
    Logs id kept (driver.call request) := by
  have may (answer : Except IoError (Reply request)) :
      (Entry.asked request answer).asksEvent = true → events = true := by
    cases request with
    | dqevent => exact fun _ => other rfl
    | _ => exact fun asks => (nomatch asks)
  apply meets_call
  · exact fun log holds reply answer => takes _ log answer (may _) holds
  · exact fun log holds error answer => ⟨nofun, takes _ log answer (may _) holds⟩

theorem logs_now {ε : Type} : Logs id kept (driver.now : Call ε Log Nat) :=
  meets_now driver (fun log holds => takes _ log rfl (fun asks => (nomatch asks)) holds)

theorem logs_store {ε : Type} (mapping : Mapping) (bytes : List UInt8) :
    Logs id kept (store mapping bytes : Call ε Log Unit) :=
  meets_store mapping bytes
    (fun log holds => takes _ log trivial (fun asks => (nomatch asks)) holds)

theorem logs_asked (request : Request) (other : request = .dqevent → events = true) :
    Logs Wired.log kept (Queue.ops (driver.call request)) :=
  logs_on (fun _ => rfl) (fun _ _ => rfl) (logs_call takes request other)

omit takes in
theorem logs_update (change : Queue → Queue) :
    Logs Wired.log kept (Queue.update change : Call IoError Wired Unit) :=
  logs_modify _ (fun _ => rfl)

theorem logs_streamOn : Logs Wired.log kept (Queue.streamOn driver) :=
  logs_bind logs_get (fun _ => logs_bind (logs_asked takes _ nofun) (fun _ => logs_update _))

theorem logs_streamOff : Logs Wired.log kept (Queue.streamOff driver) :=
  logs_bind logs_get (fun _ => logs_bind (logs_asked takes _ nofun) (fun _ => logs_update _))

theorem logs_queue (index : Nat) (bytesused : UInt32) (timestampUs : UInt64) :
    Logs Wired.log kept (Queue.queue driver index bytesused timestampUs) := by
  refine logs_bind logs_get (fun wired => ?_)
  cases wired.queue.buffers[index]? with
  | none => exact logs_fail _
  | some buffer =>
      exact logs_ite (logs_fail _)
        (logs_bind (logs_asked takes _ nofun) (fun _ => logs_update _))

theorem logs_dequeue : Logs Wired.log kept (Queue.dequeue driver) := by
  refine logs_bind logs_get (fun wired => logs_bind (logs_asked takes _ nofun) (fun answered => ?_))
  cases answered with
  | buffer dequeued =>
      dsimp only
      cases wired.queue.buffers[dequeued.index.toNat]? with
      | none => exact logs_fail _
      | some buffer => exact logs_bind (logs_update _) (fun _ => logs_pure _)
  | idle => exact logs_pure _
  | endOfSequence => exact logs_pure _

theorem logs_release : Logs Wired.log kept (Queue.release driver) := by
  refine logs_bind logs_get (fun wired => logs_bind ?_ (fun _ => ?_))
  · exact logs_ite (logs_streamOff takes) (logs_pure _)
  · exact logs_bind (logs_update _)
      (fun _ => logs_bind (logs_asked takes _ nofun) (fun _ => logs_pure _))

theorem logs_allocateFrom (bufType : BufType) (exports : Bool) (index left : Nat) :
    Logs Wired.log kept (Queue.allocateFrom driver bufType exports index left) := by
  induction left generalizing index with
  | zero => exact logs_pure _
  | succ left ih =>
      refine logs_bind (logs_asked takes _ nofun) (fun info => logs_bind ?_ (fun mapping => ?_))
      · exact logs_on (fun _ => rfl) (fun _ _ => rfl)
          (logs_bind (logs_call takes _ nofun) (fun _ => logs_pure _))
      refine logs_bind ?_ (fun _ => logs_bind (logs_update _) (fun _ => ih (index + 1)))
      exact logs_ite (logs_asked takes _ nofun) (logs_pure _)

theorem logs_allocate (count : UInt32) (exports : Bool) :
    Logs Wired.log kept (Queue.allocate driver count exports) :=
  logs_bind logs_get (fun _ => logs_bind (logs_asked takes _ nofun)
    (fun _ => logs_bind (logs_update _) (fun _ => logs_allocateFrom takes _ exports 0 _)))

theorem logs_visibleRect (coded : FormatInfo) : Logs id kept (visibleRect driver coded) := by
  refine logs_bind (logs_attempt (logs_call takes _ nofun)) (fun result => ?_)
  cases result with
  | ok rect => exact logs_pure _
  | error error => exact logs_pure _

theorem logs_queueFrom (index left : Nat) : Logs Wired.log kept (queueFrom driver index left) := by
  induction left generalizing index with
  | zero => exact logs_pure _
  | succ left ih =>
      exact logs_bind (logs_context (logs_queue takes index 0 0)) (fun _ => ih (index + 1))

theorem logs_queueAllAndStart : Logs Wired.log kept (queueAllAndStart driver) :=
  logs_bind logs_get (fun _ => logs_bind (logs_queueFrom takes 0 _)
    (fun _ => logs_context (logs_streamOn takes)))

theorem logs_startOrRelease (count : UInt32) :
    Logs Wired.log kept (startOrRelease driver count) := by
  have started : Logs Wired.log kept (allocateAndStart driver count) :=
    logs_bind (logs_context (logs_allocate takes count true)) (fun _ => logs_queueAllAndStart takes)
  refine logs_bind (logs_attempt started) (fun result => ?_)
  cases result with
  | ok _ => exact logs_pure _
  | error fault => exact logs_bind (logs_attempt (logs_release takes)) (fun _ => logs_fail fault)

theorem logs_bringUpCapture (provisional : Bool) :
    Logs id kept (bringUpCapture driver provisional) := by
  refine logs_bind (logs_context (logs_call takes _ nofun)) (fun reported => ?_)
  refine logs_bind (logs_context (logs_call takes _ nofun)) (fun coded => ?_)
  refine logs_ite (logs_fail _) (logs_bind (logs_attempt (logs_call takes _ nofun)) (fun min => ?_))
  refine logs_bind (logs_owning (logs_startOrRelease takes _)) (fun result => ?_)
  exact logs_bind (logs_visibleRect takes coded) (fun visible => logs_pure _)

end Queues

namespace Decoder

variable {driver : Driver} {events : Bool} {kept : Log → Prop} (takes : Takes driver events kept)

omit takes in
theorem logs_ops {ε α : Type} {call : Call ε Log α} (logs : Logs id kept call) :
    Logs Decoder.log kept (ops call) :=
  logs_on (fun _ => rfl) (fun _ _ => rfl) logs

omit takes in
theorem logs_onCapture {ε α : Type} (cap : Capture) {call : Call ε Wired α}
    (logs : Logs Wired.log kept call) : Logs Decoder.log kept (onCapture cap call) :=
  logs_on (fun _ => rfl) (fun _ _ => rfl) logs

omit takes in
theorem logs_onOutput {ε α : Type} {call : Call ε Wired α} (logs : Logs Wired.log kept call) :
    Logs Decoder.log kept (onOutput call) :=
  logs_on (fun _ => rfl) (fun _ _ => rfl) logs

include takes

theorem logs_poll (timeoutMs : Int) :
    Logs Decoder.log kept (context "poll" (ops (driver.poll timeoutMs))) :=
  logs_context (logs_ops (logs_call takes _ nofun))

theorem logs_freed :
    Logs Decoder.log kept (context "DQBUF output" (onOutput (Queue.dequeue driver))) :=
  logs_context (logs_onOutput (logs_dequeue takes))

theorem logs_requeue (cap : Capture) (index : Nat) :
    Logs Decoder.log kept (requeue driver cap index) := by
  refine logs_bind (logs_attempt (logs_onCapture cap (logs_queue takes index 0 0)))
    (fun result => ?_)
  cases result with
  | ok _ => exact logs_pure _
  | error error => exact logs_ite (logs_modify _ (fun _ => rfl)) (logs_fail _)

theorem logs_finishCapture (cap : Capture) (dequeued : Dequeued)
    (frame : Except Fault (Option RawFrame)) :
    Logs Decoder.log kept (finishCapture driver cap dequeued frame) := by
  refine logs_bind (logs_ite (logs_modify _ (fun _ => rfl)) (logs_requeue takes cap _))
    (fun _ => ?_)
  match frame with
  | .error fault => exact logs_fail fault
  | .ok none => exact logs_pure _
  | .ok (some frame) =>
      refine logs_bind (logs_modify _ (fun _ => rfl)) (fun _ => ?_)
      refine logs_bind (logs_ops (logs_now takes)) (fun now => ?_)
      exact logs_bind (logs_modify _ (fun _ => rfl)) (fun _ => logs_pure _)

theorem logs_takeCapture : Logs Decoder.log kept (takeCapture driver) := by
  refine logs_bind logs_get (fun before => ?_)
  cases before.capture with
  | none => exact logs_pure _
  | some cap =>
      refine logs_bind (logs_context (logs_onCapture cap (logs_dequeue takes))) (fun reply => ?_)
      cases reply with
      | idle => exact logs_pure _
      | endOfSequence => exact logs_bind (logs_modify _ (fun _ => rfl)) (fun _ => logs_pure _)
      | buffer dequeued =>
          refine logs_bind logs_get (fun after => ?_)
          dsimp only
          split
          · exact logs_panic
          · exact logs_finishCapture takes _ dequeued _
          · exact logs_finishCapture takes _ dequeued _

theorem logs_collectFrom (limit : Nat) (any : Bool) :
    Logs Decoder.log kept (collectFrom driver limit any) := by
  induction limit generalizing any with
  | zero => exact logs_pure _
  | succ limit ih =>
      refine logs_bind (logs_takeCapture takes) (fun taken => ?_)
      cases taken with
      | none => exact logs_pure _
      | some picture =>
          refine logs_bind (logs_modify _ (fun _ => rfl)) (fun _ => ?_)
          exact logs_bind logs_get (fun _ => logs_ite (logs_pure _) (ih true))

theorem logs_collectCapture (limit : Nat) : Logs Decoder.log kept (collectCapture driver limit) :=
  logs_bind logs_get (fun _ => logs_ite (logs_pure _) (logs_collectFrom takes limit false))

theorem logs_restartCapture (old : Capture) :
    Logs Decoder.log kept (restartCapture driver old) := by
  refine logs_bind ?_ (fun queue => ?_)
  · refine logs_ite (logs_bind (logs_context (logs_ops ?_)) (fun _ => logs_pure _)) (logs_pure _)
    exact logs_owning (logs_streamOff takes)
  refine logs_bind (logs_context (logs_ops (logs_call takes _ nofun))) (fun reported => ?_)
  refine logs_ite ?_ ?_
  · refine logs_bind (logs_ops (logs_visibleRect takes _)) (fun visible => ?_)
    refine logs_bind (logs_ops (logs_owning (logs_queueAllAndStart takes))) (fun result => ?_)
    exact logs_modify _ (fun _ => rfl)
  · refine logs_bind (logs_context (logs_ops (logs_owning (logs_release takes)))) (fun _ => ?_)
    refine logs_bind (logs_ops (logs_bringUpCapture takes false)) (fun capture => ?_)
    exact logs_modify _ (fun _ => rfl)

theorem logs_queueInput (data : List UInt8) (timestampUs : UInt64) :
    Logs Decoder.log kept (queueInput driver data timestampUs) := by
  refine logs_bind logs_get (fun s => ?_)
  cases s.output.freeSlot with
  | none => exact logs_fail _
  | some slot =>
      dsimp only
      cases s.output.buffers[slot]? with
      | none => exact logs_panic
      | some buffer =>
          refine logs_ite (logs_fail _) (logs_bind (logs_ops (logs_store takes _ _)) (fun _ => ?_))
          exact logs_context (logs_onOutput (logs_queue takes slot _ timestampUs))

theorem logs_nextDeadline (progressed : Bool) (deadline : Nat) :
    Logs Decoder.log kept (nextDeadline driver progressed deadline) := by
  refine logs_ite ?_ ?_
  · exact logs_bind (logs_ops (logs_now takes)) (fun _ => logs_pure _)
  · exact logs_bind (logs_ops (logs_now takes)) (fun _ => logs_ite (logs_fail _) (logs_pure _))

theorem logs_checkStall : Logs Decoder.log kept (checkStall driver) := by
  refine logs_bind (logs_ops (logs_now takes)) (fun now => logs_bind logs_get (fun s => ?_))
  exact logs_ite (logs_fail _) (logs_pure _)

omit takes in
theorem logs_popReady : Logs Decoder.log kept popReady :=
  logs_bind logs_get (fun _ => logs_bind (logs_modify _ (fun _ => rfl)) (fun _ => logs_pure _))

end Decoder

end Castr.V4l2
