import Castr.V4l2.Decoder

/-! What the steps of the decoder keep, its calls keep.

`Steps` says of each step which the loops are made of that a property outlives it. The rules
here follow the loops, once for every property. -/

namespace Castr.V4l2

open Castr.Lib.Calls

theorem bail_ne (text : String) (other : text.toList.head? ≠ some 'n') :
    (Halt.fault (.bail text)) ≠ .fault noFreeOutputBuffer := by
  intro same
  cases same
  exact other rfl

theorem toString_text (text : String) : toString text = text := rfl

theorem checkAccessUnit_ne (data : List UInt8) (fault : Fault)
    (failed : checkAccessUnit data = .error fault) :
    (Halt.fault fault) ≠ .fault noFreeOutputBuffer := by
  unfold checkAccessUnit at failed
  split at failed
  · cases failed
    exact bail_ne _ (by simp)
  split at failed
  · cases failed
  · cases failed
    exact bail_ne _ (by simp)

theorem meets_owning {ε α : Type} {queue : Queue} {call : Call ε Wired α} {before : Log → Prop}
    {done : Queue × α → Log → Prop} {failed : Halt ε → Log → Prop}
    (each : ∀ log, before log → Meets (fun w => w = ⟨queue, log⟩) call
      (fun value w => done (w.queue, value) w.log) (fun halt w => failed halt w.log)) :
    Meets before (owning queue call) done failed := by
  intro log holds
  have early := each log holds ⟨queue, log⟩ rfl
  unfold owning
  cases ran : call ⟨queue, log⟩ with
  | ok value w =>
      rw [ran] at early
      exact early
  | error halt w =>
      rw [ran] at early
      exact early

def Stays {α : Type} (kept : Decoder → Prop) (ends : Halt Fault → Prop)
    (call : Call Fault Decoder α) : Prop :=
  Meets kept call (fun _ => kept) (fun halt s => ends halt ∧ kept s)

def Decoder.push (s : Decoder) (frame : Option RawFrame) : Decoder :=
  { s with ready := s.ready ++ frame.toList }

def Decoder.popped (s : Decoder) : Decoder := { s with ready := s.ready.tail }

structure Steps (driver : Driver) (kept : Decoder → Prop) (ends : Halt Fault → Prop) : Prop where
  other : ∀ halt, halt ≠ .fault noFreeOutputBuffer → ends halt
  sawLast : ∀ s sawLast, kept s → kept { s with sawLast := sawLast }
  finished : ∀ s, kept s → kept { s with finished := true }
  unanswered : ∀ s unanswered, kept s → kept { s with unanswered := unanswered }
  now : Stays kept ends (Decoder.ops driver.now)
  poll : ∀ timeoutMs, Stays kept ends (context "poll" (Decoder.ops (driver.poll timeoutMs)))
  event : Stays kept ends (context "DQEVENT" (Decoder.ops driver.dqevent))
  freed : Stays kept ends
    (context "DQBUF output" (Decoder.onOutput (Queue.dequeue driver)))
  took : Meets kept (Decoder.takeCapture driver)
    (fun taken s => kept (s.push (taken.getD none))) (fun halt s => ends halt ∧ kept s)
  restarted : ∀ s old, kept s → s.capture = some old →
    Meets (fun t => t = { s with capture := none }) (Decoder.restartCapture driver old)
      (fun _ => kept) (fun halt s => ends halt ∧ kept s)
  queued : ∀ data timestampUs, Meets (fun s => kept s ∧ s.output.inFlight < maxInFlight)
    (Decoder.queueInput driver data timestampUs) (fun _ => kept)
    (fun halt s => ends halt ∧ kept s)

namespace Steps

open Decoder

variable {driver : Driver} {kept : Decoder → Prop} {ends : Halt Fault → Prop}

theorem stays_at {α : Type} {call : Call Fault Decoder α} (stays : Stays kept ends call)
    (s : Decoder) (holds : kept s) :
    Meets (fun t => t = s) call (fun _ => kept) (fun halt t => ends halt ∧ kept t) :=
  meets_mono stays (by rintro _ rfl; exact holds) (fun _ _ after => after) (fun _ _ after => after)

variable (steps : Steps driver kept ends)

include steps

theorem bail {α : Type} (text : String) (other : text.toList.head? ≠ some 'n') :
    Stays kept ends (fail (.bail text) : Call Fault Decoder α) :=
  meets_fail _ (fun _ holds => ⟨steps.other _ (bail_ne text other), holds⟩)

theorem pollFailed {α : Type} : Stays kept ends (fail pollError : Call Fault Decoder α) :=
  steps.bail _ (by simp)

theorem unfinished {α : Type} : Stays kept ends (throw .unfinished : Call Fault Decoder α) :=
  meets_throw _ (fun _ holds => ⟨steps.other _ nofun, holds⟩)

theorem collectFrom (limit : Nat) (any : Bool) :
    Stays kept ends (collectFrom driver limit any) := by
  induction limit generalizing any with
  | zero => exact meets_pure _ (fun _ holds => holds)
  | succ limit ih =>
      refine meets_bind _ steps.took (fun taken => ?_)
      cases taken with
      | none =>
          apply meets_pure
          intro s holds
          simpa [Decoder.push] using holds
      | some picture =>
          refine meets_modify_bind kept (fun s holds => holds) ?_
          apply meets_get_bind
          intro s holds
          apply meets_ite
          · exact fun _ => meets_pure _ (by rintro _ rfl; exact holds)
          · exact fun _ => stays_at (ih true) s holds

theorem collectCapture (limit : Nat) : Stays kept ends (collectCapture driver limit) := by
  apply meets_get_bind
  intro s holds
  apply meets_ite
  · exact fun _ => meets_pure _ (by rintro _ rfl; exact holds)
  · exact fun _ => stays_at (steps.collectFrom limit false) s holds

theorem drainOutputFrom (fuel : Nat) (any : Bool) :
    Stays kept ends (drainOutputFrom driver fuel any) := by
  induction fuel generalizing any with
  | zero => exact steps.unfinished
  | succ fuel ih =>
      refine meets_bind (fun _ => kept) steps.freed (fun reply => ?_)
      cases reply with
      | buffer dequeued => exact ih true
      | idle => exact meets_pure _ (fun _ holds => holds)
      | endOfSequence => exact meets_pure _ (fun _ holds => holds)

theorem drainRounds (fuel left : Nat) : Stays kept ends (drainRounds driver fuel left) := by
  induction left with
  | zero =>
      exact meets_bind (fun _ => kept) (steps.collectCapture _)
        (fun _ => meets_pure _ (fun _ holds => holds))
  | succ left ih =>
      refine meets_bind (fun _ => kept) (steps.collectCapture _) (fun _ => ?_)
      apply meets_get_bind
      intro s holds
      apply meets_ite
      · exact fun _ => meets_pure _ (by rintro _ rfl; exact holds)
      · intro _
        refine meets_bind (fun _ => kept) (stays_at (steps.drainOutputFrom fuel false) s holds)
          (fun _ => ?_)
        refine meets_bind (fun _ => kept) (steps.poll _) (fun polled => ?_)
        apply meets_ite
        · exact fun _ => steps.pollFailed
        · exact fun _ => ih

theorem drainToLast (fuel : Nat) : Stays kept ends (drainToLast driver fuel) :=
  meets_modify_bind kept (fun s holds => steps.sawLast s false holds) (steps.drainRounds fuel _)

theorem reconfigureCapture (fuel : Nat) : Stays kept ends (reconfigureCapture driver fuel) := by
  apply meets_get_bind
  intro before holds
  refine meets_bind (fun _ => kept) ?_ (fun _ => ?_)
  · apply meets_ite
    · exact fun _ => meets_pure _ (by rintro _ rfl; exact holds)
    · exact fun _ => stays_at (steps.drainToLast fuel) before holds
  · apply meets_get_bind
    intro s holds
    cases up : s.capture with
    | none => exact stays_at (steps.bail _ (by simp)) s holds
    | some old =>
        refine meets_modify_bind (fun t => t = { s with capture := none }) ?_
          (steps.restarted s old holds up)
        rintro _ rfl
        rfl

theorem handle (fuel : Nat) (event : Event) : Stays kept ends (handle driver fuel event) := by
  apply meets_ite
  · intro change
    apply meets_ite
    · exact fun _ => steps.reconfigureCapture fuel
    · exact fun _ => meets_pure _ (fun _ holds => holds)
  · intro other
    apply meets_ite
    · exact fun _ => meets_modify _ steps.finished
    · exact fun _ => meets_pure _ (fun _ holds => holds)

theorem drainEventsFrom (fuel left : Nat) (any : Bool) :
    Stays kept ends (drainEventsFrom driver fuel left any) := by
  induction left generalizing any with
  | zero => exact steps.unfinished
  | succ left ih =>
      refine meets_bind (fun _ => kept) steps.event (fun event => ?_)
      cases event with
      | none => exact meets_pure _ (fun _ holds => holds)
      | some event => exact meets_bind (fun _ => kept) (steps.handle fuel event) (fun _ => ih true)

theorem collectOne (fuel : Nat) : Stays kept ends (collectOne driver fuel) := by
  refine meets_bind (fun _ => kept) (steps.collectCapture 1) (fun collected => ?_)
  apply meets_ite
  · exact fun _ => meets_bind (fun _ => kept) (steps.drainOutputFrom fuel false)
      (fun _ => meets_pure _ (fun _ holds => holds))
  · exact fun _ => meets_pure _ (fun _ holds => holds)

theorem nextDeadline (progressed : Bool) (deadline : Nat) :
    Stays kept ends (nextDeadline driver progressed deadline) := by
  apply meets_ite
  · exact fun _ => meets_bind (fun _ => kept) steps.now
      (fun _ => meets_pure _ (fun _ holds => holds))
  · intro _
    refine meets_bind (fun _ => kept) steps.now (fun now => ?_)
    apply meets_ite
    · exact fun _ => steps.bail _ (by simp [toString_text])
    · exact fun _ => meets_pure _ (fun _ holds => holds)

theorem waitFrom (fuel absolute left deadline budget : Nat) :
    Meets kept (waitFrom driver fuel absolute left deadline budget)
      (fun _ s => kept s ∧ s.output.inFlight < maxInFlight)
      (fun halt s => ends halt ∧ kept s) := by
  induction left generalizing deadline budget with
  | zero => exact meets_throw _ (fun _ holds => ⟨steps.other _ nofun, holds⟩)
  | succ left ih =>
      apply meets_get_bind
      intro before holds
      apply meets_ite
      · exact fun room => meets_pure _ (by rintro _ rfl; exact ⟨holds, room⟩)
      · intro _
        refine meets_bind (fun _ => kept) (stays_at (steps.poll _) before holds) (fun polled => ?_)
        apply meets_ite
        · exact fun _ => meets_fail _
            (fun _ holds => ⟨steps.other _ (bail_ne _ (by simp)), holds⟩)
        · intro _
          refine meets_bind (fun _ => kept) (steps.drainEventsFrom fuel fuel false)
            (fun handled => ?_)
          refine meets_bind (fun _ => kept) (steps.drainOutputFrom fuel false) (fun drained => ?_)
          apply meets_get_bind
          intro after holds
          apply meets_ite
          · exact fun room => meets_pure _ (by rintro _ rfl; exact ⟨holds, room⟩)
          · intro _
            refine meets_bind (fun _ => kept) (stays_at (steps.collectOne fuel) after holds)
              (fun collected => ?_)
            refine meets_bind (fun _ => kept) (steps.nextDeadline _ _) (fun deadline => ?_)
            refine meets_bind (fun _ => kept) steps.now (fun now => ?_)
            apply meets_ite
            · exact fun _ => meets_fail _ (fun _ holds =>
                ⟨steps.other _ (bail_ne _ (by simp [toString_text])), holds⟩)
            · exact fun _ => ih _ _

theorem checkStall : Stays kept ends (checkStall driver) := by
  refine meets_bind (fun _ => kept) steps.now (fun now => ?_)
  apply meets_get_bind
  intro s holds
  apply meets_ite
  · exact fun _ => stays_at (steps.bail _ (by simp [toString_text])) s holds
  · exact fun _ => meets_pure _ (by rintro _ rfl; exact holds)

omit steps in
theorem popReady : Meets kept popReady
    (fun frame s => ∃ t, kept t ∧ frame = t.ready.head? ∧ s = t.popped)
    (fun halt s => ends halt ∧ kept s) := by
  apply meets_get_bind
  intro s holds
  refine meets_modify_bind (fun t => t = s.popped) ?_ (meets_pure _ ?_)
  · rintro _ rfl
    rfl
  · rintro _ rfl
    exact ⟨s, holds, rfl, rfl⟩

theorem decode (fuel : Nat) (data : List UInt8) (timestampUs : UInt64) :
    Meets kept (decode driver fuel data timestampUs)
      (fun frame s => ∃ t, kept t ∧ frame = t.ready.head? ∧ s = t.popped)
      (fun halt s => ends halt ∧ kept s) := by
  refine meets_bind (fun _ => kept) (meets_lift _ (fun _ _ _ holds => holds)
    (fun fault _ failed holds => ⟨steps.other _ (checkAccessUnit_ne data fault failed), holds⟩))
    (fun _ => ?_)
  apply meets_ite
  · exact fun _ => meets_fail _ (fun _ holds =>
      ⟨steps.other _ (bail_ne _ (by simp [toString_text])), holds⟩)
  · intro _
    apply meets_get_bind
    intro before holds
    apply meets_ite
    · intro _
      apply meets_fail
      rintro _ rfl
      exact ⟨steps.other _ (bail_ne _ (by simp)), holds⟩
    · intro _
      refine meets_bind (fun _ s => kept s ∧ s.output.inFlight < maxInFlight) ?_ (fun budget => ?_)
      · exact meets_bind (fun _ => kept) (stays_at steps.now before holds)
          (fun entered => steps.waitFrom fuel _ fuel _ 1)
      refine meets_bind (fun _ => kept) (steps.queued data timestampUs) (fun _ => ?_)
      refine meets_modify_bind kept (fun s holds => steps.unanswered s _ holds) ?_
      refine meets_bind (fun _ => kept) (steps.drainEventsFrom fuel fuel false) (fun _ => ?_)
      refine meets_bind (fun _ => kept) ?_ (fun _ => ?_)
      · apply meets_ite
        · exact fun _ => steps.collectCapture budget
        · exact fun _ => meets_pure _ (fun _ holds => holds)
      · exact meets_bind (fun _ => kept) steps.checkStall (fun _ => popReady)

theorem pollFrame (fuel : Nat) :
    Meets kept (pollFrame driver fuel)
      (fun frame s => ∃ t, kept t ∧ frame = t.ready.head? ∧ s = t.popped)
      (fun halt s => ends halt ∧ kept s) := by
  apply meets_get_bind
  intro before holds
  apply meets_ite
  · intro _
    exact meets_mono popReady (by rintro _ rfl; exact holds) (fun _ _ after => after)
      (fun _ _ after => after)
  · intro _
    refine meets_bind (fun _ => kept) (stays_at (steps.poll _) before holds) (fun polled => ?_)
    apply meets_ite
    · exact fun _ => meets_fail _ (fun _ holds => ⟨steps.other _ (bail_ne _ (by simp)), holds⟩)
    · intro _
      refine meets_bind (fun _ => kept) (steps.drainEventsFrom fuel fuel false) (fun _ => ?_)
      refine meets_bind (fun _ => kept) (steps.drainOutputFrom fuel false) (fun _ => ?_)
      exact meets_bind (fun _ => kept) (steps.collectCapture 1) (fun _ => popReady)

theorem ask (fuel : Nat) (ask : Ask) :
    Meets kept (Decoder.ask driver fuel ask)
      (fun frame s => ∃ t, kept t ∧ frame = t.ready.head? ∧ s = t.popped)
      (fun halt s => ends halt ∧ kept s) := by
  cases ask with
  | decode data timestampUs => exact steps.decode fuel data timestampUs
  | pollFrame => exact steps.pollFrame fuel

end Steps

end Castr.V4l2
