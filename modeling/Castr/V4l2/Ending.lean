import Castr.V4l2.Flags
import Castr.V4l2.Later
import Castr.Lib.Fueled

/-! Calls of the decoder come to an end, unless the driver has one event after another. -/

namespace Castr.V4l2

open Castr.Lib.Calls
open Filter

/-- The clock never goes back, and a poll takes time. -/
structure Driver.Ticks (driver : Driver) : Prop where
  onward : ∀ log entry, driver.Gives log entry → driver.clock log ≤ driver.clock (entry :: log)
  polled : ∀ log timeoutMs, driver.clock log <
    driver.clock (.asked (.poll timeoutMs) (driver.answer log (.poll timeoutMs)) :: log)

def heard (event : Event) (log : Log) : Log := .asked .dqevent (.ok (some event)) :: log

def Driver.Handled (driver : Driver) (event : Event) (log later : Log) : Prop :=
  if event.kind = eventSourceChange ∧ event.changes &&& eventSrcChResolution ≠ 0 then
    Later driver false log later
  else later = log

def Driver.Another (driver : Driver) (next log : Log) : Prop :=
  ∃ event before later more, log = heard event before ∧ driver.Handled event log later ∧
    driver.answer later .dqevent = .ok (some more) ∧ next = heard more later

/-- From here on the driver never has one event after another without end. -/
def Driver.Pauses (driver : Driver) (log : Log) : Prop :=
  ∀ later event, Later driver true log later →
    driver.answer later .dqevent = .ok (some event) → Acc driver.Another (heard event later)

theorem later_front {driver : Driver} {events : Bool} {entry : Entry} {log later : Log}
    (given : driver.Gives log entry) (may : entry.asksEvent = true → events = true)
    (after : Later driver events (entry :: log) later) : Later driver events log later :=
  (takes_later driver events log).later after (.cons .refl given may)

theorem takes_pauses (driver : Driver) : Takes driver true driver.Pauses :=
  fun _ _ given may pauses later event after => pauses later event (later_front given may after)

theorem takes_clock {driver : Driver} (ticks : driver.Ticks) (start : Nat) :
    Takes driver true (fun log => start ≤ driver.clock log) :=
  fun entry log given _ early => Nat.le_trans early (ticks.onward log entry given)

def Lasting (kept : Log → Prop) (s : Decoder) : Prop := Sound s ∧ kept s.log

theorem lasts {α : Type} {kept : Log → Prop} {call : Call Fault Decoder α}
    (sound : Stays Sound NotFull call) (logs : Logs Decoder.log kept call) :
    Meets (Lasting kept) call (fun _ => Lasting kept) (fun halt _ => halt ≠ .unfinished) :=
  meets_mono (meets_and sound logs) (fun _ holds => holds) (fun _ _ after => after)
    (fun _ _ early => early.2.1)

namespace Decoder

variable {driver : Driver} {kept : Log → Prop}

section Drains

variable (honest : driver.Honest) (takes : Takes driver false kept)

include honest takes

theorem ends_freed (n : Nat) :
    Ends (fun s => Lasting kept s ∧ s.output.inFlight = n)
      (fun _ => context "DQBUF output" (onOutput (Queue.dequeue driver)))
      (fun reply s => Lasting kept s ∧ match reply with
        | .buffer _ => s.output.inFlight + 1 = n
        | _ => True) := by
  apply ends_each
  rintro s ⟨⟨sound, holds⟩, rfl⟩
  apply ends_of_meets
  refine meets_mono (meets_and (meets_context (sound_dequeueOutput driver honest s sound))
    (logs_freed takes)) ?_ ?_ (fun _ _ early => early.2.1)
  · rintro _ rfl
    exact ⟨rfl, holds⟩
  · rintro reply t ⟨⟨later, what⟩, after⟩
    refine ⟨⟨later, after⟩, ?_⟩
    cases reply with
    | buffer dequeued => exact what
    | _ => trivial

theorem ends_drainOutputFrom {rounds : Nat → Nat} (grow : Tendsto rounds atTop atTop) (any : Bool)
    (n : Nat) : Ends (fun s => Lasting kept s ∧ s.output.inFlight = n)
      (fun fuel => drainOutputFrom driver (rounds fuel) any) (fun _ => Lasting kept) := by
  induction n generalizing rounds any with
  | zero =>
      refine ends_round (fun _ left => drainOutputFrom driver left any) grow ?_
      refine ends_bind _ (ends_freed honest takes 0) (fun reply => ?_)
      cases reply with
      | buffer dequeued =>
          rintro s ⟨-, fewer⟩
          exact nomatch fewer
      | idle => exact ends_pure _ (fun _ after => after.1)
      | endOfSequence => exact ends_pure _ (fun _ after => after.1)
  | succ n ih =>
      refine ends_round (fun _ left => drainOutputFrom driver left any) grow ?_
      refine ends_bind _ (ends_freed honest takes (n + 1)) (fun reply => ?_)
      cases reply with
      | buffer dequeued =>
          exact ends_mono (ih (tendsto_pred grow) true)
            (fun _ after => ⟨after.1, Nat.succ.inj after.2⟩) (fun _ _ after => after)
      | idle => exact ends_pure _ (fun _ after => after.1)
      | endOfSequence => exact ends_pure _ (fun _ after => after.1)

theorem ends_drainOutput :
    Ends (Lasting kept) (fun fuel => drainOutput driver fuel) (fun _ => Lasting kept) := by
  apply ends_each
  intro s lasting
  exact ends_mono (ends_drainOutputFrom honest takes tendsto_id false s.output.inFlight)
    (by rintro _ rfl; exact ⟨lasting, rfl⟩) (fun _ _ after => after)

theorem ends_collectCapture (limit : Nat) :
    Ends (Lasting kept) (fun _ => collectCapture driver limit) (fun _ => Lasting kept) :=
  ends_of_meets (lasts ((sound_steps driver honest).collectCapture limit)
    (logs_collectCapture takes limit))

theorem ends_poll (timeoutMs : Int) :
    Ends (Lasting kept) (fun _ => context "poll" (ops (driver.poll timeoutMs)))
      (fun _ => Lasting kept) :=
  ends_of_meets (lasts ((sound_steps driver honest).poll timeoutMs) (logs_poll takes timeoutMs))

theorem ends_drainRounds (left : Nat) :
    Ends (Lasting kept) (fun fuel => drainRounds driver fuel left) (fun _ => Lasting kept) := by
  induction left with
  | zero =>
      exact ends_bind _ (ends_collectCapture honest takes usizeMax)
        (fun _ => ends_pure _ (fun _ after => after))
  | succ left ih =>
      refine ends_bind _ (ends_collectCapture honest takes usizeMax) (fun _ => ?_)
      apply ends_get_bind
      intro s lasting
      apply ends_ite
      · exact fun _ => ends_pure _ (by rintro _ rfl; exact lasting)
      · intro _
        refine ends_bind (fun _ => Lasting kept) ?_ (fun _ => ?_)
        · exact ends_mono (ends_drainOutput honest takes) (by rintro _ rfl; exact lasting)
            (fun _ _ after => after)
        refine ends_bind _ (ends_poll honest takes _) (fun polled => ?_)
        exact ends_ite (fun _ => ends_fail _) (fun _ => ih)

theorem ends_drainToLast :
    Ends (Lasting kept) (fun fuel => drainToLast driver fuel) (fun _ => Lasting kept) :=
  ends_modify_bind (Lasting kept) (fun s lasting => ⟨sound_sawLast s lasting.1 false, lasting.2⟩)
    (ends_drainRounds honest takes drainPasses)

theorem ends_reconfigureCapture :
    Ends (Lasting kept) (fun fuel => reconfigureCapture driver fuel) (fun _ => Lasting kept) := by
  apply ends_get_bind
  intro before lasting
  refine ends_bind (fun _ => Lasting kept) ?_ (fun _ => ?_)
  · apply ends_ite
    · exact fun _ => ends_pure _ (by rintro _ rfl; exact lasting)
    · exact fun _ => ends_mono (ends_drainToLast honest takes) (by rintro _ rfl; exact lasting)
        (fun _ _ after => after)
  · apply ends_get_bind
    intro s lasting
    cases up : s.capture with
    | none => exact ends_fail _
    | some old =>
        refine ends_modify_bind (fun t => t = { s with capture := none })
          (by rintro _ rfl; rfl) (ends_of_meets ?_)
        refine meets_mono (meets_and ((sound_steps driver honest).restarted s old lasting.1 up)
          (logs_restartCapture takes old)) ?_ (fun _ _ after => after) (fun _ _ early => early.2.1)
        rintro _ rfl
        exact ⟨rfl, lasting.2⟩

end Drains

section Events

variable (honest : driver.Honest)

include honest

theorem ends_handle (takes : Takes driver false kept) (event : Event) (log : Log) :
    Ends (fun s => Lasting kept s ∧ s.log = log) (fun fuel => handle driver fuel event)
      (fun _ s => Lasting kept s ∧ driver.Handled event log s.log) := by
  unfold Driver.Handled
  by_cases change : event.kind = eventSourceChange ∧ event.changes &&& eventSrcChResolution ≠ 0
  · have both := takes.and (takes_later driver false log)
    simp only [handle, if_pos change, if_pos change.1, if_pos change.2]
    refine ends_mono (ends_reconfigureCapture honest both) ?_ ?_
    · rintro s ⟨⟨sound, holds⟩, rfl⟩
      exact ⟨sound, holds, .refl⟩
    · exact fun _ s after => ⟨⟨after.1, after.2.1⟩, after.2.2⟩
  · simp only [if_neg change]
    have finish : Ends (fun s => Lasting kept s ∧ s.log = log)
        (fun _ => (if event.kind = eventEos then
          modify (fun decoder => { decoder with finished := true })
          else pure () : Call Fault Decoder Unit))
        (fun _ s => Lasting kept s ∧ s.log = log) := by
      apply ends_ite
      · intro _
        refine ends_of_meets (meets_modify _ (fun s holds => ?_))
        exact ⟨⟨(sound_steps driver honest).finished s holds.1.1, holds.1.2⟩, holds.2⟩
      · exact fun _ => ends_pure _ (fun _ holds => holds)
    by_cases source : event.kind = eventSourceChange
    · simp only [handle, if_pos source, if_neg (fun bits => change ⟨source, bits⟩)]
      exact ends_pure _ (fun _ holds => holds)
    · simpa only [handle, if_neg source] using finish

theorem ends_ask (takes : Takes driver true kept) {rounds : Nat → Nat}
    (grow : Tendsto rounds atTop atTop) (any : Bool) (s : Decoder) (lasting : Lasting kept s)
    (handled : ∀ event, driver.answer s.log .dqevent = .ok (some event) →
      Ends (fun t => Lasting kept t ∧ t.log = heard event s.log)
        (fun fuel => handle driver fuel event >>= fun _ =>
          drainEventsFrom driver fuel (rounds fuel - 1) true) (fun _ => Lasting kept)) :
    Ends (fun t => t = s) (fun fuel => drainEventsFrom driver fuel (rounds fuel) any)
      (fun _ => Lasting kept) := by
  refine ends_round (fun fuel left => drainEventsFrom driver fuel left any) grow ?_
  have asked : Meets (fun t => t = s) (ops driver.dqevent)
      (fun reply t => driver.answer s.log .dqevent = .ok reply ∧
        t = { s with log := .asked .dqevent (.ok reply) :: s.log })
      (fun halt _ => halt.returned = true ∧ True) := by
    apply meets_on_at
    apply meets_call
    · rintro _ rfl reply answer
      exact ⟨answer, rfl⟩
    · exact fun _ _ _ _ => ⟨rfl, trivial⟩
  have stays := lasts (sound_steps driver honest).event
    (logs_context (logs_ops (logs_call takes .dqevent (fun _ => rfl))))
  refine ends_bind (fun reply t => Lasting kept t ∧ driver.answer s.log .dqevent = .ok reply ∧
    t = { s with log := .asked .dqevent (.ok reply) :: s.log }) ?_ (fun reply => ?_)
  · refine ends_of_meets (meets_mono (meets_and stays (meets_context asked))
      (by rintro _ rfl; exact ⟨lasting, rfl⟩)
      (fun _ _ after => after) (fun _ _ early => early.1))
  · cases reply with
    | none => exact ends_pure _ (fun _ after => after.1)
    | some event =>
        apply ends_each
        rintro t ⟨lasting, answer, rfl⟩
        exact ends_mono (handled event answer) (by rintro _ rfl; exact ⟨lasting, rfl⟩)
          (fun _ _ after => after)

theorem ends_handled (takes : Takes driver true kept) {log : Log} (acc : Acc driver.Another log)
    (event : Event) (before : Log) (here : log = heard event before) {rounds : Nat → Nat}
    (grow : Tendsto rounds atTop atTop) :
    Ends (fun s => Lasting kept s ∧ s.log = log)
      (fun fuel => handle driver fuel event >>= fun _ =>
        drainEventsFrom driver fuel (rounds fuel) true) (fun _ => Lasting kept) := by
  induction acc generalizing event before rounds with
  | intro log accessible ih =>
      refine ends_bind _ (ends_handle honest takes.quiet event log) (fun _ => ?_)
      apply ends_each
      rintro s ⟨lasting, handled⟩
      apply ends_ask honest takes grow true s lasting
      intro more answer
      exact ih _ ⟨event, before, s.log, more, here, handled, answer, rfl⟩ more s.log rfl
        (tendsto_pred grow)

theorem ends_drainEvents (takes : Takes driver true kept)
    (pauses : ∀ log, kept log → driver.Pauses log) :
    Ends (Lasting kept) (fun fuel => drainEvents driver fuel) (fun _ => Lasting kept) := by
  apply ends_each
  intro s lasting
  apply ends_ask honest takes tendsto_id false s lasting
  intro event answer
  exact ends_handled honest takes (pauses s.log lasting.2 s.log event .refl answer) event s.log rfl
    (tendsto_pred tendsto_id)

end Events

section Waits

variable (honest : driver.Honest) (ticks : driver.Ticks)

def Reaches (driver : Driver) (start : Nat) (log : Log) : Prop :=
  driver.Pauses log ∧ start ≤ driver.clock log

include ticks in
theorem takes_reaches (start : Nat) : Takes driver true (Reaches driver start) :=
  (takes_pauses driver).and (takes_clock ticks start)

include honest ticks

theorem ends_tick (start : Nat) (timeoutMs : Int) :
    Ends (Lasting (Reaches driver start)) (fun _ => context "poll" (ops (driver.poll timeoutMs)))
      (fun _ => Lasting (Reaches driver (start + 1))) := by
  have polled : Meets (fun s => start ≤ driver.clock s.log) (ops (driver.poll timeoutMs))
      (fun _ s => start + 1 ≤ driver.clock s.log) (fun halt _ => halt.returned = true ∧ True) := by
    apply meets_on
    intro s early
    apply meets_call
    · rintro _ rfl reply answer
      have ticked := ticks.polled s.log timeoutMs
      rw [answer] at ticked
      exact Nat.lt_of_le_of_lt early ticked
    · exact fun _ _ _ _ => ⟨rfl, trivial⟩
  have stays := lasts ((sound_steps driver honest).poll timeoutMs)
    (logs_poll (takes_reaches ticks start) timeoutMs)
  refine ends_of_meets (meets_mono (meets_and stays (meets_context polled)) ?_ ?_ ?_)
  · exact fun s lasting => ⟨lasting, lasting.2.2⟩
  · exact fun _ s after => ⟨after.1.1, after.1.2.1, after.2⟩
  · exact fun _ _ early => early.1

theorem ends_now (start : Nat) :
    Ends (Lasting (Reaches driver start)) (fun _ => (ops driver.now : Call Fault Decoder Nat))
      (fun now s => Lasting (Reaches driver start) s ∧ start ≤ now) := by
  have told : Meets (fun s => start ≤ driver.clock s.log)
      (ops driver.now : Call Fault Decoder Nat) (fun now _ => start ≤ now)
      (fun _ _ => True) := by
    apply meets_on
    intro s early
    apply meets_now
    rintro _ rfl
    exact early
  have stays := lasts (sound_steps driver honest).now
    (logs_ops (logs_now (takes_reaches ticks start)))
  refine ends_of_meets (meets_mono (meets_and stays told) ?_ (fun _ _ after => after) ?_)
  · exact fun s lasting => ⟨lasting, lasting.2.2⟩
  · exact fun _ _ early => early.1

omit ticks in
theorem ends_collectOne (takes : Takes driver false kept) :
    Ends (Lasting kept) (fun fuel => collectOne driver fuel) (fun _ => Lasting kept) := by
  refine ends_bind _ (ends_collectCapture honest takes 1) (fun collected => ?_)
  apply ends_ite
  · exact fun _ => ends_bind _ (ends_drainOutput honest takes)
      (fun _ => ends_pure _ (fun _ after => after))
  · exact fun _ => ends_pure _ (fun _ after => after)

/-- A round of waiting takes time; the last one is past the absolute deadline. -/
theorem ends_waitRound (absolute start deadline budget : Nat) {rounds : Nat → Nat}
    (grow : Tendsto rounds atTop atTop)
    (again : start < absolute → ∀ deadline budget, Ends (Lasting (Reaches driver (start + 1)))
      (fun fuel => waitFrom driver fuel absolute (rounds fuel - 1) deadline budget)
      (fun _ s => Lasting driver.Pauses s ∧ s.output.inFlight < maxInFlight)) :
    Ends (Lasting (Reaches driver start))
      (fun fuel => waitFrom driver fuel absolute (rounds fuel) deadline budget)
      (fun _ s => Lasting driver.Pauses s ∧ s.output.inFlight < maxInFlight) := by
  have takes := takes_reaches ticks (start + 1)
  refine ends_round (fun fuel left => waitFrom driver fuel absolute left deadline budget) grow ?_
  apply ends_get_bind
  intro before lasting
  apply ends_ite
  · intro room
    apply ends_pure
    rintro _ rfl
    exact ⟨⟨lasting.1, lasting.2.1⟩, room⟩
  · intro _
    refine ends_bind (fun _ => Lasting (Reaches driver (start + 1))) ?_ (fun polled => ?_)
    · exact ends_mono (ends_tick honest ticks start _) (by rintro _ rfl; exact lasting)
        (fun _ _ after => after)
    apply ends_ite
    · exact fun _ => ends_fail _
    · intro _
      refine ends_bind _ (ends_drainEvents honest takes (fun _ reaches => reaches.1))
        (fun handled => ?_)
      refine ends_bind _ (ends_drainOutput honest takes.quiet) (fun drained => ?_)
      apply ends_get_bind
      intro after lasting
      apply ends_ite
      · intro room
        apply ends_pure
        rintro _ rfl
        exact ⟨⟨lasting.1, lasting.2.1⟩, room⟩
      · intro _
        refine ends_bind (fun _ => Lasting (Reaches driver (start + 1))) ?_ (fun collected => ?_)
        · exact ends_mono (ends_collectOne honest takes.quiet) (by rintro _ rfl; exact lasting)
            (fun _ _ after => after)
        refine ends_bind (fun _ => Lasting (Reaches driver (start + 1))) ?_ (fun deadline => ?_)
        · exact ends_of_meets (lasts ((sound_steps driver honest).nextDeadline _ _)
            (logs_nextDeadline takes _ _))
        refine ends_bind _ (ends_now honest ticks (start + 1)) (fun now => ?_)
        apply ends_ite
        · exact fun _ => ends_fail _
        · intro early
          apply ends_each
          rintro s ⟨lasting, late⟩
          exact ends_mono (again (by omega) deadline _) (by rintro _ rfl; exact lasting)
            (fun _ _ after => after)

theorem ends_waitFrom (absolute start deadline budget left : Nat) {rounds : Nat → Nat}
    (grow : Tendsto rounds atTop atTop) (near : absolute ≤ start + left) :
    Ends (Lasting (Reaches driver start))
      (fun fuel => waitFrom driver fuel absolute (rounds fuel) deadline budget)
      (fun _ s => Lasting driver.Pauses s ∧ s.output.inFlight < maxInFlight) := by
  induction left generalizing start deadline budget rounds with
  | zero =>
      apply ends_waitRound honest ticks absolute start deadline budget grow
      exact fun before => absurd before (by omega)
  | succ left ih =>
      apply ends_waitRound honest ticks absolute start deadline budget grow
      exact fun _ deadline budget => ih (start + 1) deadline budget (tendsto_pred grow) (by omega)

theorem ends_waitForSlot (budget : Nat) :
    Ends (Lasting driver.Pauses) (fun fuel => waitForSlot driver fuel budget)
      (fun _ s => Lasting driver.Pauses s ∧ s.output.inFlight < maxInFlight) := by
  refine ends_bind (fun _ => Lasting driver.Pauses) ?_ (fun entered => ?_)
  · exact ends_of_meets (lasts (sound_steps driver honest).now
      (logs_ops (logs_now (takes_pauses driver))))
  · refine ends_mono (ends_waitFrom honest ticks _ 0 _ budget
      (entered + fromMillis (4 * stallPollMs)) tendsto_id (by omega)) ?_ (fun _ _ after => after)
    exact fun s lasting => ⟨lasting.1, lasting.2, Nat.zero_le _⟩

omit honest ticks in
theorem ends_popReady : Ends (fun _ => True) (fun _ => popReady) (fun _ _ => True) := by
  have logs : Logs Decoder.log (fun _ => True) popReady := logs_popReady
  exact ends_of_meets (meets_mono logs (fun _ _ => trivial) (fun _ _ _ => trivial)
    (fun _ _ early => early.1))

theorem ends_decode (data : List UInt8) (timestampUs : UInt64) :
    Ends (Lasting driver.Pauses) (fun fuel => decode driver fuel data timestampUs)
      (fun _ _ => True) := by
  have takes := takes_pauses driver
  have steps := sound_steps driver honest
  refine ends_bind (fun _ => Lasting driver.Pauses) (ends_of_meets ?_) (fun _ => ?_)
  · exact meets_lift _ (fun _ _ _ lasting => lasting) (fun _ _ _ _ => nofun)
  apply ends_ite
  · exact fun _ => ends_fail _
  · intro _
    apply ends_get_bind
    intro before lasting
    apply ends_ite
    · exact fun _ => ends_fail _
    · intro _
      refine ends_bind _ (ends_mono (ends_waitForSlot honest ticks 1)
        (by rintro _ rfl; exact lasting) (fun _ _ after => after)) (fun budget => ?_)
      refine ends_bind (fun _ => Lasting driver.Pauses) (ends_of_meets ?_) (fun _ => ?_)
      · refine meets_mono (meets_and (steps.queued data timestampUs)
          (logs_queueInput takes data timestampUs)) ?_ (fun _ _ after => after)
          (fun _ _ early => early.2.1)
        exact fun s holds => ⟨⟨holds.1.1, holds.2⟩, holds.1.2⟩
      refine ends_modify_bind (Lasting driver.Pauses)
        (fun s lasting => ⟨steps.unanswered s _ lasting.1, lasting.2⟩) ?_
      refine ends_bind _ (ends_drainEvents honest takes (fun _ pauses => pauses)) (fun _ => ?_)
      refine ends_bind (fun _ => Lasting driver.Pauses) ?_ (fun _ => ?_)
      · apply ends_ite
        · exact fun _ => ends_collectCapture honest takes.quiet budget
        · exact fun _ => ends_pure _ (fun _ after => after)
      refine ends_bind (fun _ => Lasting driver.Pauses) (ends_of_meets ?_) (fun _ => ?_)
      · exact lasts steps.checkStall (logs_checkStall takes)
      · exact ends_mono ends_popReady (fun _ _ => trivial) (fun _ _ after => after)

omit ticks in
theorem ends_pollFrame :
    Ends (Lasting driver.Pauses) (fun fuel => pollFrame driver fuel) (fun _ _ => True) := by
  have takes := takes_pauses driver
  apply ends_get_bind
  intro before lasting
  apply ends_ite
  · exact fun _ => ends_mono ends_popReady (fun _ _ => trivial) (fun _ _ after => after)
  · intro _
    refine ends_bind (fun _ => Lasting driver.Pauses) ?_ (fun polled => ?_)
    · exact ends_mono (ends_poll honest takes.quiet 0) (by rintro _ rfl; exact lasting)
        (fun _ _ after => after)
    apply ends_ite
    · exact fun _ => ends_fail _
    · intro _
      refine ends_bind _ (ends_drainEvents honest takes (fun _ pauses => pauses)) (fun _ => ?_)
      refine ends_bind _ (ends_drainOutput honest takes.quiet) (fun _ => ?_)
      refine ends_bind _ (ends_collectCapture honest takes.quiet 1) (fun _ => ?_)
      exact ends_mono ends_popReady (fun _ _ => trivial) (fun _ _ after => after)

end Waits

/-- The call comes to an end: some amount of fuel is enough, and so is any larger one. -/
def Terminates (driver : Driver) (ask : Ask) (s : Decoder) : Prop :=
  ∃ enough, ∀ fuel, enough ≤ fuel → ∀ next, Decoder.ask driver fuel ask s ≠ .error .unfinished next

section Endless

theorem never_drainEventsFrom
    (always : ∀ log, driver.answer log .dqevent = .ok (some ⟨eventEos, 0⟩)) (fuel left : Nat)
    (any : Bool) : Meets (fun _ => True) (drainEventsFrom driver fuel left any)
      (fun _ _ => False) (fun halt _ => halt = .unfinished) := by
  induction left generalizing any with
  | zero => exact meets_throw _ (fun _ _ => rfl)
  | succ left ih =>
      have asked : Meets (fun _ => True) (ops driver.dqevent)
          (fun reply _ => reply = some ⟨eventEos, 0⟩) (fun _ (_ : Decoder) => False) := by
        apply meets_on
        intro s _
        apply meets_call
        · intro log _ reply answer
          exact (Except.ok.inj ((always log).symm.trans answer)).symm
        · intro log _ error answer
          exact nomatch (always log).symm.trans answer
      refine meets_bind (fun reply _ => reply = some ⟨eventEos, 0⟩)
        (meets_mapError asked (fun _ _ => False.elim) (fun _ => False.elim) (fun _ => False.elim))
        (fun reply => ?_)
      apply meets_each
      rintro s rfl
      refine meets_bind (fun _ _ => True) ?_ (fun _ => ih true)
      exact meets_modify _ (fun _ _ => trivial)

theorem never_pollFrame
    (always : ∀ log, driver.answer log .dqevent = .ok (some ⟨eventEos, 0⟩))
    (polls : ∀ log, driver.answer log (.poll 0) = .ok ⟨true, true, true, false⟩) (s : Decoder)
    (none : s.ready = []) : ¬ Terminates driver .pollFrame s := by
  rintro ⟨enough, ends⟩
  have never : Meets (fun t => t = s) (pollFrame driver enough) (fun _ _ => False)
      (fun halt _ => halt = .unfinished) := by
    apply meets_get_at
    apply meets_ite
    · exact fun ready => absurd none ready
    · intro _
      have polled : Meets (fun t => t = s) (ops (driver.poll 0))
          (fun reply _ => reply.error = false) (fun _ _ => False) := by
        apply meets_on
        intro _ _
        apply meets_call
        · intro log _ reply answer
          exact Except.ok.inj ((polls log).symm.trans answer) ▸ rfl
        · intro log _ error answer
          exact nomatch (polls log).symm.trans answer
      refine meets_bind (fun reply _ => reply.error = false)
        (meets_mapError polled (fun _ _ => False.elim) (fun _ => False.elim) (fun _ => False.elim))
        (fun reply => ?_)
      apply meets_each
      intro t fine
      apply meets_ite
      · exact fun wrong => absurd (fine.symm.trans wrong) Bool.noConfusion
      · intro _
        refine meets_bind (fun _ _ => False) ?_ (fun _ _ holds => holds.elim)
        exact meets_mono (never_drainEventsFrom always enough enough false) (fun _ _ => trivial)
          (fun _ _ after => after) (fun _ _ early => early)
  have ran := never s rfl
  cases ended : pollFrame driver enough s with
  | ok frame next =>
      rw [ended] at ran
      exact ran
  | error halt next =>
      rw [ended] at ran
      exact ends enough (Nat.le_refl _) next (ran ▸ ended)

end Endless

end Decoder

/-- A call on a driver that pauses comes to an end, after any calls and however they ended. -/
theorem calls_terminate (driver : Driver) (honest : driver.Honest) (ticks : driver.Ticks)
    (s : Decoder) (given : List RawFrame) (served : Served driver s given)
    (pauses : driver.Pauses s.log) (ask : Ask) : Decoder.Terminates driver ask s := by
  have lasting : Lasting driver.Pauses s := ⟨sound_served driver honest s given served, pauses⟩
  cases ask with
  | decode data timestampUs =>
      exact (Decoder.ends_decode honest ticks data timestampUs).enough lasting
  | pollFrame => exact (Decoder.ends_pollFrame honest).enough lasting

theorem steady_ticks : steady.Ticks where
  onward _ _ _ := Nat.le_succ _
  polled _ _ := Nat.lt_succ_self _

theorem steady_quiet (log : Log) (old : ∃ entry ∈ log, entry.asksEvent = true) :
    steady.answer log .dqevent = .ok none := by
  obtain ⟨entry, member, asks⟩ := old
  refine congrArg Except.ok (if_pos (List.any_eq_true.mpr ⟨entry, member, ?_⟩))
  cases entry with
  | asked request answer =>
      cases request with
      | dqevent => rfl
      | _ => exact nomatch asks
  | _ => exact nomatch asks

theorem steady_pauses (log : Log) : steady.Pauses log := by
  intro later event _ _
  refine ⟨_, ?_⟩
  rintro next ⟨first, before, after, more, same, handled, answer, rfl⟩
  have asked : ∃ entry ∈ heard event later, entry.asksEvent = true :=
    ⟨_, List.mem_cons_self, rfl⟩
  have old : ∃ entry ∈ after, entry.asksEvent = true := by
    unfold Driver.Handled at handled
    split at handled
    · have takes : Takes steady false (fun log => ∃ entry ∈ log, entry.asksEvent = true) :=
        fun _ _ _ _ ⟨entry, member, asks⟩ => ⟨entry, List.mem_cons_of_mem _ member, asks⟩
      exact takes.later handled asked
    · exact handled ▸ asked
  exact nomatch (steady_quiet after old).symm.trans answer

/-- A decoder can be opened, and has no picture ready then. -/
def opened (driver : Driver) : Bool :=
  match withOps driver [] with
  | .ok s _ => s.ready.isEmpty
  | .error _ _ => false

theorem opened_iff {driver : Driver} : opened driver = true ↔
    ∃ s log, withOps driver [] = .ok s log ∧ s.ready = [] := by
  unfold opened
  cases withOps driver [] with
  | ok s log => simp
  | error halt log => simp

theorem calls_terminate_steady :
    ∃ s, Served steady s [] ∧ Decoder.Terminates steady .pollFrame s := by
  have opens : opened steady = true := by decide +kernel
  obtain ⟨s, log, opening, _⟩ := opened_iff.mp opens
  have served := Served.opened s log opening
  exact ⟨s, served, calls_terminate steady steady_honest steady_ticks s [] served
    (steady_pauses s.log) .pollFrame⟩

/-- The same driver, but it has always reached the end of the stream. -/
def endless : Driver where
  answer log request := match request with
    | .dqevent => .ok (some ⟨eventEos, 0⟩)
    | request => steady.answer log request
  clock := steady.clock
  memory := steady.memory

/-- It dequeues only what is queued to it and time passes, but the call for a picture never ends. -/
theorem call_endless : ∃ s, endless.Honest ∧ endless.Ticks ∧ Served endless s [] ∧
    ¬ Decoder.Terminates endless .pollFrame s := by
  have opens : opened endless = true := by decide +kernel
  obtain ⟨s, log, opening, none⟩ := opened_iff.mp opens
  refine ⟨s, steady_honest, ⟨fun _ _ _ => Nat.le_succ _, fun _ _ => Nat.lt_succ_self _⟩,
    .opened s log opening, ?_⟩
  exact Decoder.never_pollFrame (fun _ => rfl) (fun _ => rfl) s none

end Castr.V4l2
