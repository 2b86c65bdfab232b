import Castr.V4l2.Owning
import Castr.V4l2.Calling

/-! The decoder's flags say which buffers the driver has. -/

namespace Castr.V4l2

open Castr.Lib.Calls

theorem picture_ne (cap : Capture) (dequeued : Dequeued) (memory : Mapping → Nat → UInt8)
    (text : String) (failed : cap.picture dequeued memory = .outOfBounds text) :
    (Halt.fault (.bail text)) ≠ .fault noFreeOutputBuffer := by
  apply bail_ne
  unfold Capture.picture at failed
  split at failed
  · cases failed
  split at failed
  · cases failed
  split at failed
  · cases failed
  dsimp only at failed
  split at failed
  · cases failed
  split at failed
  · cases failed
    simp [toString_text]
  · split at failed <;> cases failed

section Logs

def Closed (kept : Log → Prop) : Prop := ∀ entry log, Still entry → kept log → kept (entry :: log)

def Clear (start log : Log) : Prop :=
  Safe log ∧ ∀ index, owns .output log index = owns .output start index

theorem closed_clear (start : Log) : Closed (Clear start) := by
  intro entry log still clear
  refine ⟨safe_still entry log still clear.1, fun index => ?_⟩
  rw [owns_still entry log still]
  exact clear.2 index

theorem closed_tight (bufType : BufType) (start : Log) (queue : Queue) :
    Closed (fun log => Tight bufType start ⟨queue, log⟩) :=
  fun entry log still tight => tight_still bufType start ⟨queue, log⟩ entry tight still

theorem loose_clear (start : Log) (queue : Queue) (log : Log) (type : queue.bufType = .capture)
    (small : queue.buffers.length < 2 ^ 32) (clear : Clear start log) :
    Loose .capture start ⟨queue, log⟩ := by
  refine ⟨type, clear.1, ?_, small⟩
  intro other different index
  cases other with
  | output => exact clear.2 index
  | capture => exact absurd rfl different

theorem clear_loose (start : Log) (wired : Wired) (loose : Loose .capture start wired) :
    Clear start wired.log := ⟨loose.safe, loose.apart .output nofun⟩

variable (driver : Driver) {kept : Log → Prop}

theorem kept_call (closed : Closed kept) (request : Request)
    (quiet : ∀ answer, Still (.asked request answer)) :
    Meets kept (driver.call request) (fun _ => kept)
      (fun halt log => halt.returned = true ∧ kept log) := by
  apply meets_call
  · exact fun log holds reply answer => closed _ log (quiet _) holds
  · exact fun log holds error answer => ⟨rfl, closed _ log (quiet _) holds⟩

theorem kept_visibleRect (closed : Closed kept) (coded : FormatInfo) :
    Meets kept (visibleRect driver coded) (fun _ => kept)
      (fun halt log => Plain halt ∧ kept log) := by
  refine meets_bind (fun _ => kept) ?_ (fun result => ?_)
  · exact meets_attempt _ _ (kept_call driver closed _ (fun _ => ⟨fun _ _ => rfl, by simp⟩))
      (fun _ _ after => after) (fun _ _ early => early.2) (fun _ early => nomatch early.1)
      (fun _ early => nomatch early.1)
  · cases result with
    | ok rect => exact meets_pure _ (fun _ after => after)
    | error error => exact meets_pure _ (fun _ after => after)

theorem tight_bringUpCapture (start : Log) (provisional : Bool) :
    Meets (Clear start) (bringUpCapture driver provisional)
      (fun cap log => Tight .capture start ⟨cap.queue, log⟩)
      (fun halt log => Plain halt ∧ Clear start log) := by
  have asked (request : Request) (quiet : ∀ answer, Still (.asked request answer)) :=
    kept_call driver (closed_clear start) request quiet
  refine meets_bind (fun _ => Clear start)
    (meets_context (asked _ (fun _ => ⟨fun _ _ => rfl, by simp⟩))) (fun reported => ?_)
  refine meets_bind (fun _ => Clear start)
    (meets_context (asked _ (fun _ => ⟨fun _ _ => rfl, by simp⟩))) (fun coded => ?_)
  apply meets_ite
  · exact fun _ => meets_fail _ (fun _ clear => ⟨⟨rfl, bail_ne _ (by simp [toString_text])⟩, clear⟩)
  · intro _
    refine meets_bind (fun _ => Clear start) ?_ (fun min => ?_)
    · exact meets_attempt _ _ (asked _ (fun _ => ⟨fun _ _ => rfl, by simp⟩))
        (fun _ _ after => after)
        (fun _ _ early => early.2) (fun _ early => nomatch early.1) (fun _ early => nomatch early.1)
    · refine meets_bind (fun result log => Tight .capture start ⟨result.1, log⟩) ?_ ?_
      · apply meets_owning
        intro log clear
        exact meets_mono (tight_startOrRelease driver start _)
          (by rintro _ rfl; exact loose_clear start _ log rfl (Nat.two_pow_pos 32) clear)
          (fun _ _ tight => tight) (fun _ w early => ⟨early.1, clear_loose start w early.2⟩)
      · rintro ⟨queue, _⟩
        refine meets_bind (fun _ log => Tight .capture start ⟨queue, log⟩) ?_
          (fun visible => meets_pure _ (fun _ tight => tight))
        exact meets_mono (kept_visibleRect driver (closed_tight .capture start queue) coded)
          (fun _ tight => tight) (fun _ _ tight => tight)
          (fun _ log early => ⟨early.1, clear_loose start _ early.2.toLoose⟩)

end Logs

/-- The flags of both queues are right, and enough output buffers are there to wait for. -/
structure Sound (s : Decoder) : Prop where
  output : Tight .output s.log ⟨s.output, s.log⟩
  capture : ∀ cap, s.capture = some cap → Tight .capture s.log ⟨cap.queue, s.log⟩
  enough : maxInFlight ≤ s.output.buffers.length

theorem tight_here (bufType : BufType) (start : Log) (wired : Wired)
    (tight : Tight bufType start wired) : Tight bufType wired.log wired :=
  { tight with apart := fun _ _ _ => rfl }

theorem tight_apart (bufType other : BufType) (different : other ≠ bufType) (queue : Queue)
    (start : Log) (wired : Wired) (loose : Loose bufType start wired)
    (tight : Tight other start ⟨queue, start⟩) : Tight other wired.log ⟨queue, wired.log⟩ := by
  refine ⟨⟨tight.type, loose.safe, fun _ _ _ => rfl, tight.small⟩, ?_, tight.few⟩
  intro index
  have same : queue.bufType = other := tight.type
  rw [← tight.exact index]
  simp only [same]
  exact loose.apart other different index

theorem sound_output (s : Decoder) (wired : Wired) (sound : Sound s)
    (tight : Tight .output s.log wired)
    (length : wired.queue.buffers.length = s.output.buffers.length) :
    Sound { s with output := wired.queue, log := wired.log } := by
  refine ⟨tight_here .output s.log wired tight, ?_, length ▸ sound.enough⟩
  intro cap up
  exact tight_apart .output .capture
    nofun cap.queue s.log wired tight.toLoose (sound.capture cap up)

theorem sound_capture (s : Decoder) (wired : Wired) (cap : Capture) (sound : Sound s)
    (tight : Tight .capture s.log wired) :
    Sound { s with capture := some { cap with queue := wired.queue }, log := wired.log } := by
  refine ⟨tight_apart .capture .output nofun s.output s.log wired tight.toLoose sound.output, ?_,
    sound.enough⟩
  rintro _ ⟨rfl⟩
  exact tight_here .capture s.log wired tight

theorem sound_clear (s : Decoder) (log : Log) (sound : Sound s) (clear : Clear s.log log) :
    Sound { s with capture := none, log := log } := by
  have loose := loose_clear s.log (Queue.new .capture) log rfl (Nat.two_pow_pos 32) clear
  exact ⟨tight_apart .capture .output nofun s.output s.log _ loose sound.output, nofun,
    sound.enough⟩

theorem closed_sound (s : Decoder) : Closed (fun log => Sound { s with log := log }) := by
  intro entry log still sound
  refine ⟨?_, fun cap up => ?_, sound.enough⟩
  · exact tight_here .output log _ (tight_still .output log _ entry sound.output still)
  · exact tight_here .capture log _ (tight_still .capture log _ entry (sound.capture cap up) still)

def NotFull (halt : Halt Fault) : Prop := halt ≠ .fault noFreeOutputBuffer

namespace Decoder

variable (driver : Driver)

theorem sound_call (request : Request) (quiet : ∀ answer, Still (.asked request answer)) :
    Meets Sound (ops (driver.call request)) (fun _ => Sound)
      (fun halt s => halt.returned = true ∧ Sound s) := by
  apply meets_on
  intro s sound
  exact meets_mono (kept_call driver (closed_sound s) request quiet) (by rintro _ rfl; exact sound)
    (fun _ _ after => after) (fun _ _ early => early)

theorem sound_asked (text : String) (request : Request)
    (quiet : ∀ answer, Still (.asked request answer)) :
    Stays Sound NotFull (context text (ops (driver.call request))) :=
  meets_mono (meets_context (sound_call driver request quiet)) (fun _ sound => sound)
    (fun _ _ sound => sound) (fun _ _ early => ⟨early.1.2, early.2⟩)

theorem sound_now : Stays Sound NotFull (ops driver.now) := by
  apply meets_on
  intro s sound
  apply meets_now
  rintro _ rfl
  exact closed_sound s _ s.log ⟨fun _ _ => rfl, nofun⟩ sound

theorem sound_modify (change : Decoder → Decoder) (log : ∀ s, (change s).log = s.log)
    (output : ∀ s, (change s).output = s.output) (capture : ∀ s, (change s).capture = s.capture) :
    ∀ s, Sound s → Sound (change s) := by
  intro s sound
  refine ⟨?_, fun cap up => ?_, ?_⟩
  · rw [log, output]
    exact sound.output
  · rw [log]
    exact sound.capture cap (capture s ▸ up)
  · rw [output]
    exact sound.enough

theorem sound_sawLast (s : Decoder) (sound : Sound s) (sawLast : Bool) :
    Sound { s with sawLast := sawLast } :=
  sound_modify (fun s => { s with sawLast := sawLast }) (fun _ => rfl) (fun _ => rfl) (fun _ => rfl)
    s sound

theorem sound_onCapture {α : Type} (cap : Capture) (call : Call IoError Wired α)
    (done : α → Queue → Prop)
    (each : ∀ start, Meets (fun w => Tight .capture start w ∧ w.queue = cap.queue) call
      (fun value w => Tight .capture start w ∧ done value w.queue)
      (fun halt w => halt.returned = true ∧ Tight .capture start w)) :
    Meets (fun s => Sound s ∧ s.capture = some cap) (onCapture cap call)
      (fun value s => Sound s ∧ ∃ queue, done value queue ∧
        s.capture = some { cap with queue := queue })
      (fun halt s => halt.returned = true ∧ Sound s) := by
  apply meets_on
  rintro s ⟨sound, up⟩
  refine meets_mono (each s.log) ?_ ?_ ?_
  · rintro _ rfl
    exact ⟨sound.capture cap up, rfl⟩
  · rintro value w ⟨tight, holds⟩
    exact ⟨sound_capture s w cap sound tight, w.queue, holds, rfl⟩
  · rintro halt w ⟨returned, tight⟩
    exact ⟨returned, sound_capture s w cap sound tight⟩

theorem sound_requeue (cap : Capture) (index : Nat) :
    Meets (fun s => Sound s ∧ s.capture = some cap) (requeue driver cap index)
      (fun _ => Sound) (fun halt s => halt ≠ .fault noFreeOutputBuffer ∧ Sound s) := by
  have queued := sound_onCapture cap (Queue.queue driver index 0 0) (fun _ _ => True)
    (fun start => meets_mono (tight_queue driver .capture start index 0 0 cap.queue nofun)
      (fun _ before => before) (fun _ _ after => ⟨after.1, trivial⟩)
      (fun _ _ early => ⟨early.1, early.2.1⟩))
  refine meets_bind (fun _ => Sound) ?_ (fun result => ?_)
  · exact meets_attempt _ _ queued (fun _ _ after => after.1) (fun _ _ early => early.2)
      (fun _ early => nomatch early.1) (fun _ early => nomatch early.1)
  · cases result with
    | ok value => exact meets_pure _ (fun _ sound => sound)
    | error error =>
        apply meets_ite
        · exact fun _ => meets_modify _ (fun s sound => sound_sawLast s sound true)
        · exact fun _ => meets_fail _ (fun _ sound => ⟨nofun, sound⟩)

theorem sound_finishCapture (cap : Capture) (dequeued : Dequeued)
    (frame : Except Fault (Option RawFrame))
    (other : ∀ fault, frame = .error fault → (Halt.fault fault) ≠ .fault noFreeOutputBuffer) :
    Meets (fun s => Sound s ∧ s.capture = some cap) (finishCapture driver cap dequeued frame)
      (fun _ => Sound) (fun halt s => halt ≠ .fault noFreeOutputBuffer ∧ Sound s) := by
  refine meets_bind (fun _ => Sound) ?_ (fun _ => ?_)
  · apply meets_ite
    · exact fun _ => meets_modify _ (fun s before => sound_sawLast s before.1 true)
    · exact fun _ => sound_requeue driver cap _
  · match frame, other with
    | .error fault, other => exact meets_fail _ (fun _ sound => ⟨other fault rfl, sound⟩)
    | .ok none, _ => exact meets_pure _ (fun _ sound => sound)
    | .ok (some frame), _ =>
        refine meets_modify_bind Sound (sound_modify _ (fun _ => rfl) (fun _ =>
          rfl) (fun _ => rfl)) ?_
        refine meets_bind (fun _ => Sound) (sound_now driver) (fun now => ?_)
        refine meets_modify_bind Sound (sound_modify _ (fun _ => rfl) (fun _ =>
          rfl) (fun _ => rfl)) ?_
        exact meets_pure _ (fun _ sound => sound)

def Unmarks (queue : Queue) : Dequeue → Queue → Prop
  | .buffer dequeued, next => next = queue.mark dequeued.index.toNat false
  | _, _ => True

theorem sound_takeCapture (honest : driver.Honest) :
    Stays Sound NotFull (takeCapture driver) := by
  apply meets_get_bind
  intro before sound
  cases up : before.capture with
  | none =>
      apply meets_pure
      rintro _ rfl
      exact sound
  | some cap =>
      have dequeue := sound_onCapture cap (Queue.dequeue driver)
        (Unmarks cap.queue)
        (fun start => meets_mono (tight_dequeue driver .capture start honest cap.queue)
          (fun _ before => before) (fun reply _ after => ⟨after.1, by
            cases reply with
            | buffer dequeued => exact after.2.1
            | _ => trivial⟩) (fun _ _ early => ⟨early.1, early.2.1⟩))
      refine meets_bind _ (meets_mono (meets_context dequeue)
        (by rintro _ rfl; exact ⟨sound, up⟩) (fun _ _ after => after)
        (fun _ _ early => ⟨early.1.2, early.2⟩)) (fun reply => ?_)
      cases reply with
      | idle => exact meets_pure _ (fun _ after => after.1)
      | endOfSequence =>
          exact meets_modify_bind Sound (fun s after => sound_sawLast s after.1 true)
            (meets_pure _ (fun _ sound => sound))
      | buffer dequeued =>
          apply meets_get_bind
          rintro after ⟨sound, _, rfl, up⟩
          have finish (frame : Except Fault (Option RawFrame))
              (other : ∀ fault, frame = .error fault →
                (Halt.fault fault) ≠ .fault noFreeOutputBuffer) :
              Meets (fun s => s = after) (finishCapture driver
                { cap with queue := cap.queue.mark dequeued.index.toNat false } dequeued frame)
                (fun _ => Sound) (fun halt s => halt ≠ .fault noFreeOutputBuffer ∧ Sound s) :=
            meets_mono (sound_finishCapture driver _ dequeued frame other)
              (by rintro _ rfl; exact ⟨sound, up⟩) (fun _ _ sound => sound) (fun _ _ early => early)
          dsimp only
          split
          · exact meets_throw _ (by rintro _ rfl; exact ⟨nofun, sound⟩)
          · next text failed =>
              refine finish _ ?_
              rintro _ ⟨rfl⟩
              exact picture_ne _ dequeued _ text failed
          · exact finish _ nofun

theorem sound_dequeueOutput (honest : driver.Honest) (s : Decoder) (sound : Sound s) :
    Meets (fun t => t = s) (onOutput (Queue.dequeue driver))
      (fun reply t => Sound t ∧ match reply with
        | .buffer _ => t.output.inFlight + 1 = s.output.inFlight
        | _ => t.output = s.output)
      (fun halt t => halt.returned = true ∧ Sound t) := by
  apply meets_on_at
  refine meets_mono (tight_dequeue driver .output s.log honest s.output) ?_ ?_ ?_
  · rintro _ rfl
    exact ⟨sound.output, rfl⟩
  · rintro reply w ⟨tight, what⟩
    cases reply with
    | buffer dequeued =>
        obtain ⟨same, buffer, found, queued⟩ := what
        refine ⟨sound_output s w sound tight (by rw [same, mark_length]), ?_⟩
        have fewer := inFlight_mark s.output dequeued.index.toNat false buffer found
        simpa [queued, same] using fewer
    | idle => exact ⟨sound_output s w sound tight (by rw [what]), what⟩
    | endOfSequence => exact ⟨sound_output s w sound tight (by rw [what]), what⟩
  · rintro halt w ⟨returned, tight, same⟩
    exact ⟨returned, sound_output s w sound tight (by rw [same])⟩

theorem sound_freed (honest : driver.Honest) :
    Stays Sound NotFull (context "DQBUF output" (onOutput (Queue.dequeue driver))) := by
  apply meets_each
  intro s sound
  exact meets_mono (meets_context (sound_dequeueOutput driver honest s sound)) (fun _ same => same)
    (fun _ _ after => after.1) (fun _ _ early => ⟨early.1.2, early.2⟩)

/-- The capture side is out of the decoder, and its queue is still right. -/
structure Spare (old : Queue) (s : Decoder) : Prop where
  sound : Sound s
  gone : s.capture = none
  tight : Tight .capture s.log ⟨old, s.log⟩

theorem spare_log (old : Queue) (s : Decoder) (spare : Spare old s) (queue : Queue) (log : Log)
    (tight : Tight .capture s.log ⟨queue, log⟩) : Spare queue { s with log := log } := by
  refine ⟨?_, spare.gone, tight_here .capture s.log _ tight⟩
  have clear := sound_clear s log spare.sound (clear_loose s.log _ tight.toLoose)
  exact ⟨clear.output, fun cap up => (nomatch spare.gone.symm.trans up), clear.enough⟩

theorem sound_gone (s : Decoder) (sound : Sound s) (gone : s.capture = none) (log : Log)
    (clear : Clear s.log log) : Sound { s with log := log } := by
  have next := sound_clear s log sound clear
  exact ⟨next.output, fun cap up => (nomatch gone.symm.trans up), next.enough⟩

theorem spare_owning {ε α : Type} (queue : Queue) (call : Call ε Wired α)
    (done : α → Queue → Decoder → Prop) (ends : Halt ε → Prop)
    (each : ∀ s, Spare queue s → Meets (fun w => w = ⟨queue, s.log⟩) call
      (fun value w => done value w.queue { s with log := w.log })
      (fun halt w => ends halt ∧ Loose .capture s.log w)) :
    Meets (Spare queue) (ops (owning queue call)) (fun result s => done result.2 result.1 s)
      (fun halt s => ends halt ∧ Sound s) := by
  apply meets_on
  intro s spare
  apply meets_owning
  rintro _ rfl
  exact meets_mono (each s spare) (fun _ same => same) (fun _ _ after => after)
    (fun _ w early =>
      ⟨early.1, sound_gone s spare.sound spare.gone w.log (clear_loose _ w early.2)⟩)

theorem spare_closed (queue : Queue) (s : Decoder) :
    Closed (fun log => Spare queue { s with log := log }) := by
  intro entry log still kept
  refine ⟨closed_sound s entry log still kept.sound, kept.gone, ?_⟩
  exact tight_here .capture log _ (tight_still .capture log ⟨queue, log⟩ entry kept.tight still)

theorem spare_ops {ε α : Type} {queue : Queue} {call : Call ε Log α} (ends : Halt ε → Prop)
    (each : ∀ kept : Log → Prop, Closed kept → Meets kept call (fun _ => kept)
      (fun halt log => ends halt ∧ kept log)) :
    Meets (Spare queue) (ops call) (fun _ => Spare queue)
      (fun halt s => ends halt ∧ Sound s) := by
  apply meets_on
  intro s spare
  exact meets_mono (each _ (spare_closed queue s)) (by rintro _ rfl; exact spare)
    (fun _ _ after => after) (fun _ _ early => ⟨early.1, early.2.sound⟩)

theorem sound_back (s : Decoder) (cap : Capture) (spare : Spare cap.queue s) :
    Sound { s with sawLast := false, capture := some cap } :=
  ⟨spare.sound.output, by rintro _ ⟨rfl⟩; exact spare.tight, spare.sound.enough⟩

theorem spare_stopOld (old : Queue) :
    Meets (Spare old) (stopOld driver old) (fun queue s => Spare queue s)
      (fun halt s => Plain halt ∧ Sound s) := by
  apply meets_ite
  · intro streaming
    refine meets_bind (fun result s => Spare result.1 s) (meets_context ?_)
      (fun result => meets_pure _ (fun _ after => after))
    apply spare_owning old _ (fun _ queue s => Spare queue s) (fun halt => halt.returned = true)
    intro s spare
    refine meets_mono (tight_streamOff driver .capture s.log _ spare.tight.toLoose)
      (fun _ same => same) (fun _ w after => ?_) (fun _ _ early => early)
    exact spare_log old s spare w.queue w.log after.1
  · exact fun _ => meets_pure _ (fun _ spare => spare)

theorem sound_restartCapture (old : Capture) :
    Meets (Spare old.queue) (restartCapture driver old) (fun _ => Sound)
      (fun halt s => Plain halt ∧ Sound s) := by
  refine meets_bind _ (spare_stopOld driver old.queue) (fun queue => ?_)
  refine meets_bind (fun _ => Spare queue) (meets_context (spare_ops _ (fun kept closed =>
    kept_call driver closed (.gFmt .capture) (fun _ => ⟨fun _ _ => rfl, by simp⟩))))
    (fun reported => ?_)
  apply meets_ite
  · intro unchanged
    refine meets_bind (fun _ => Spare queue)
      (spare_ops Plain (fun kept closed => kept_visibleRect driver closed old.coded))
      (fun visible => ?_)
    refine meets_bind (fun result s => Spare result.1 s)
      (spare_owning queue _ (fun _ queue s => Spare queue s) Plain ?_) (fun result => ?_)
    · intro s spare
      refine meets_mono (tight_queueAllAndStart driver s.log) (by rintro _ rfl; exact spare.tight)
        (fun _ w after => ?_) (fun _ _ early => ⟨early.1, early.2.toLoose⟩)
      exact spare_log queue s spare w.queue w.log after
    · exact meets_modify _ (fun s spare =>
        sound_back s { old with queue := result.1, visible } spare)
  · intro changed
    refine meets_bind (fun _ s => Sound s ∧ s.capture = none) (meets_context
      (spare_owning queue _ (fun _ _ s => Sound s ∧ s.capture = none) _ ?_)) (fun _ => ?_)
    · intro s spare
      refine meets_mono (loose_release driver .capture s.log _ spare.tight.toLoose)
        (fun _ same => same) (fun _ w after => ?_) (fun _ _ early => early)
      exact ⟨sound_gone s spare.sound spare.gone w.log (clear_loose _ w after), spare.gone⟩
    · refine meets_bind (fun capture => Spare capture.queue) ?_ (fun capture => ?_)
      · apply meets_on
        rintro s ⟨sound, gone⟩
        refine meets_mono (tight_bringUpCapture driver s.log false) ?_ ?_ ?_
        · rintro _ rfl
          exact ⟨sound.output.safe, fun _ => rfl⟩
        · intro capture log tight
          refine ⟨sound_gone s sound gone log (clear_loose _ _ tight.toLoose), gone, ?_⟩
          exact tight_here .capture s.log _ tight
        · exact fun _ log early => ⟨early.1, sound_gone s sound gone log early.2⟩
      · exact meets_modify _ (fun s spare => sound_back s capture spare)

theorem freeSlot_of_room (queue : Queue) (room : queue.inFlight < queue.buffers.length) :
    ∃ slot buffer, queue.freeSlot = some slot ∧ queue.buffers[slot]? = some buffer := by
  cases found : queue.freeSlot with
  | some slot =>
      have inside := (List.findIdx?_eq_some_iff_findIdx_eq.mp found).1
      exact ⟨slot, _, rfl, List.getElem?_eq_getElem inside⟩
  | none =>
      have all := List.findIdx?_eq_none_iff.mp found
      have full : queue.inFlight = queue.buffers.length :=
        List.countP_eq_length.mpr (fun buffer member => by simpa using all buffer member)
      omega

theorem sound_queueInput (data : List UInt8) (timestampUs : UInt64) :
    Meets (fun s => Sound s ∧ s.output.inFlight < maxInFlight)
      (queueInput driver data timestampUs) (fun _ => Sound)
      (fun halt s => halt ≠ .fault noFreeOutputBuffer ∧ Sound s) := by
  apply meets_get_bind
  rintro s ⟨sound, room⟩
  obtain ⟨slot, buffer, free, found⟩ :=
    freeSlot_of_room s.output (Nat.lt_of_lt_of_le room sound.enough)
  simp only [free, found]
  apply meets_ite
  · intro tooLong
    apply meets_fail
    rintro _ rfl
    exact ⟨bail_ne _ (by simp [toString_text]), sound⟩
  · intro fits
    refine meets_bind (fun _ t => Sound t ∧ t.output = s.output) ?_ (fun _ => ?_)
    · apply meets_on_at
      apply meets_store
      rintro _ rfl
      exact ⟨closed_sound s _ s.log ⟨fun _ _ => rfl, nofun⟩ sound, rfl⟩
    · have queued : Meets (fun t => Sound t ∧ t.output = s.output)
          (onOutput (Queue.queue driver slot (UInt32.ofNat data.length) timestampUs))
          (fun _ => Sound) (fun halt t => halt.returned = true ∧ Sound t) := ?_
      · exact meets_mono (meets_context queued) (fun _ before => before) (fun _ _ after => after)
          (fun _ _ early => ⟨early.1.2, early.2⟩)
      apply meets_on
      rintro t ⟨later, same⟩
      refine meets_mono (tight_queue driver .output t.log slot _ timestampUs t.output
        (fun _ => same ▸ room)) ?_ ?_ ?_
      · rintro _ rfl
        exact ⟨later.output, rfl⟩
      · rintro _ w ⟨tight, queued⟩
        exact sound_output t w later tight (by rw [queued, mark_length])
      · rintro halt w ⟨returned, tight, queued⟩
        exact ⟨returned, sound_output t w later tight (by rw [queued])⟩

theorem sound_steps (honest : driver.Honest) : Steps driver Sound NotFull where
  other _ other := other
  sawLast s sawLast sound := sound_sawLast s sound sawLast
  finished := sound_modify _ (fun _ => rfl) (fun _ => rfl) (fun _ => rfl)
  unanswered s unanswered := sound_modify (fun s => { s with unanswered := unanswered })
    (fun _ => rfl) (fun _ => rfl) (fun _ => rfl) s
  now := sound_now driver
  poll _ := sound_asked driver _ _ (fun _ => ⟨fun _ _ => rfl, by simp⟩)
  event := sound_asked driver _ _ (fun _ => ⟨fun _ _ => rfl, by simp⟩)
  freed := sound_freed driver honest
  took := meets_mono (sound_takeCapture driver honest) (fun _ sound => sound)
    (fun taken s sound => sound_modify (fun s => s.push (taken.getD none)) (fun _ => rfl)
      (fun _ => rfl) (fun _ => rfl) s sound) (fun _ _ early => early)
  restarted s old sound up := meets_mono (sound_restartCapture driver old)
    (by rintro _ rfl; exact ⟨⟨sound.output, nofun, sound.enough⟩, rfl, sound.capture old up⟩)
    (fun _ _ after => after) (fun _ _ early => ⟨early.1.2, early.2⟩)
  queued data timestampUs := sound_queueInput driver data timestampUs

end Decoder

section Opening

variable (driver : Driver)

theorem safe_asked (text : String) (request : Request)
    (quiet : ∀ answer, Still (.asked request answer)) :
    Meets Safe (context text (driver.call request)) (fun _ => Safe) (fun _ => Safe) :=
  meets_mono (meets_context (kept_call driver (fun entry log still safe =>
    safe_still entry log still safe) request quiet)) (fun _ safe => safe) (fun _ _ safe => safe)
    (fun _ _ early => early.2)

theorem safe_supportsFrom (bufType : BufType) (format : UInt32) (index left : Nat) :
    Meets Safe (supportsFrom driver bufType format index left) (fun _ => Safe) (fun _ => Safe) := by
  induction left generalizing index with
  | zero => exact meets_fail _ (fun _ safe => safe)
  | succ left ih =>
      refine meets_bind (fun _ => Safe)
        (safe_asked driver _ _ (fun _ => ⟨fun _ _ => rfl, by simp⟩)) (fun found => ?_)
      cases found with
      | none => exact meets_pure _ (fun _ safe => safe)
      | some found =>
          apply meets_ite
          · exact fun _ => meets_pure _ (fun _ safe => safe)
          · exact fun _ => ih (index + 1)

theorem loose_new (queue : Queue) (log : Log) (safe : Safe log)
    (small : queue.buffers.length < 2 ^ 32) : Loose queue.bufType log ⟨queue, log⟩ :=
  ⟨rfl, safe, fun _ _ _ => rfl, small⟩

theorem tight_openOutput (start : Log) :
    Meets (Loose .output start) (openOutput driver)
      (fun _ w => Tight .output start w ∧ maxInFlight ≤ w.queue.buffers.length)
      (fun _ w => Safe w.log) := by
  refine meets_bind (fun _ => Tight .output start) ?_ (fun _ => ?_)
  · refine meets_mono (meets_context (meets_each (fun w loose =>
      fresh_allocate driver .output start outputBuffers false w loose))) (fun _ loose => loose)
      (fun _ _ tight => tight) (fun _ _ early => early.2.safe)
  apply meets_get_bind
  intro w tight
  apply meets_ite
  · intro few
    apply meets_fail
    rintro _ rfl
    exact tight.safe
  · intro enough
    split
    · apply meets_fail
      rintro _ rfl
      exact tight.safe
    · refine meets_mono (meets_context (tight_streamOn driver .output start w tight))
        (fun _ same => same) (fun _ _ on => ⟨on.1, ?_⟩) (fun _ _ early => early.2.safe)
      rw [on.2]
      exact Nat.le_of_not_lt enough

theorem tight_openCapture (output : Queue) (start : Log)
    (tight : Tight .output start ⟨output, start⟩) :
    Meets (fun log => log = start) (openCapture driver output)
      (fun cap log => Tight .output log ⟨output, log⟩ ∧ Tight .capture log ⟨cap.queue, log⟩)
      (fun _ => Safe) := by
  refine meets_bind (Handed
    (fun cap log => Tight .output log ⟨output, log⟩ ∧ Tight .capture log ⟨cap.queue, log⟩)
    (fun _ => Safe)) ?_ (fun result => ?_)
  · have up : Meets (fun log => log = start) (bringUpCapture driver true)
        (fun cap log => Tight .output log ⟨output, log⟩ ∧ Tight .capture log ⟨cap.queue, log⟩)
        (fun _ => Safe) := by
      refine meets_mono (tight_bringUpCapture driver start true) ?_ ?_ (fun _ _ early => early.2.1)
      · rintro _ rfl
        exact ⟨tight.safe, fun _ => rfl⟩
      · intro cap log later
        exact ⟨tight_apart .capture .output nofun output start _ later.toLoose tight,
          tight_here .capture start _ later⟩
    exact meets_attempt _ _ up (fun _ _ both => both) (fun _ _ safe => safe) (fun _ safe => safe)
      (fun _ safe => safe)
  · cases result with
    | ok cap => exact meets_pure _ (fun _ both => both)
    | error fault =>
        refine meets_bind (fun _ => Safe) ?_ (fun _ => meets_fail _ (fun _ safe => safe))
        refine meets_attempt (fun _ => Safe) (fun _ => Safe) ?_ (fun _ _ safe => safe)
          (fun _ _ safe => safe) (fun _ safe => safe) (fun _ safe => safe)
        apply meets_owning
        intro log safe
        have loose := loose_new output log safe tight.small
        exact meets_mono (loose_release driver output.bufType log _ loose) (fun _ same => same)
          (fun _ _ after => after.safe) (fun _ _ early => early.2.safe)

/-- A decoder that was opened is sound; one that was not left nothing wrong. -/
theorem sound_withOps :
    Meets (fun log => log = []) (withOps driver) (fun s log => s.log = log ∧ Sound s)
      (fun _ => Safe) := by
  have asked (text : String) (request : Request) (quiet : ∀ answer,
    Still (.asked request answer)) :=
    safe_asked driver text request quiet
  refine meets_bind (fun _ => Safe) (meets_mono (asked _ _ (fun _ => ⟨fun _ _ => rfl, by simp⟩))
    (by rintro _ rfl; trivial) (fun _ _ safe => safe) (fun _ _ safe => safe)) (fun cap => ?_)
  apply meets_ite
  · exact fun _ => meets_fail _ (fun _ safe => safe)
  intro codec
  refine meets_bind (fun _ => Safe) (safe_supportsFrom driver _ _ 0 64) (fun accepts => ?_)
  apply meets_ite
  swap
  · exact fun _ => meets_fail _ (fun _ safe => safe)
  intro _
  refine meets_bind (fun _ => Safe) (safe_supportsFrom driver _ _ 0 64) (fun produces => ?_)
  apply meets_ite
  swap
  · exact fun _ => meets_fail _ (fun _ safe => safe)
  intro _
  refine meets_bind (fun _ => Safe) (asked _ _ (fun _ => ⟨fun _ _ => rfl, by simp⟩)) (fun _ => ?_)
  refine meets_bind (fun _ => Safe) (asked _ _ (fun _ => ⟨fun _ _ => rfl, by simp⟩)) (fun _ => ?_)
  refine meets_bind (fun _ => Safe) (asked _ _ (fun _ => ⟨fun _ _ => rfl, by simp⟩)) (fun _ => ?_)
  refine meets_bind (fun result log => Tight .output log ⟨result.1, log⟩ ∧
    maxInFlight ≤ result.1.buffers.length) ?_ ?_
  · apply meets_owning
    intro log safe
    refine meets_mono (tight_openOutput driver log) ?_ ?_ (fun _ _ safe => safe)
    · rintro _ rfl
      exact loose_new (Queue.new .output) log safe (Nat.two_pow_pos 32)
    · intro _ w opened
      exact ⟨tight_here .output log w opened.1, opened.2⟩
  rintro ⟨output, _⟩
  apply meets_each
  rintro start ⟨tight, enough⟩
  refine meets_bind _ (tight_openCapture driver output start tight) (fun cap => ?_)
  refine meets_bind (fun _ log => Tight .output log ⟨output, log⟩ ∧
    Tight .capture log ⟨cap.queue, log⟩) ?_ (fun now => ?_)
  · apply meets_now
    rintro log ⟨out, up⟩
    have still : Still (.clock (driver.clock log)) := ⟨fun _ _ => rfl, nofun⟩
    exact ⟨tight_here .output log _ (tight_still .output log _ _ out still),
      tight_here .capture log _ (tight_still .capture log _ _ up still)⟩
  apply meets_get_bind
  rintro log ⟨out, up⟩
  apply meets_pure
  rintro _ rfl
  exact ⟨rfl, out, by rintro _ ⟨rfl⟩; exact up, enough⟩

end Opening

/-- No buffer was passed to a driver that had it, at most so many were in flight, and each queue
that is there tells of every buffer whether the driver has it. -/
structure Owned (s : Decoder) : Prop where
  safe : Safe s.log
  few : s.output.inFlight ≤ maxInFlight
  output : Exact s.output s.log
  capture : ∀ cap, s.capture = some cap → Exact cap.queue s.log

theorem owned_of_sound (s : Decoder) (sound : Sound s) : Owned s where
  safe := sound.output.safe
  few := sound.output.few rfl
  output := sound.output.exact
  capture cap up := (sound.capture cap up).exact

section Runs

variable (driver : Driver)

theorem sound_ask (honest : driver.Honest) (fuel : Nat) (ask : Ask) :
    Stays Sound NotFull (Decoder.ask driver fuel ask) := by
  refine meets_mono ((Decoder.sound_steps driver honest).ask fuel ask) (fun _ sound => sound) ?_
    (fun _ _ early => early)
  rintro frame _ ⟨t, sound, -, rfl⟩
  exact Decoder.sound_modify Decoder.popped (fun _ => rfl) (fun _ => rfl) (fun _ => rfl) t sound

theorem sound_served (honest : driver.Honest) (s : Decoder) (given : List RawFrame)
    (served : Served driver s given) : Sound s := by
  induction served with
  | opened s log ran =>
      have opened := sound_withOps driver [] rfl
      rw [ran] at opened
      exact opened.2
  | answered s next given fuel ask frame served ran ih =>
      have after := sound_ask driver honest fuel ask s ih
      rw [ran] at after
      exact after
  | failed s next given fuel ask fault served ran ih =>
      have after := sound_ask driver honest fuel ask s ih
      rw [ran] at after
      exact after.2

/-- Over every run of calls, and however the last one of them ends. -/
theorem buffers_owned (honest : driver.Honest) :
    (match withOps driver [] with
      | .ok s log => s.log = log ∧ Owned s
      | .error _ log => Safe log) ∧
    ∀ s given, Served driver s given → ∀ fuel ask, match Decoder.ask driver fuel ask s with
      | .ok _ next => Owned next
      | .error halt next => halt ≠ .fault noFreeOutputBuffer ∧ Owned next := by
  constructor
  · have opened := sound_withOps driver [] rfl
    cases ran : withOps driver [] with
    | ok s log =>
        rw [ran] at opened
        exact ⟨opened.1, owned_of_sound s opened.2⟩
    | error halt log =>
        rw [ran] at opened
        exact opened
  · intro s given served fuel ask
    have after := sound_ask driver honest fuel ask s (sound_served driver honest s given served)
    cases ran : Decoder.ask driver fuel ask s with
    | ok frame next =>
        rw [ran] at after
        exact owned_of_sound next after
    | error halt next =>
        rw [ran] at after
        exact ⟨after.1, owned_of_sound next after.2⟩

end Runs

/-- One change of format, and then a picture in the first buffer whenever it has that. -/
def steady : Driver where
  answer log request := match request with
    | .queryCap => .ok ⟨capVideoM2mMplane, 0⟩
    | .enumFmt .output _ => .ok (some pixFmtH264)
    | .enumFmt .capture _ => .ok (some pixFmtNv12)
    | .gFmt _ => .ok ⟨2, 2, pixFmtNv12, 2, 6⟩
    | .sFmt _ want => .ok want
    | .reqbufs _ count => .ok (min count 2)
    | .querybuf _ _ => .ok ⟨outputBufferSize, 0⟩
    | .mmap _ _ => .ok ()
    | .expbuf _ _ => .ok ()
    | .qbuf _ _ _ _ _ => .ok ()
    | .dqbuf bufType => .ok (if owns bufType log 0 then .buffer ⟨0, 6, 7, 0⟩ else .idle)
    | .streamon _ => .ok ()
    | .streamoff _ => .ok ()
    | .subscribe _ => .ok ()
    | .dqevent => .ok (if log.any (fun entry => match entry with
        | .asked .dqevent _ => true
        | _ => false) then none else some ⟨eventSourceChange, eventSrcChResolution⟩)
    | .poll _ => .ok ⟨true, true, true, false⟩
    | .gCtrl _ => .error (.os einval)
    | .gSelectionCompose _ => .error (.os einval)
  clock log := log.length
  memory _ _ _ := 0

theorem steady_honest : steady.Honest := by
  intro log bufType dequeued answer
  simp only [steady] at answer
  split at answer
  · cases answer
    assumption
  · cases answer

/-- The first call gives a picture, and leaves its buffer with the driver again. -/
theorem buffers_owned_steady : match withOps steady [] with
    | .ok s _ => match Decoder.ask steady 3 .pollFrame s with
      | .ok (some _) next => Owned next ∧ owns .capture next.log 0 = true
      | _ => False
    | _ => False := by
  have runs : (match withOps steady [] with
      | .ok s _ => match Decoder.ask steady 3 .pollFrame s with
        | .ok (some _) next => owns .capture next.log 0
        | _ => false
      | _ => false) = true := by decide +kernel
  split at runs
  · next s log opened =>
      have after := (buffers_owned steady steady_honest).2 s [] (.opened s log opened) 3 .pollFrame
      split at runs
      · next frame next answered =>
          simp only [answered] at after ⊢
          exact ⟨after, runs⟩
      · cases runs
  · cases runs

end Castr.V4l2
