import Mathlib.Data.List.Perm.Subperm
import Castr.V4l2.Decoder

/-! Which buffers the driver has. -/

namespace Castr.V4l2

open Castr.Lib.Calls

def moved (bufType : BufType) (index : Nat) : Entry → Option Bool
  | .asked (.qbuf queue i _ _ _) (.ok _) =>
      if queue = bufType ∧ i.toNat = index then some true else none
  | .asked (.dqbuf queue) (.ok (.buffer dequeued)) =>
      if queue = bufType ∧ dequeued.index.toNat = index then some false else none
  | .asked (.streamoff queue) (.ok _) => if queue = bufType then some false else none
  | .asked (.reqbufs queue _) (.ok _) => if queue = bufType then some false else none
  | _ => none

/-- The driver has the buffer: it was queued, and neither dequeued nor called back since. -/
def owns (bufType : BufType) : Log → Nat → Bool
  | [], _ => false
  | entry :: log, index => (moved bufType index entry).getD (owns bufType log index)

/-- A driver dequeues only what is queued to it. -/
def Driver.Honest (driver : Driver) : Prop :=
  ∀ log bufType dequeued, driver.answer log (.dqbuf bufType) = .ok (.buffer dequeued) →
    owns bufType log dequeued.index.toNat = true

/-- No more output buffers are with the driver than may be in flight. -/
def Within (log : Log) : Prop :=
  ∀ held : List Nat, held.Nodup → (∀ index ∈ held, owns .output log index = true) →
    held.length ≤ maxInFlight

def Respects (entry : Entry) (log : Log) : Prop :=
  ∀ bufType index length bytesused timestampUs answer,
    entry = .asked (.qbuf bufType index length bytesused timestampUs) answer →
      owns bufType log index.toNat = false

def Safe : Log → Prop
  | [] => True
  | entry :: log => Safe log ∧ Within (entry :: log) ∧ Respects entry log

/-- The flags of a queue are those of the buffers the driver has. -/
def Exact (queue : Queue) (log : Log) : Prop :=
  ∀ index, owns queue.bufType log index = (queue.buffers[index]?).any Buffer.queued

def Passes (entry : Entry) : Prop :=
  (∀ bufType index, moved bufType index entry ≠ some true) ∧
    ∀ bufType index length bytesused timestampUs answer,
      entry ≠ .asked (.qbuf bufType index length bytesused timestampUs) answer

theorem owns_of_passes (entry : Entry) (log : Log) (bufType : BufType) (index : Nat)
    (passes : Passes entry) (has : owns bufType (entry :: log) index = true) :
    owns bufType log index = true := by
  unfold owns at has
  cases told : moved bufType index entry with
  | none => simpa [told] using has
  | some mine =>
      cases mine with
      | false => simp [told] at has
      | true => exact absurd told (passes.1 bufType index)

theorem within_nil : Within [] := by
  intro held _ mine
  cases held with
  | nil => exact Nat.zero_le _
  | cons index rest => cases mine index List.mem_cons_self

theorem within_of_safe (log : Log) (safe : Safe log) : Within log := by
  cases log with
  | nil => exact within_nil
  | cons entry log => exact safe.2.1

theorem safe_passes (entry : Entry) (log : Log) (passes : Passes entry) (safe : Safe log) :
    Safe (entry :: log) := by
  refine ⟨safe, ?_, ?_⟩
  · intro held distinct mine
    exact within_of_safe log safe held distinct
      (fun index member => owns_of_passes entry log .output index passes (mine index member))
  · intro bufType index length bytesused timestampUs answer same
    exact absurd same (passes.2 bufType index length bytesused timestampUs answer)

def Still (entry : Entry) : Prop :=
  (∀ bufType index, moved bufType index entry = none) ∧
    ∀ bufType index length bytesused timestampUs answer,
      entry ≠ .asked (.qbuf bufType index length bytesused timestampUs) answer

theorem owns_still (entry : Entry) (log : Log) (still : Still entry) (bufType : BufType)
    (index : Nat) : owns bufType (entry :: log) index = owns bufType log index := by
  rw [owns, still.1 bufType index, Option.getD_none]

theorem safe_still (entry : Entry) (log : Log) (still : Still entry) (safe : Safe log) :
    Safe (entry :: log) :=
  safe_passes entry log ⟨fun bufType index told => by simp [still.1] at told, still.2⟩ safe

theorem places_le {α : Type} (xs : List α) (p : α → Bool) (places : List Nat)
    (distinct : places.Nodup) (mine : ∀ place ∈ places, (xs[place]?).any p = true) :
    places.length ≤ xs.countP p := by
  have inside : places ⊆ (List.range xs.length).filter (fun place => (xs[place]?).any p) := by
    intro place member
    have found := mine place member
    have bound : place < xs.length := by
      by_contra past
      rw [List.getElem?_eq_none (Nat.le_of_not_lt past)] at found
      cases found
    exact List.mem_filter.mpr ⟨List.mem_range.mpr bound, found⟩
  calc
    places.length
      ≤ ((List.range xs.length).filter (fun place => (xs[place]?).any p)).length :=
        (List.subperm_of_subset distinct inside).length_le
    _ = xs.countP p := by
        rw [← List.countP_eq_length_filter]
        clear inside mine distinct
        induction xs with
        | nil => rfl
        | cons x xs ih =>
            rw [List.length_cons, List.range_succ_eq_map, List.countP_cons, List.countP_map]
            simp only [List.getElem?_cons_zero, List.countP_cons]
            rw [← ih]
            congr 1

theorem exact_mark (queue : Queue) (log : Log) (entry : Entry) (place : Nat) (queued : Bool)
    (exact : Exact queue log) (inside : place < queue.buffers.length)
    (told : ∀ index, moved queue.bufType index entry = if place = index then some queued
      else none) :
    Exact (queue.mark place queued) (entry :: log) := by
  intro index
  show owns queue.bufType (entry :: log) index = _
  rw [owns, told index]
  simp only [Queue.mark, List.getElem?_modify]
  by_cases same : place = index
  · subst same
    simp [List.getElem?_eq_getElem inside]
  · simp [same, exact index]

theorem exact_still (queue : Queue) (log : Log) (entry : Entry) (exact : Exact queue log)
    (told : ∀ index, moved queue.bufType index entry = none) : Exact queue (entry :: log) := by
  intro index
  rw [owns, told index, Option.getD_none]
  exact exact index

theorem exact_back (queue : Queue) (log : Log) (entry : Entry)
    (told : ∀ index, moved queue.bufType index entry = some false)
    (unqueued : ∀ buffer ∈ queue.buffers, buffer.queued = false) : Exact queue (entry :: log) := by
  intro index
  rw [owns, told index, Option.getD_some]
  cases found : queue.buffers[index]? with
  | none => rfl
  | some buffer =>
      rw [Option.any_some, unqueued buffer (List.mem_of_getElem? found)]

theorem inFlight_mark (queue : Queue) (place : Nat) (queued : Bool) (buffer : Buffer)
    (found : queue.buffers[place]? = some buffer) :
    (queue.mark place queued).inFlight + (if buffer.queued then 1 else 0) =
      queue.inFlight + (if queued then 1 else 0) := by
  obtain ⟨bufType, buffers, streaming⟩ := queue
  simp only [Queue.inFlight, Queue.mark] at found ⊢
  induction buffers generalizing place with
  | nil => cases found
  | cons first rest ih =>
      cases place with
      | zero =>
          cases found
          simp only [List.modify_zero_cons, List.countP_cons]
          omega
      | succ place =>
          have later := ih place found
          simp only [List.modify_succ_cons, List.countP_cons]
          omega

theorem mark_length (queue : Queue) (place : Nat) (queued : Bool) :
    (queue.mark place queued).buffers.length = queue.buffers.length := by
  simp [Queue.mark]

/-- A queue of one type while calls are made over it; nothing of the other type has moved. -/
structure Loose (bufType : BufType) (start : Log) (wired : Wired) : Prop where
  type : wired.queue.bufType = bufType
  safe : Safe wired.log
  apart : ∀ other, other ≠ bufType → ∀ index,
    owns other wired.log index = owns other start index
  small : wired.queue.buffers.length < 2 ^ 32

structure Tight (bufType : BufType) (start : Log) (wired : Wired) : Prop extends
    Loose bufType start wired where
  exact : Exact wired.queue wired.log
  few : bufType = .output → wired.queue.inFlight ≤ maxInFlight

theorem loose_passes (bufType : BufType) (start : Log) (wired : Wired) (entry : Entry)
    (loose : Loose bufType start wired) (passes : Passes entry)
    (mine : ∀ other, other ≠ bufType → ∀ index, moved other index entry = none) :
    Loose bufType start { wired with log := entry :: wired.log } := by
  refine ⟨loose.type, safe_passes entry wired.log passes loose.safe, ?_, loose.small⟩
  intro other different index
  rw [owns, mine other different index, Option.getD_none]
  exact loose.apart other different index

theorem loose_still (bufType : BufType) (start : Log) (wired : Wired) (entry : Entry)
    (loose : Loose bufType start wired) (still : Still entry) :
    Loose bufType start { wired with log := entry :: wired.log } := by
  refine ⟨loose.type, safe_still entry wired.log still loose.safe, ?_, loose.small⟩
  intro other different index
  rw [owns_still entry wired.log still]
  exact loose.apart other different index

theorem tight_still (bufType : BufType) (start : Log) (wired : Wired) (entry : Entry)
    (tight : Tight bufType start wired) (still : Still entry) :
    Tight bufType start { wired with log := entry :: wired.log } :=
  { loose_still bufType start wired entry tight.toLoose still with
    exact := exact_still wired.queue wired.log entry tight.exact (still.1 _)
    few := tight.few }

theorem still_refused (request : Request) (error : IoError)
    (other : ∀ bufType index length bytesused timestampUs,
      request ≠ .qbuf bufType index length bytesused timestampUs) :
    Still (.asked request (.error error)) := by
  refine ⟨fun bufType index => ?_, fun bufType index length bytesused timestampUs answer same => ?_⟩
  · cases request <;> rfl
  · cases same
    exact other _ _ _ _ _ rfl

section Asking

variable (driver : Driver) (bufType : BufType) (start : Log)

theorem tight_dequeue (honest : driver.Honest) (queue : Queue) :
    Meets (fun wired => Tight bufType start wired ∧ wired.queue = queue) (Queue.dequeue driver)
      (fun reply wired => Tight bufType start wired ∧ match reply with
        | .buffer dequeued => wired.queue = queue.mark dequeued.index.toNat false ∧
            ∃ buffer, queue.buffers[dequeued.index.toNat]? = some buffer ∧ buffer.queued = true
        | _ => wired.queue = queue)
      (fun halt wired => halt.returned = true ∧ Tight bufType start wired ∧ wired.queue =
        queue) := by
  apply meets_get_bind
  rintro wired ⟨tight, rfl⟩
  apply meets_asked_bind
  · intro reply answer
    cases reply with
    | idle =>
        apply meets_pure
        rintro _ rfl
        exact ⟨tight_still bufType start wired _ tight ⟨fun _ _ => rfl, by simp⟩, rfl⟩
    | endOfSequence =>
        apply meets_pure
        rintro _ rfl
        exact ⟨tight_still bufType start wired _ tight ⟨fun _ _ => rfl, by simp⟩, rfl⟩
    | buffer dequeued =>
        have mine := honest wired.log wired.queue.bufType dequeued answer
        rw [tight.exact, Option.any_eq_true] at mine
        obtain ⟨buffer, found, queued⟩ := mine
        have inside : dequeued.index.toNat < wired.queue.buffers.length :=
          (List.getElem?_eq_some_iff.mp found).1
        have fewer := inFlight_mark wired.queue dequeued.index.toNat false buffer found
        simp only [found]
        rintro _ rfl
        refine ⟨⟨loose_passes bufType start ⟨wired.queue.mark dequeued.index.toNat false,
          wired.log⟩ _
          ⟨tight.type, tight.safe, tight.apart, (mark_length wired.queue _ _).symm ▸ tight.small⟩
          ⟨fun other index => ?_, by simp⟩ ?_, ?_, ?_⟩, rfl, buffer, found, queued⟩
        · simp only [moved]
          split <;> simp
        · intro other different index
          simp only [moved, tight.type, Ne.symm different, false_and, if_false]
        · exact exact_mark wired.queue wired.log _ _ false tight.exact inside
            (fun index => by simp [moved])
        · intro output
          have few := tight.few output
          have less : (wired.queue.mark dequeued.index.toNat false).inFlight ≤
              wired.queue.inFlight := by
            simp only [queued, if_true, Bool.false_eq_true, if_false] at fewer
            omega
          exact Nat.le_trans less few
  · intro error answer
    exact ⟨rfl, tight_still bufType start wired _ tight (still_refused _ error (by simp)), rfl⟩

theorem tight_queue (index : Nat) (bytesused : UInt32) (timestampUs : UInt64) (queue : Queue)
    (room : bufType = .output → queue.inFlight < maxInFlight) :
    Meets (fun wired => Tight bufType start wired ∧ wired.queue = queue)
      (Queue.queue driver index bytesused timestampUs)
      (fun _ wired => Tight bufType start wired ∧ wired.queue = queue.mark index true)
      (fun halt wired => halt.returned = true ∧ Tight bufType start wired ∧ wired.queue =
        queue) := by
  apply meets_get_bind
  rintro wired ⟨tight, rfl⟩
  cases found : wired.queue.buffers[index]? with
  | none =>
      apply meets_fail
      rintro _ rfl
      exact ⟨rfl, tight, rfl⟩
  | some buffer =>
      have inside : index < wired.queue.buffers.length := (List.getElem?_eq_some_iff.mp found).1
      have place : (UInt32.ofNat index).toNat = index := by
        have small := tight.small
        simp only [UInt32.toNat_ofNat']
        omega
      apply meets_ite
      · intro queued
        apply meets_fail
        rintro _ rfl
        exact ⟨rfl, tight, rfl⟩
      · intro unqueued
        have free : owns wired.queue.bufType wired.log index = false := by
          rw [tight.exact index, found]
          simpa using unqueued
        have respects (answer : Except IoError Unit) : Respects (.asked (.qbuf wired.queue.bufType
            (UInt32.ofNat index) (UInt32.ofNat buffer.mapping.len) bytesused timestampUs) answer)
            wired.log := by
          intro _ _ _ _ _ _ same
          cases same
          rw [place]
          exact free
        apply meets_asked_bind
        · intro reply answer
          rintro _ rfl
          have more := inFlight_mark wired.queue index true buffer found
          have exact := exact_mark wired.queue wired.log (.asked (.qbuf wired.queue.bufType
            (UInt32.ofNat index) (UInt32.ofNat buffer.mapping.len) bytesused timestampUs)
              (.ok reply))
            index true tight.exact inside (fun other => by simp only [moved, place, true_and])
          have few : bufType = .output →
              (wired.queue.mark index true).inFlight ≤ maxInFlight := by
            intro output
            have less := room output
            simp only [Bool.not_eq_true] at unqueued
            simp only [unqueued, if_true, Bool.false_eq_true, if_false] at more
            omega
          refine ⟨⟨⟨tight.type, ⟨tight.safe, ?_, respects _⟩, ?_,
            (mark_length wired.queue _ _).symm ▸ tight.small⟩, exact, few⟩, rfl⟩
          · intro held distinct mine
            cases bufType with
            | output =>
                refine Nat.le_trans (places_le _ Buffer.queued held distinct
                  (fun other member => ?_)) (few rfl)
                rw [← exact other]
                exact (congrArg (fun type => owns type _ other) tight.type).trans
                  (mine other member)
            | capture =>
                refine within_of_safe wired.log tight.safe held distinct (fun other member => ?_)
                have owned := mine other member
                simpa [owns, moved, tight.type] using owned
          · intro other different place_
            simp only [owns, moved, tight.type, Ne.symm different, false_and, if_false,
              Option.getD_none]
            exact tight.apart other different place_
        · intro error answer
          refine ⟨rfl, ⟨⟨tight.type, ⟨tight.safe, ?_, respects _⟩, tight.apart, tight.small⟩, ?_,
            tight.few⟩, rfl⟩
          · exact within_of_safe wired.log tight.safe
          · exact exact_still wired.queue wired.log _ tight.exact (fun _ => rfl)

theorem loose_back (wired : Wired) (entry : Entry) (loose : Loose bufType start wired)
    (told : ∀ other index, moved other index entry =
      if bufType = other then some false else none)
    (unqueued : ∀ type index length bytesused timestampUs answer,
      entry ≠ .asked (.qbuf type index length bytesused timestampUs) answer) :
    Loose bufType start { wired with log := entry :: wired.log } := by
  apply loose_passes bufType start wired entry loose
  · refine ⟨fun other index => ?_, unqueued⟩
    rw [told]
    split <;> simp
  · intro other different index
    rw [told, if_neg (Ne.symm different)]

theorem tight_streamOff (wired : Wired) (loose : Loose bufType start wired) :
    Meets (fun w => w = wired) (Queue.streamOff driver)
      (fun _ w => Tight bufType start w ∧ w.queue.buffers.length = wired.queue.buffers.length)
      (fun halt w => halt.returned = true ∧ Loose bufType start w) := by
  apply meets_get_at
  apply meets_asked_bind
  · intro reply answer
    rintro _ rfl
    have back :=
      loose_back bufType start wired (.asked (.streamoff wired.queue.bufType) (.ok reply))
      loose (fun other index => by simp only [moved, loose.type]) (by simp)
    refine ⟨⟨⟨back.type, back.safe, back.apart, ?_⟩, ?_, ?_⟩, ?_⟩
    · simpa using loose.small
    · exact exact_back _ wired.log _ (fun index => if_pos rfl) (by simp)
    · intro _
      simp [Queue.inFlight, List.countP_map, Function.comp_def]
    · simp
  · intro error answer
    exact ⟨rfl, loose_still bufType start wired _ loose (still_refused _ error (by simp))⟩

theorem tight_streamOn (wired : Wired) (tight : Tight bufType start wired) :
    Meets (fun w => w = wired) (Queue.streamOn driver)
      (fun _ w => Tight bufType start w ∧ w.queue.buffers = wired.queue.buffers)
      (fun halt w => halt.returned = true ∧ Tight bufType start w) := by
  apply meets_get_at
  apply meets_asked_bind
  · intro reply answer
    rintro _ rfl
    have still :=
      tight_still bufType start wired (.asked (.streamon wired.queue.bufType) (.ok reply))
      tight ⟨fun _ _ => rfl, by simp⟩
    exact ⟨⟨⟨still.type, still.safe, still.apart, still.small⟩, still.exact, still.few⟩, rfl⟩
  · intro error answer
    exact ⟨rfl, tight_still bufType start wired _ tight (still_refused _ error (by simp))⟩

theorem loose_release (wired : Wired) (loose : Loose bufType start wired) :
    Meets (fun w => w = wired) (Queue.release driver) (fun _ w => Loose bufType start w)
      (fun halt w => halt.returned = true ∧ Loose bufType start w) := by
  apply meets_get_at
  refine meets_bind (fun _ w => Loose bufType start w) ?_ (fun _ => ?_)
  · apply meets_ite
    · intro streaming
      exact meets_mono (tight_streamOff driver bufType start wired loose) (fun _ same => same)
        (fun _ w after => after.1.toLoose) (fun _ w after => after)
    · intro stopped
      apply meets_pure
      rintro _ rfl
      exact loose
  · refine meets_modify_bind (Loose bufType start) (fun w before =>
      ⟨before.type, before.safe, before.apart, Nat.two_pow_pos 32⟩) ?_
    rw [loose.type]
    refine meets_bind (fun _ => Loose bufType start) (meets_asked driver (.reqbufs bufType 0) ?_ ?_)
      (fun _ => meets_pure _ (fun _ after => after))
    · intro w before reply answer
      exact loose_back bufType start w _ before (fun other index => rfl) (by simp)
    · intro w before error answer
      exact ⟨rfl, loose_still bufType start w _ before (still_refused _ error (by simp))⟩

/-- Buffers the driver has not been given yet. -/
def Fresh (length : Nat) (wired : Wired) : Prop :=
  Tight bufType start wired ∧ wired.queue.inFlight = 0 ∧ wired.queue.buffers.length = length

theorem fresh_asked (length : Nat) (request : Request)
    (quiet : ∀ answer, Still (.asked request answer)) :
    Meets (Fresh bufType start length) (Queue.ops (driver.call request))
      (fun _ => Fresh bufType start length)
      (fun halt w => halt.returned = true ∧ Loose bufType start w) := by
  apply meets_asked
  · intro w fresh reply answer
    exact ⟨tight_still bufType start w _ fresh.1 (quiet _), fresh.2⟩
  · intro w fresh error answer
    exact ⟨rfl, loose_still bufType start w _ fresh.1.toLoose (quiet _)⟩

theorem fresh_allocateFrom (exports : Bool) (index left : Nat) (room : index + left < 2 ^ 32) :
    Meets (Fresh bufType start index) (Queue.allocateFrom driver bufType exports index left)
      (fun _ => Fresh bufType start (index + left))
      (fun halt w => halt.returned = true ∧ Loose bufType start w) := by
  induction left generalizing index with
  | zero => exact meets_pure _ (fun w fresh => fresh)
  | succ left ih =>
      refine meets_bind _ (fresh_asked driver bufType start index _
        (fun _ => ⟨fun _ _ => rfl, by simp⟩)) (fun info => ?_)
      refine meets_bind (fun _ => Fresh bufType start index) ?_ (fun mapping => ?_)
      · apply meets_on
        intro w fresh
        refine meets_bind _ (meets_call driver (.mmap info.length.toNat info.memOffset) ?_ ?_)
          (fun _ => meets_pure _ (fun _ after => after))
        · rintro _ rfl reply answer
          exact ⟨tight_still bufType start w _ fresh.1 ⟨fun _ _ => rfl, by simp⟩, fresh.2⟩
        · rintro _ rfl error answer
          exact ⟨rfl, loose_still bufType start w _ fresh.1.toLoose ⟨fun _ _ => rfl, by simp⟩⟩
      refine meets_bind (fun _ => Fresh bufType start index) ?_ (fun _ => ?_)
      · apply meets_ite
        · exact fun _ => fresh_asked driver bufType start index _ (fun _ =>
            ⟨fun _ _ => rfl, by simp⟩)
        · exact fun _ => meets_pure _ (fun w fresh => fresh)
      refine meets_modify_bind (Fresh bufType start (index + 1)) ?_ ?_
      · rintro w ⟨tight, idle, length⟩
        have few : (w.queue.buffers ++ [(⟨mapping, false⟩ : Buffer)]).countP Buffer.queued = 0 := by
          rw [List.countP_append, Nat.add_eq_zero_iff]
          exact ⟨idle, rfl⟩
        refine ⟨⟨⟨tight.type, tight.safe, tight.apart, ?_⟩, ?_, fun _ => ?_⟩, few, ?_⟩
        · simp only [List.length_append, List.length_singleton, length]
          omega
        · intro place
          refine (tight.exact place).trans ?_
          rcases Nat.lt_trichotomy place w.queue.buffers.length with before | rfl | after
          · rw [List.getElem?_append_left before]
          · simp
          · rw [List.getElem?_eq_none (Nat.le_of_lt after), List.getElem?_eq_none]
            simpa using Nat.succ_le_of_lt after
        · exact Nat.le_trans (Nat.le_of_eq few) (Nat.zero_le _)
        · simp [length]
      · rw [← Nat.add_assoc, Nat.add_right_comm] at room ⊢
        exact ih (index + 1) room

theorem fresh_allocate (count : UInt32) (exports : Bool) (wired : Wired)
    (loose : Loose bufType start wired) :
    Meets (fun w => w = wired) (Queue.allocate driver count exports)
      (fun _ w => Tight bufType start w)
      (fun halt w => halt.returned = true ∧ Loose bufType start w) := by
  apply meets_get_at
  apply meets_asked_bind
  · intro granted answer
    refine meets_modify_bind (Fresh bufType start 0) ?_ ?_
    · rintro _ rfl
      have back := loose_back bufType start wired
        (.asked (.reqbufs wired.queue.bufType count) (.ok granted)) loose
        (fun other index => by simp only [moved, loose.type]) (by simp)
      refine ⟨⟨⟨back.type, back.safe, back.apart, Nat.two_pow_pos 32⟩, ?_, fun _ => Nat.zero_le _⟩,
        rfl, rfl⟩
      exact exact_back _ wired.log _ (fun index => if_pos rfl) (by simp)
    · have room : 0 + granted.toNat < 2 ^ 32 := by
        rw [Nat.zero_add]
        exact granted.toNat_lt
      rw [loose.type]
      exact meets_mono (fresh_allocateFrom driver bufType start exports 0 granted.toNat room)
        (fun _ before => before) (fun _ _ fresh => fresh.1) (fun _ _ early => early)
  · intro error answer
    exact ⟨rfl, loose_still bufType start wired _ loose (still_refused _ error (by simp))⟩

/-- An error that is returned, and not that of a decoder without a free output buffer. -/
def Plain (halt : Halt Fault) : Prop :=
  halt.returned = true ∧ halt ≠ .fault noFreeOutputBuffer

theorem meets_context {σ α : Type} {text : String} {call : Call IoError σ α} {before : σ → Prop}
    {done : α → σ → Prop} {left : σ → Prop}
    (meets : Meets before call done (fun halt s => halt.returned = true ∧ left s)) :
    Meets before (context text call) done (fun halt s => Plain halt ∧ left s) :=
  meets_mapError meets (fun _ _ early => ⟨⟨rfl, nofun⟩, early.2⟩) (fun _ early => nomatch early.1)
    (fun _ early => nomatch early.1)

theorem tight_queueFrom (index left : Nat) :
    Meets (Tight .capture start) (queueFrom driver index left) (fun _ => Tight .capture start)
      (fun halt w => Plain halt ∧ Tight .capture start w) := by
  induction left generalizing index with
  | zero => exact meets_pure _ (fun w tight => tight)
  | succ left ih =>
      refine meets_bind (fun _ => Tight .capture start) (meets_context ?_)
        (fun _ => ih (index + 1))
      apply meets_each
      intro w tight
      exact meets_mono (tight_queue driver .capture start index 0 0 w.queue nofun)
        (by rintro _ rfl; exact ⟨tight, rfl⟩) (fun _ _ after => after.1)
        (fun _ _ early => ⟨early.1, early.2.1⟩)

theorem tight_queueAllAndStart :
    Meets (Tight .capture start) (queueAllAndStart driver) (fun _ => Tight .capture start)
      (fun halt w => Plain halt ∧ Tight .capture start w) := by
  apply meets_get_bind
  rintro w tight
  refine meets_bind (fun _ => Tight .capture start)
    (meets_mono (tight_queueFrom driver start 0 _) (fun _ same => same ▸ tight)
    (fun _ _ after => after)
      (fun _ _ early => early)) (fun _ => meets_context ?_)
  apply meets_each
  intro next after
  exact meets_mono (tight_streamOn driver .capture start next after) (fun _ same => same)
    (fun _ _ on => on.1) (fun _ _ early => early)

theorem tight_startOrRelease (count : UInt32) :
    Meets (Loose .capture start) (startOrRelease driver count) (fun _ => Tight .capture start)
      (fun halt w => Plain halt ∧ Loose .capture start w) := by
  have started : Meets (Loose .capture start) (allocateAndStart driver count)
      (fun _ => Tight .capture start)
      (fun halt w => Plain halt ∧ Loose .capture start w) := by
    refine meets_bind (fun _ => Tight .capture start) (meets_context ?_) (fun _ => ?_)
    · apply meets_each
      intro w loose
      exact fresh_allocate driver .capture start count true w loose
    · exact meets_mono (tight_queueAllAndStart driver start) (fun _ before => before)
        (fun _ _ after => after) (fun _ _ early => ⟨early.1, early.2.toLoose⟩)
  refine meets_bind (Handed (fun _ => Tight .capture start)
    (fun fault w => Plain (.fault fault) ∧ Loose .capture start w)) ?_ (fun result => ?_)
  · exact meets_attempt _ _ started (fun _ _ after => after) (fun _ _ early => early)
      (fun _ early => nomatch early.1.1) (fun _ early => nomatch early.1.1)
  · cases result with
    | ok value => exact meets_pure _ (fun w tight => tight)
    | error fault =>
        apply meets_each
        rintro w ⟨plain, loose⟩
        refine meets_bind (fun _ => Loose .capture start) ?_
          (fun _ => meets_fail _ (fun w loose => ⟨plain, loose⟩))
        exact meets_attempt _ _ (loose_release driver .capture start w loose)
          (fun _ _ after => after) (fun _ _ early => early.2) (fun _ early => nomatch early.1)
          (fun _ early => nomatch early.1)

end Asking

end Castr.V4l2
