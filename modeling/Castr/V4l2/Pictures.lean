import Castr.V4l2.Flags

/-! The frames that come out are the pictures the driver gave, in its order.

`shown` reads them off the log alone: what a buffer showed when it was dequeued follows from the
format, the rectangle and the mappings the driver reported last. -/

namespace Castr.V4l2

open Castr.Lib.Calls

structure Seen where
  formats : Nat
  coded : FormatInfo
  visible : Rect
  mappings : List Mapping
  deriving DecidableEq

namespace Seen

def compose (coded : FormatInfo) : Except IoError Rect → Rect
  | .ok rect => if 0 < rect.width ∧ 0 < rect.height then rect else ⟨0, 0, coded.width, coded.height⟩
  | .error _ => ⟨0, 0, coded.width, coded.height⟩

def next (seen : Seen) : Entry → Seen
  | .asked (.sFmt .capture _) (.ok coded) =>
      { seen with formats := seen.formats + 1, coded, visible := ⟨0, 0, coded.width, coded.height⟩ }
  | .asked (.gSelectionCompose .capture) answer =>
      { seen with visible := compose seen.coded answer }
  | .asked (.reqbufs .capture _) (.ok _) => { seen with mappings := [] }
  | .asked (.querybuf .capture _) (.ok info) =>
      { seen with mappings := seen.mappings ++ [⟨info.length.toNat, info.memOffset⟩] }
  | _ => seen

/-- The picture lies inside the coded one, and that inside the mapping. -/
def Fits (seen : Seen) (mapping : Mapping) : Prop :=
  seen.coded.bytesperline.toNat * seen.coded.height.toNat * 3 / 2 ≤ mapping.len ∧
    seen.visible.top.toNat + seen.visible.height.toNat ≤ seen.coded.height.toNat ∧
    seen.visible.left.toNat + seen.visible.width.toNat ≤ seen.coded.bytesperline.toNat

instance (seen : Seen) (mapping : Mapping) : Decidable (seen.Fits mapping) :=
  inferInstanceAs (Decidable (_ ∧ _ ∧ _))

def pixels (seen : Seen) (src : Nat → UInt8) : List UInt8 :=
  let stride := seen.coded.bytesperline.toNat
  let corner := seen.visible.left.toNat
  plane src stride seen.visible.width.toNat (seen.visible.top.toNat * stride + corner)
      seen.visible.height.toNat ++
    plane src stride seen.visible.width.toNat
      (stride * seen.coded.height.toNat + seen.visible.top.toNat / 2 * stride + corner)
      (seen.visible.height.toNat / 2)

/-- The first format is that of the provisional queue, which shows nothing. -/
def frame (seen : Seen) (dequeued : Dequeued) (memory : Mapping → Nat → UInt8) : Option RawFrame :=
  (seen.mappings[dequeued.index.toNat]?).bind (fun mapping =>
    if 2 ≤ seen.formats ∧ dequeued.bytesused ≠ 0 ∧ seen.Fits mapping then some {
      format := .nv12
      width := seen.visible.width
      height := seen.visible.height
      stride := seen.visible.width
      data := seen.pixels (memory mapping)
      timestampUs := dequeued.timestampUs }
    else none)

end Seen

def seen : Log → Seen
  | [] => ⟨0, ⟨0, 0, 0, 0, 0⟩, ⟨0, 0, 0, 0⟩, []⟩
  | entry :: log => (seen log).next entry

/-- The capture buffer that an entry takes from the driver. -/
def taken : Entry → Option Dequeued
  | .asked (.dqbuf .capture) (.ok (.buffer dequeued)) => some dequeued
  | _ => none

/-- The driver does not take the buffer back, and not for its size. -/
def lost (index : UInt32) : Entry → Bool
  | .asked (.qbuf .capture place _ _ _) (.error error) => place = index ∧ error ≠ .os einval
  | _ => false

def shownBefore (driver : Driver) (after : Option Entry) : Log → List RawFrame
  | [] => []
  | entry :: log => shownBefore driver (some entry) log ++ (match taken entry with
      | some dequeued =>
          if after.any (lost dequeued.index) then []
          else ((seen log).frame dequeued (driver.memory (entry :: log))).toList
      | none => [])

def shown (driver : Driver) (log : Log) : List RawFrame := shownBefore driver none log

section Shown

variable (driver : Driver)

theorem shownBefore_eq (entry : Entry) (log : Log) (kind : ∀ index, lost index entry = false) :
    shownBefore driver (some entry) log = shown driver log := by
  cases log with
  | nil => rfl
  | cons head log => simp [shown, shownBefore, kind]

def Settled (log : Log) : Prop := ∀ entry rest, log = entry :: rest → taken entry = none

theorem shownBefore_settled (entry : Entry) (log : Log) (settled : Settled log) :
    shownBefore driver (some entry) log = shown driver log := by
  cases log with
  | nil => rfl
  | cons head log => simp [shown, shownBefore, settled head log rfl]

theorem shown_cons (entry : Entry) (log : Log) (kind : ∀ index, lost index entry = false)
    (untaken : taken entry = none) : shown driver (entry :: log) = shown driver log := by
  rw [shown, shownBefore, shownBefore_eq driver entry log kind, untaken, List.append_nil]

theorem shown_taken (log : Log) (dequeued : Dequeued) :
    shown driver (.asked (.dqbuf .capture) (.ok (.buffer dequeued)) :: log) =
      shown driver log ++ ((seen log).frame dequeued
        (driver.memory (.asked (.dqbuf .capture) (.ok (.buffer dequeued)) :: log))).toList := by
  rw [shown, shownBefore, shownBefore_eq driver _ log (fun _ => rfl)]
  rfl

theorem shown_refused (log : Log) (dequeued : Dequeued) (length bytesused : UInt32)
    (timestampUs : UInt64) (error : IoError) :
    shown driver (.asked (.qbuf .capture dequeued.index length bytesused timestampUs)
      (.error error) ::
        .asked (.dqbuf .capture) (.ok (.buffer dequeued)) :: log) =
      if error = .os einval then
        shown driver (.asked (.dqbuf .capture) (.ok (.buffer dequeued)) :: log)
      else shown driver log := by
  rw [shown_taken, shown, shownBefore, shownBefore, shownBefore_eq driver _ log (fun _ => rfl)]
  by_cases size : error = .os einval
  · simp [taken, lost, size]
  · simp [taken, lost, size]

end Shown

theorem rows_inside (stride codedH top left w h len : Nat) (coded : stride * codedH * 3 / 2 ≤ len)
    (rows : top + h ≤ codedH) (columns : left + w ≤ stride) :
    (h = 0 ∨ top * stride + left + (h - 1) * stride + w ≤ len) ∧
      (h / 2 = 0 ∨
        stride * codedH + top / 2 * stride + left + (h / 2 - 1) * stride + w ≤ len) := by
  have whole : stride * codedH + stride * (codedH / 2) ≤ len := by
    refine Nat.le_trans ?_ coded
    have half : 2 * (stride * (codedH / 2)) ≤ stride * codedH := by
      rw [Nat.mul_left_comm]
      exact Nat.mul_le_mul_left stride (Nat.mul_div_le codedH 2)
    omega
  constructor
  · rcases Nat.eq_zero_or_pos h with empty | tall
    · exact .inl empty
    · right
      have last : (top + (h - 1) + 1) * stride ≤ stride * codedH := by
        rw [Nat.mul_comm]
        exact Nat.mul_le_mul_left stride (by omega)
      rw [Nat.add_mul, Nat.add_mul] at last
      omega
  · rcases Nat.eq_zero_or_pos (h / 2) with empty | tall
    · exact .inl empty
    · right
      have last : (top / 2 + (h / 2 - 1) + 1) * stride ≤ stride * (codedH / 2) := by
        rw [Nat.mul_comm]
        exact Nat.mul_le_mul_left stride (by omega)
      rw [Nat.add_mul, Nat.add_mul] at last
      omega

structure View (cap : Capture) (seen : Seen) : Prop where
  coded : cap.coded = seen.coded
  visible : cap.visible = seen.visible
  provisional : cap.provisional = decide (seen.formats < 2)
  formats : 1 ≤ seen.formats
  mappings : cap.queue.buffers.map Buffer.mapping = seen.mappings
  type : cap.queue.bufType = .capture

theorem mark_mappings (queue : Queue) (place : Nat) (queued : Bool) :
    (queue.mark place queued).buffers.map Buffer.mapping = queue.buffers.map Buffer.mapping := by
  refine List.ext_getElem? (fun index => ?_)
  simp only [Queue.mark, List.getElem?_map, List.getElem?_modify]
  cases queue.buffers[index]? with
  | none => rfl
  | some buffer =>
      by_cases same : place = index <;> simp [same]

theorem view_mark (cap : Capture) (v : Seen) (view : View cap v) (place : Nat) (queued : Bool) :
    View { cap with queue := cap.queue.mark place queued } v :=
  { view with mappings := (mark_mappings cap.queue place queued).trans view.mappings }

theorem frame_found (v : Seen) (dequeued : Dequeued) (memory : Mapping → Nat → UInt8)
    (mapping : Mapping) (found : v.mappings[dequeued.index.toNat]? = some mapping) :
    v.frame dequeued memory =
      if 2 ≤ v.formats ∧ dequeued.bytesused ≠ 0 ∧ v.Fits mapping then some {
        format := .nv12
        width := v.visible.width
        height := v.visible.height
        stride := v.visible.width
        data := v.pixels (memory mapping)
        timestampUs := dequeued.timestampUs }
      else none := by
  rw [Seen.frame, found, Option.bind_some]

theorem copyPlanes_fits (v : Seen) (mapping : Mapping) (src : Nat → UInt8) (fits : v.Fits mapping) :
    copyPlanes src mapping.len v.coded.bytesperline.toNat v.visible.width.toNat
      (v.visible.top.toNat * v.coded.bytesperline.toNat + v.visible.left.toNat,
        v.visible.height.toNat)
      (v.coded.bytesperline.toNat * v.coded.height.toNat +
        v.visible.top.toNat / 2 * v.coded.bytesperline.toNat + v.visible.left.toNat,
        v.visible.height.toNat / 2) = some (v.pixels src) := by
  rw [copyPlanes, if_pos (rows_inside _ _ _ _ _ _ _ fits.1 fits.2.1 fits.2.2)]
  rfl

/-- What is copied out of a buffer is what it shows; what is not copied shows nothing. -/
theorem picture_frame (cap : Capture) (v : Seen) (view : View cap v)
    (small : ∀ mapping ∈ v.mappings, mapping.len < 2 ^ 32) (dequeued : Dequeued)
    (memory : Mapping → Nat → UInt8) (buffer : Buffer)
    (found : cap.queue.buffers[dequeued.index.toNat]? = some buffer) :
    match cap.picture dequeued memory with
    | .taken frame => frame = v.frame dequeued memory
    | _ => v.frame dequeued memory = none := by
  have there : v.mappings[dequeued.index.toNat]? = some buffer.mapping := by
    rw [← view.mappings, List.getElem?_map, found, Option.map_some]
  have short := small _ (List.mem_of_getElem? there)
  rw [frame_found v dequeued memory buffer.mapping there, Capture.picture]
  simp only [found, view.coded, view.visible, view.provisional]
  by_cases provisional : v.formats < 2
  · have early : ¬ 2 ≤ v.formats := Nat.not_le.mpr provisional
    simp [provisional, early]
  by_cases empty : dequeued.bytesused = 0
  · simp [provisional, empty]
  have configured : 2 ≤ v.formats := Nat.le_of_not_lt provisional
  simp only [provisional, decide_false, Bool.false_eq_true, if_false, configured, ne_eq,
    empty, not_false_eq_true, true_and]
  by_cases huge : 2 ^ 64 ≤ v.coded.bytesperline.toNat * v.coded.height.toNat * 3
  · rw [if_pos huge]
    have outside : ¬ v.Fits buffer.mapping := fun fits => by
      have coded := fits.1
      omega
    exact if_neg outside
  rw [if_neg huge]
  by_cases fits : v.Fits buffer.mapping
  · have inside :
      ¬ (buffer.mapping.len < v.coded.bytesperline.toNat * v.coded.height.toNat * 3 / 2 ∨
        v.coded.height.toNat < v.visible.top.toNat + v.visible.height.toNat ∨
        v.coded.bytesperline.toNat < v.visible.left.toNat + v.visible.width.toNat) := by
      obtain ⟨coded, rows, columns⟩ := fits
      omega
    rw [if_neg inside, copyPlanes_fits v buffer.mapping _ fits, if_pos fits]
  · have outside : buffer.mapping.len < v.coded.bytesperline.toNat * v.coded.height.toNat * 3 / 2 ∨
        v.coded.height.toNat < v.visible.top.toNat + v.visible.height.toNat ∨
        v.coded.bytesperline.toNat < v.visible.left.toNat + v.visible.width.toNat := by
      unfold Seen.Fits at fits
      omega
    rw [if_pos outside]
    exact if_neg fits

theorem seen_small (log : Log) : ∀ mapping ∈ (seen log).mappings, mapping.len < 2 ^ 32 := by
  induction log with
  | nil => exact fun _ member => nomatch member
  | cons entry log ih =>
      intro mapping member
      rw [seen] at member
      unfold Seen.next at member
      split at member
      · exact ih mapping member
      · exact ih mapping member
      · cases member
      · rename_i info
        rcases List.mem_append.mp member with old | new
        · exact ih mapping old
        · rw [List.mem_singleton.mp new]
          exact info.length.toNat_lt
      · exact ih mapping member

/-- The pictures so far, and all the driver said of its capture side but for the mappings; the
last entry takes no buffer that could still be lost. -/
structure Told (driver : Driver) (frames : List RawFrame) (v : Seen) (log : Log) : Prop where
  pictures : shown driver log = frames
  settled : Settled log
  reported : seen log = { v with mappings := (seen log).mappings }

structure Calm (entry : Entry) : Prop where
  taken : taken entry = none
  lost : ∀ index, lost index entry = false

structure Mild (entry : Entry) : Prop extends Calm entry where
  reported : ∀ v : Seen, v.next entry = { v with mappings := (v.next entry).mappings }

structure Quiet (entry : Entry) : Prop extends Calm entry where
  reported : ∀ v : Seen, v.next entry = v

theorem mild_of_quiet (entry : Entry) (quiet : Quiet entry) : Mild entry :=
  ⟨quiet.toCalm, fun v => by rw [quiet.reported]⟩

theorem settled_cons (entry : Entry) (log : Log) (untaken : taken entry = none) :
    Settled (entry :: log) := by
  rintro _ _ ⟨rfl, rfl⟩
  exact untaken

/-- A queue that has the mappings the driver reported, but for those that are due. -/
structure Has (driver : Driver) (frames : List RawFrame) (v : Seen) (due : List Mapping)
    (wired : Wired) : Prop extends Told driver frames v wired.log where
  type : wired.queue.bufType = .capture
  mappings : wired.queue.buffers.map Buffer.mapping ++ due = (seen wired.log).mappings

section Capturing

variable (driver : Driver) (frames : List RawFrame) (v : Seen)

theorem shown_calm (entry : Entry) (log : Log) (calm : Calm entry)
    (pictures : shown driver log = frames) : shown driver (entry :: log) = frames :=
  (shown_cons driver entry log calm.lost calm.taken).trans pictures

theorem told_mild (entry : Entry) (log : Log) (mild : Mild entry)
    (pictures : shown driver log = frames)
    (reported : seen log = { v with mappings := (seen log).mappings }) :
    Told driver frames v (entry :: log) := by
  refine ⟨shown_calm driver frames entry log mild.toCalm pictures,
    settled_cons entry log mild.taken, ?_⟩
  rw [seen, mild.reported, reported]

theorem has_quiet (due : List Mapping) (wired : Wired) (entry : Entry)
    (has : Has driver frames v due wired) (quiet : Quiet entry) :
    Has driver frames v due { wired with log := entry :: wired.log } := by
  refine ⟨told_mild driver frames v entry wired.log (mild_of_quiet entry quiet) has.pictures
    has.reported, has.type, ?_⟩
  rw [has.mappings]
  exact congrArg Seen.mappings (quiet.reported _).symm

theorem told_call (request : Request) (mild : ∀ answer, Mild (.asked request answer)) :
    Meets (Told driver frames v) (driver.call request) (fun _ => Told driver frames v)
      (fun _ => Told driver frames v) := by
  apply meets_call
  · exact fun log told reply answer =>
      told_mild driver frames v _ log (mild _) told.pictures told.reported
  · exact fun log told error answer =>
      told_mild driver frames v _ log (mild _) told.pictures told.reported

theorem has_queue (index : Nat) (bytesused : UInt32) (timestampUs : UInt64) :
    Meets (Has driver frames v []) (Queue.queue driver index bytesused timestampUs)
      (fun _ => Has driver frames v []) (fun _ w => shown driver w.log = frames) := by
  apply meets_get_bind
  intro wired has
  cases found : wired.queue.buffers[index]? with
  | none =>
      apply meets_fail
      rintro _ rfl
      exact has.pictures
  | some buffer =>
      apply meets_ite
      · intro queued
        apply meets_fail
        rintro _ rfl
        exact has.pictures
      · intro unqueued
        apply meets_asked_bind
        · intro reply answer
          rintro _ rfl
          have next := has_quiet driver frames v [] wired (.asked (.qbuf wired.queue.bufType
            (UInt32.ofNat index) (UInt32.ofNat buffer.mapping.len) bytesused timestampUs)
              (.ok reply))
            has ⟨⟨rfl, fun _ => by cases wired.queue.bufType <;> rfl⟩, fun _ => rfl⟩
          refine ⟨next.toTold, next.type, ?_⟩
          rw [mark_mappings]
          exact next.mappings
        · intro error answer
          rw [shown, shownBefore, shownBefore_settled driver _ _ has.settled, has.pictures]
          exact List.append_nil frames

theorem left_context {σ α : Type} {text : String} {call : Call IoError σ α} {before : σ → Prop}
    {done : α → σ → Prop} {left : σ → Prop} (meets : Meets before call done (fun _ => left)) :
    Meets before (context text call) done (fun _ => left) :=
  meets_mapError meets (fun _ _ early => early) (fun _ early => early) (fun _ early => early)

theorem has_queueFrom (index left : Nat) :
    Meets (Has driver frames v []) (queueFrom driver index left) (fun _ => Has driver frames v [])
      (fun _ w => shown driver w.log = frames) := by
  induction left generalizing index with
  | zero => exact meets_pure _ (fun _ has => has)
  | succ left ih =>
      exact meets_bind (fun _ => Has driver frames v [])
        (left_context (has_queue driver frames v index 0 0)) (fun _ => ih (index + 1))

theorem has_streamOn :
    Meets (Has driver frames v []) (Queue.streamOn driver) (fun _ => Has driver frames v [])
      (fun _ w => shown driver w.log = frames) := by
  apply meets_get_bind
  intro wired has
  apply meets_asked_bind
  · intro reply answer
    rintro _ rfl
    have next := has_quiet driver frames v [] wired (.asked (.streamon wired.queue.bufType)
      (.ok reply))
      has ⟨⟨rfl, fun _ => rfl⟩, fun _ => rfl⟩
    exact ⟨next.toTold, next.type, next.mappings⟩
  · intro error answer
    exact shown_calm driver frames _ wired.log ⟨rfl, fun _ => rfl⟩ has.pictures

theorem has_queueAllAndStart :
    Meets (Has driver frames v []) (queueAllAndStart driver) (fun _ => Has driver frames v [])
      (fun _ w => shown driver w.log = frames) := by
  apply meets_get_bind
  intro wired has
  refine meets_bind (fun _ => Has driver frames v []) ?_
    (fun _ => left_context (has_streamOn driver frames v))
  exact meets_mono (has_queueFrom driver frames v 0 _) (by rintro _ rfl; exact has)
    (fun _ _ after => after) (fun _ _ early => early)

theorem has_allocateFrom (exports : Bool) (index left : Nat) :
    Meets (Has driver frames v []) (Queue.allocateFrom driver .capture exports index left)
      (fun _ => Has driver frames v []) (fun _ w => shown driver w.log = frames) := by
  induction left generalizing index with
  | zero => exact meets_pure _ (fun _ has => has)
  | succ left ih =>
      refine meets_bind (fun info => Has driver frames v [⟨info.length.toNat, info.memOffset⟩]) ?_
        (fun info => ?_)
      · apply meets_asked
        · intro wired has info answer
          have mild : Mild (.asked (.querybuf .capture (UInt32.ofNat index)) (.ok info)) :=
            ⟨⟨rfl, fun _ => rfl⟩, fun _ => rfl⟩
          refine ⟨told_mild driver frames v _ wired.log mild has.pictures has.reported,
            has.type, ?_⟩
          rw [← List.append_nil (List.map _ _), has.mappings]
          rfl
        · exact fun wired has error answer =>
            shown_calm driver frames _ wired.log ⟨rfl, fun _ => rfl⟩ has.pictures
      refine meets_bind (fun mapping => Has driver frames v [mapping]) ?_ (fun mapping => ?_)
      · apply meets_on
        intro wired has
        refine meets_bind _ (meets_call driver (.mmap info.length.toNat info.memOffset) ?_ ?_)
          (fun _ => meets_pure _ (fun _ after => after))
        · rintro _ rfl reply answer
          exact has_quiet driver frames v _ wired _ has ⟨⟨rfl, fun _ => rfl⟩, fun _ => rfl⟩
        · rintro _ rfl error answer
          exact shown_calm driver frames _ wired.log ⟨rfl, fun _ => rfl⟩ has.pictures
      refine meets_bind (fun _ => Has driver frames v [mapping]) ?_ (fun _ => ?_)
      · apply meets_ite
        · intro _
          apply meets_asked
          · exact fun wired has reply answer =>
              has_quiet driver frames v _ wired _ has ⟨⟨rfl, fun _ => rfl⟩, fun _ => rfl⟩
          · exact fun wired has error answer =>
              shown_calm driver frames _ wired.log ⟨rfl, fun _ => rfl⟩ has.pictures
        · exact fun _ => meets_pure _ (fun _ has => has)
      · refine meets_modify_bind (Has driver frames v []) (fun wired has => ?_) (ih (index + 1))
        refine ⟨has.toTold, has.type, ?_⟩
        rw [List.append_nil, List.map_append]
        exact has.mappings

theorem has_allocate (count : UInt32) (exports : Bool) :
    Meets (fun w => Told driver frames v w.log ∧ w.queue.bufType = .capture)
      (Queue.allocate driver count exports) (fun _ => Has driver frames v [])
      (fun _ w => shown driver w.log = frames) := by
  apply meets_get_bind
  rintro wired ⟨told, type⟩
  rw [type]
  refine meets_bind (fun _ w => Told driver frames v w.log ∧ w.queue.bufType = .capture ∧
    (seen w.log).mappings = []) ?_ (fun granted => ?_)
  · apply meets_asked
    · rintro w rfl granted answer
      exact ⟨told_mild driver frames v _ w.log ⟨⟨rfl, fun _ => rfl⟩, fun _ => rfl⟩ told.pictures
        told.reported, type, rfl⟩
    · rintro w rfl error answer
      exact shown_calm driver frames _ w.log ⟨rfl, fun _ => rfl⟩ told.pictures
  · refine meets_modify_bind (Has driver frames v []) ?_ (has_allocateFrom driver frames v
      exports 0 _)
    rintro w ⟨told, type, empty⟩
    exact ⟨told, type, empty.symm⟩

theorem mild_release (kept : Log → Prop)
    (closed : ∀ entry log, Mild entry → kept log → kept (entry :: log)) :
    Meets (fun w => kept w.log) (Queue.release driver) (fun _ w => kept w.log)
      (fun _ w => kept w.log) := by
  apply meets_get_bind
  intro wired holds
  refine meets_bind (fun _ w => kept w.log) ?_ (fun _ => ?_)
  · apply meets_ite
    · intro streaming
      apply meets_get_at
      apply meets_asked_bind
      · rintro reply answer _ rfl
        exact closed _ wired.log ⟨⟨rfl, fun _ => rfl⟩, fun _ => rfl⟩ holds
      · intro error answer
        exact closed _ wired.log ⟨⟨rfl, fun _ => rfl⟩, fun _ => rfl⟩ holds
    · exact fun stopped => meets_pure _ (by rintro _ rfl; exact holds)
  · refine meets_modify_bind (fun w => kept w.log) (fun _ same => same) ?_
    refine meets_bind (fun _ w => kept w.log) ?_ (fun _ => meets_pure _ (fun _ after => after))
    apply meets_asked
    · intro w holds reply answer
      exact closed _ w.log ⟨⟨rfl, fun _ => rfl⟩, fun v =>
        by cases wired.queue.bufType <;> rfl⟩ holds
    · intro w holds error answer
      exact closed _ w.log ⟨⟨rfl, fun _ => rfl⟩, fun v =>
        by cases wired.queue.bufType <;> rfl⟩ holds

theorem has_startOrRelease (count : UInt32) :
    Meets (fun w => Told driver frames v w.log ∧ w.queue.bufType = .capture)
      (startOrRelease driver count) (fun _ => Has driver frames v [])
      (fun _ w => shown driver w.log = frames) := by
  have started : Meets (fun w => Told driver frames v w.log ∧ w.queue.bufType = .capture)
      (allocateAndStart driver count) (fun _ => Has driver frames v [])
      (fun _ w => shown driver w.log = frames) :=
    meets_bind (fun _ => Has driver frames v [])
      (left_context (has_allocate driver frames v count true))
      (fun _ => has_queueAllAndStart driver frames v)
  refine meets_bind (Handed (fun _ => Has driver frames v [])
    (fun _ w => shown driver w.log = frames)) ?_ (fun result => ?_)
  · exact meets_attempt _ _ started (fun _ _ after => after) (fun _ _ early => early)
      (fun _ early => early) (fun _ early => early)
  · cases result with
    | ok value => exact meets_pure _ (fun _ has => has)
    | error fault =>
        refine meets_bind (fun _ w => shown driver w.log = frames) ?_
          (fun _ => meets_fail _ (fun _ same => same))
        exact meets_attempt _ _ (mild_release driver _ (fun entry log mild same =>
            shown_calm driver frames entry log mild.toCalm same)) (fun _ _ after => after)
          (fun _ _ early => early) (fun _ early => early) (fun _ early => early)

theorem has_compose (wired : Wired) (has : Has driver frames v [] wired)
    (answer : Except IoError Rect) :
    Has driver frames { v with visible := Seen.compose v.coded answer } []
      { wired with log := .asked (.gSelectionCompose .capture) answer :: wired.log } := by
  refine ⟨⟨?_, settled_cons _ _ rfl, ?_⟩, has.type, has.mappings⟩
  · exact shown_calm driver frames _ wired.log ⟨rfl, fun _ => rfl⟩ has.pictures
  · rw [seen, Seen.next, has.reported]

theorem has_visibleRect (queue : Queue) (coded : FormatInfo) (same : coded = v.coded) :
    Meets (fun log => Has driver frames v [] ⟨queue, log⟩) (visibleRect driver coded)
      (fun visible log => Has driver frames { v with visible } [] ⟨queue, log⟩)
      (fun _ log => shown driver log = frames) := by
  subst same
  refine meets_bind (fun answer log =>
    Has driver frames { v with visible := Seen.compose v.coded answer } [] ⟨queue, log⟩) ?_
    (fun answer => ?_)
  · refine meets_attempt (fun rect log =>
      Has driver frames { v with visible := Seen.compose v.coded (.ok rect) } [] ⟨queue, log⟩)
      (Ended (fun error log =>
          Has driver frames { v with visible := Seen.compose v.coded (.error error) } []
            ⟨queue, log⟩)
        (fun log => shown driver log = frames))
      ?_ (fun _ _ after => after) (fun _ _ early => early) (fun _ early => early)
      (fun _ early => early)
    apply meets_call
    · exact fun log has rect answer => has_compose driver frames v ⟨queue, log⟩ has (.ok rect)
    · exact fun log has error answer => has_compose driver frames v ⟨queue, log⟩ has (.error error)
  · cases answer with
    | ok rect => exact meets_pure _ (fun _ has => has)
    | error error => exact meets_pure _ (fun _ has => has)

theorem view_of_has (cap : Capture) (log : Log) (has : Has driver frames v [] ⟨cap.queue, log⟩)
    (coded : cap.coded = v.coded) (visible : cap.visible = v.visible)
    (provisional : cap.provisional = decide (v.formats < 2)) (formats : 1 ≤ v.formats) :
    View cap (seen log) := by
  have reported := has.reported
  refine ⟨?_, ?_, ?_, ?_, ?_, has.type⟩
  · rw [reported]
    exact coded
  · rw [reported]
    exact visible
  · rw [reported]
    exact provisional
  · rw [reported]
    exact formats
  · rw [← has.mappings, List.append_nil]

/-- The first format is provisional, and only that one. -/
theorem view_bringUpCapture (provisional : Bool)
    (first : provisional = decide (v.formats + 1 < 2)) :
    Meets (fun log => shown driver log = frames ∧
      seen log = { v with mappings := (seen log).mappings })
      (bringUpCapture driver provisional)
      (fun cap log => shown driver log = frames ∧ View cap (seen log))
      (fun _ log => shown driver log = frames) := by
  refine meets_bind (fun _ => Told driver frames v) ?_ (fun reported => ?_)
  · refine left_context (meets_call driver _ ?_ ?_)
    · exact fun log before reply answer => told_mild driver frames v _ log
        ⟨⟨rfl, fun _ => rfl⟩, fun _ => rfl⟩ before.1 before.2
    · exact fun log before error answer =>
        shown_calm driver frames _ log ⟨rfl, fun _ => rfl⟩ before.1
  refine meets_bind (fun coded => Told driver frames { v with
      formats := v.formats + 1, coded, visible := ⟨0, 0, coded.width, coded.height⟩ }) ?_
    (fun coded => ?_)
  · refine left_context (meets_call driver _ ?_ ?_)
    · intro log told coded answer
      refine ⟨shown_calm driver frames _ log ⟨rfl, fun _ => rfl⟩ told.pictures,
        settled_cons _ _ rfl, ?_⟩
      rw [seen, Seen.next, told.reported]
    · exact fun log told error answer =>
        shown_calm driver frames _ log ⟨rfl, fun _ => rfl⟩ told.pictures
  apply meets_ite
  · exact fun refused => meets_fail _ (fun _ told => told.pictures)
  intro accepted
  refine meets_bind (fun _ => Told driver frames { v with
      formats := v.formats + 1, coded, visible := ⟨0, 0, coded.width, coded.height⟩ }) ?_
    (fun min => ?_)
  · exact meets_attempt _ _ (told_call driver frames _ _ (fun _ =>
      ⟨⟨rfl, fun _ => rfl⟩, fun _ => rfl⟩))
      (fun _ _ after => after) (fun _ _ early => early) (fun _ early => early.pictures)
      (fun _ early => early.pictures)
  refine meets_bind (fun result log => Has driver frames { v with
      formats := v.formats + 1, coded, visible := ⟨0, 0, coded.width, coded.height⟩ } []
      ⟨result.1, log⟩) ?_ ?_
  · apply meets_owning
    intro log told
    exact meets_mono (has_startOrRelease driver frames _ _) (by rintro _ rfl; exact ⟨told, rfl⟩)
      (fun _ _ after => after) (fun _ _ early => early)
  rintro ⟨queue, _⟩
  refine meets_bind _ (has_visibleRect driver frames { v with
      formats := v.formats + 1, coded, visible := ⟨0, 0, coded.width, coded.height⟩ }
        queue coded rfl)
    (fun visible => meets_pure _ (fun log has => ⟨has.pictures, ?_⟩))
  exact view_of_has driver frames _ ⟨queue, coded, visible, provisional⟩ log has rfl rfl first
    (Nat.le_add_left 1 _)

end Capturing

/-- The frames given and those that wait are the pictures shown, and the capture side is as the
driver last reported it. -/
structure Kept (driver : Driver) (given : List RawFrame) (s : Decoder) : Prop where
  pictures : given ++ s.ready = shown driver s.log
  view : ∀ cap, s.capture = some cap → View cap (seen s.log)
  output : s.output.bufType = .output

namespace Decoder

variable (driver : Driver) (given : List RawFrame)

theorem kept_quiet (s : Decoder) (entry : Entry) (kept : Kept driver given s)
    (quiet : Quiet entry) :
    Kept driver given { s with log := entry :: s.log } := by
  refine ⟨?_, fun cap up => ?_, kept.output⟩
  · exact (shown_calm driver _ entry s.log quiet.toCalm kept.pictures.symm).symm
  · show View cap ((seen s.log).next entry)
    rw [quiet.reported]
    exact kept.view cap up

theorem kept_call (request : Request) (quiet : ∀ answer, Quiet (.asked request answer)) :
    Meets (Kept driver given) (ops (driver.call request)) (fun _ => Kept driver given)
      (fun _ => Kept driver given) := by
  apply meets_on
  intro s kept
  apply meets_call
  · rintro _ rfl reply answer
    exact kept_quiet driver given s _ kept (quiet _)
  · rintro _ rfl error answer
    exact kept_quiet driver given s _ kept (quiet _)

theorem kept_now : Meets (Kept driver given) (ops driver.now) (fun _ => Kept driver given)
    (fun _ : Halt Fault => Kept driver given) := by
  apply meets_on
  intro s kept
  apply meets_now
  rintro _ rfl
  exact kept_quiet driver given s _ kept ⟨⟨rfl, fun _ => rfl⟩, fun _ => rfl⟩

theorem kept_onOutput (s : Decoder) (kept : Kept driver given s) (queue : Queue) (entry : Entry)
    (type : queue.bufType = .output) (quiet : Quiet entry) :
    Kept driver given { s with output := queue, log := entry :: s.log } :=
  let next := kept_quiet driver given s entry kept quiet
  ⟨next.pictures, next.view, type⟩

theorem kept_freed :
    Meets (Kept driver given) (onOutput (Queue.dequeue driver)) (fun _ => Kept driver given)
      (fun _ => Kept driver given) := by
  apply meets_on
  intro s kept
  have quiet (answer : Except IoError Dequeue) :
      Quiet (.asked (.dqbuf s.output.bufType) answer) := by
    rw [kept.output]
    exact ⟨⟨rfl, fun _ => rfl⟩, fun _ => rfl⟩
  apply meets_get_at
  apply meets_asked_bind
  · intro reply answer
    cases reply with
    | idle =>
        apply meets_pure
        rintro _ rfl
        exact kept_onOutput driver given s kept _ _ kept.output (quiet _)
    | endOfSequence =>
        apply meets_pure
        rintro _ rfl
        exact kept_onOutput driver given s kept _ _ kept.output (quiet _)
    | buffer dequeued =>
        dsimp only
        split
        · refine meets_modify_bind (fun w => w = ⟨s.output.mark dequeued.index.toNat false,
            .asked (.dqbuf s.output.bufType) (.ok (.buffer dequeued)) :: s.log⟩) ?_
              (meets_pure _ ?_)
          · rintro _ rfl
            rfl
          · rintro _ rfl
            exact kept_onOutput driver given s kept _ _ kept.output (quiet _)
        · apply meets_fail
          rintro _ rfl
          exact kept_onOutput driver given s kept _ _ kept.output (quiet _)
  · intro error answer
    exact kept_onOutput driver given s kept _ _ kept.output (quiet _)

theorem kept_queueInput (data : List UInt8) (timestampUs : UInt64) :
    Meets (Kept driver given) (queueInput driver data timestampUs) (fun _ => Kept driver given)
      (fun _ => Kept driver given) := by
  apply meets_get_bind
  intro s kept
  cases free : s.output.freeSlot with
  | none => exact meets_fail _ (by rintro _ rfl; exact kept)
  | some slot =>
      cases found : s.output.buffers[slot]? with
      | none =>
          simp only [found]
          exact meets_throw _ (by rintro _ rfl; exact kept)
      | some buffer =>
          simp only [found]
          apply meets_ite
          · exact fun tooLong => meets_fail _ (by rintro _ rfl; exact kept)
          intro fits
          refine meets_bind (fun _ => Kept driver given) ?_ (fun _ => left_context ?_)
          · apply meets_on_at
            apply meets_store
            rintro _ rfl
            exact kept_quiet driver given s _ kept ⟨⟨rfl, fun _ => rfl⟩, fun _ => rfl⟩
          · apply meets_on
            intro t kept
            apply meets_get_at
            dsimp only
            have quiet (index length bytesused : UInt32) (answer : Except IoError Unit) : Quiet
                (.asked (.qbuf t.output.bufType index length bytesused timestampUs) answer) := by
              rw [kept.output]
              exact ⟨⟨rfl, fun _ => rfl⟩, fun _ => rfl⟩
            split
            · exact meets_fail _ (by rintro _ rfl; exact ⟨kept.pictures, kept.view, kept.output⟩)
            · apply meets_ite
              · intro queued
                exact meets_fail _ (by rintro _ rfl; exact ⟨kept.pictures, kept.view, kept.output⟩)
              · intro unqueued
                apply meets_asked_bind
                · intro reply answer
                  rintro _ rfl
                  exact kept_onOutput driver given t kept _ _ kept.output (quiet _ _ _ _)
                · intro error answer
                  exact kept_onOutput driver given t kept _ _ kept.output (quiet _ _ _ _)

/-- A buffer of the capture side was dequeued, and is not yet passed back. -/
def taking (s : Decoder) (cap : Capture) (dequeued : Dequeued) : Decoder :=
  { s with
    capture := some { cap with queue := cap.queue.mark dequeued.index.toNat false }
    log := .asked (.dqbuf .capture) (.ok (.buffer dequeued)) :: s.log }

def shows (s : Decoder) (dequeued : Dequeued) : Option RawFrame :=
  (seen s.log).frame dequeued
    (driver.memory (.asked (.dqbuf .capture) (.ok (.buffer dequeued)) :: s.log))

theorem kept_capture (s : Decoder) (cap : Capture) (kept : Kept driver given s)
    (view : View cap (seen s.log)) (entry : Entry) (quiet : Quiet entry) :
    Kept driver given { s with capture := some cap, log := entry :: s.log } := by
  have next := kept_quiet driver given s entry kept quiet
  refine ⟨next.pictures, ?_, next.output⟩
  rintro _ ⟨rfl⟩
  show View cap ((seen s.log).next entry)
  rw [quiet.reported]
  exact view

theorem kept_taking (s : Decoder) (cap : Capture) (dequeued : Dequeued)
    (kept : Kept driver given s) (view : View cap (seen s.log)) :
    Kept driver given ((taking s cap dequeued).push (shows driver s dequeued)) := by
  refine ⟨?_, ?_, kept.output⟩
  · show given ++ (s.ready ++ (shows driver s dequeued).toList) = _
    rw [← List.append_assoc, kept.pictures]
    exact (shown_taken driver s.log dequeued).symm
  · rintro _ ⟨rfl⟩
    exact view_mark cap (seen s.log) view _ false

theorem push_none (s : Decoder) : s.push none = s := by
  rw [push, Option.toList_none, List.append_nil]

theorem kept_dequeue (s : Decoder) (cap : Capture) (kept : Kept driver given s)
    (up : s.capture = some cap) :
    Meets (fun t => t = s) (onCapture cap (Queue.dequeue driver))
      (fun reply t => match reply with
        | .buffer dequeued => t = taking s cap dequeued ∧
            ∃ buffer, cap.queue.buffers[dequeued.index.toNat]? = some buffer
        | _ => Kept driver given t)
      (fun _ t => Kept driver given t) := by
  have view := kept.view cap up
  apply meets_on_at
  apply meets_get_at
  rw [view.type]
  apply meets_asked_bind
  · intro reply answer
    cases reply with
    | idle =>
        apply meets_pure
        rintro _ rfl
        exact kept_capture driver given s cap kept view _ ⟨⟨rfl, fun _ => rfl⟩, fun _ => rfl⟩
    | endOfSequence =>
        apply meets_pure
        rintro _ rfl
        exact kept_capture driver given s cap kept view _ ⟨⟨rfl, fun _ => rfl⟩, fun _ => rfl⟩
    | buffer dequeued =>
        cases found : cap.queue.buffers[dequeued.index.toNat]? with
        | some buffer =>
            simp only [found]
            rintro _ rfl
            exact ⟨rfl, buffer, found⟩
        | none =>
            simp only [found]
            apply meets_fail
            rintro _ rfl
            have nothing : shows driver s dequeued = none := by
              rw [shows, Seen.frame, ← view.mappings, List.getElem?_map, found]
              rfl
            have next := kept_taking driver given s cap dequeued kept view
            rw [nothing, push_none] at next
            refine ⟨next.pictures, ?_, kept.output⟩
            rintro _ ⟨rfl⟩
            exact view
  · intro error answer
    exact kept_capture driver given s cap kept view _ ⟨⟨rfl, fun _ => rfl⟩, fun _ => rfl⟩

theorem kept_push (s t : Decoder) (frame : Option RawFrame)
    (kept : Kept driver given (s.push frame))
    (log : t.log = s.log) (ready : t.ready = s.ready) (capture : t.capture = s.capture)
    (output : t.output = s.output) : Kept driver given (t.push frame) := by
  refine ⟨?_, fun cap up => ?_, output ▸ kept.output⟩
  · show given ++ (t.ready ++ frame.toList) = shown driver t.log
    rw [log, ready]
    exact kept.pictures
  · show View cap (seen t.log)
    rw [log]
    exact kept.view cap (capture ▸ up)

/-- A buffer that is not taken back, and not for its size, is lost with its picture. -/
theorem kept_requeue (s : Decoder) (cap : Capture) (dequeued : Dequeued) (buffer : Buffer)
    (kept : Kept driver given s) (up : s.capture = some cap)
    (found : cap.queue.buffers[dequeued.index.toNat]? = some buffer) :
    Meets (fun t => t = taking s cap dequeued)
      (requeue driver { cap with queue := cap.queue.mark dequeued.index.toNat false }
        dequeued.index.toNat)
      (fun _ t => Kept driver given (t.push (shows driver s dequeued)))
      (fun _ => Kept driver given) := by
  have view := kept.view cap up
  have there : (cap.queue.mark dequeued.index.toNat false).buffers[dequeued.index.toNat]? =
      some { buffer with queued := false } := by
    simp [Queue.mark, found]
  have next := kept_taking driver given s cap dequeued kept view
  have back : Meets (fun t => t = taking s cap dequeued)
      (onCapture { cap with queue := cap.queue.mark dequeued.index.toNat false }
        (Queue.queue driver dequeued.index.toNat 0 0))
      (fun _ t => Kept driver given (t.push (shows driver s dequeued)))
      (Ended (fun error t => if error = .os einval then
          Kept driver given (t.push (shows driver s dequeued)) else Kept driver given t)
        (Kept driver given)) := by
    apply meets_on_at
    apply meets_get_at
    simp only [there, Bool.false_eq_true, if_false]
    show Meets (fun w => w = ⟨cap.queue.mark dequeued.index.toNat false,
      (taking s cap dequeued).log⟩)
      (Queue.ops (driver.call (.qbuf cap.queue.bufType (UInt32.ofNat dequeued.index.toNat)
        (UInt32.ofNat buffer.mapping.len) 0 0)) >>= fun _ =>
          Queue.update (Queue.mark dequeued.index.toNat true)) _ _
    rw [view.type, UInt32.ofNat_toNat]
    apply meets_asked_bind
    · intro reply answer
      rintro _ rfl
      have quiet :
        Quiet (.asked (.qbuf .capture dequeued.index (UInt32.ofNat buffer.mapping.len) 0 0)
          (.ok reply)) := ⟨⟨rfl, fun _ => rfl⟩, fun _ => rfl⟩
      exact kept_capture driver given ((taking s cap dequeued).push
        (shows driver s dequeued)) _ next
        (view_mark _ _ (view_mark cap _ view _ false) dequeued.index.toNat true) _ quiet
    · intro error answer
      have refused :=
        shown_refused driver s.log dequeued (UInt32.ofNat buffer.mapping.len) 0 0 error
      by_cases size : error = .os einval
      · rw [if_pos size] at refused
        simp only [Ended, size, if_true] at refused ⊢
        exact ⟨next.pictures.trans refused.symm, next.view, next.output⟩
      · rw [if_neg size] at refused
        simp only [Ended, size, if_false]
        exact ⟨kept.pictures.trans refused.symm, next.view, next.output⟩
  refine meets_bind (Handed (fun _ t => Kept driver given (t.push (shows driver s dequeued)))
    (fun error t => if error = .os einval then
      Kept driver given (t.push (shows driver s dequeued)) else Kept driver given t)) ?_
    (fun result => ?_)
  · exact meets_attempt _ _ back (fun _ _ after => after) (fun _ _ early => early)
      (fun _ early => early) (fun _ early => early)
  · cases result with
    | ok value => exact meets_pure _ (fun _ after => after)
    | error error =>
        apply meets_ite
        · intro size
          apply meets_modify
          intro t after
          simp only [Handed, size, if_true] at after
          exact kept_push driver given _ _ _ after rfl rfl rfl rfl
        · intro other
          apply meets_fail
          intro t after
          simpa only [Handed, other, if_false] using after

theorem kept_finishCapture (s : Decoder) (cap : Capture) (dequeued : Dequeued) (buffer : Buffer)
    (kept : Kept driver given s) (up : s.capture = some cap)
    (found : cap.queue.buffers[dequeued.index.toNat]? = some buffer)
    (frame : Except Fault (Option RawFrame))
    (copied : match frame with
      | .ok frame => frame = shows driver s dequeued
      | .error _ => shows driver s dequeued = none) :
    Meets (fun t => t = taking s cap dequeued)
      (finishCapture driver { cap with queue := cap.queue.mark dequeued.index.toNat false }
        dequeued frame)
      (fun taken t => Kept driver given (t.push (taken.getD none)))
      (fun _ => Kept driver given) := by
  refine meets_bind (fun _ t => Kept driver given (t.push (shows driver s dequeued))) ?_
    (fun _ => ?_)
  · apply meets_ite
    · intro last
      apply meets_modify
      rintro _ rfl
      exact kept_push driver given _ _ _ (kept_taking driver given s cap dequeued kept
        (kept.view cap up)) rfl rfl rfl rfl
    · exact fun _ => kept_requeue driver given s cap dequeued buffer kept up found
  match frame, copied with
  | .error fault, nothing =>
      apply meets_fail
      intro t after
      rwa [nothing, push_none] at after
  | .ok none, same =>
      rw [← same]
      exact meets_pure _ (fun _ after => after)
  | .ok (some frame), same =>
      rw [← same]
      refine meets_modify_bind (fun t => Kept driver given (t.push (some frame)))
        (fun t after => kept_push driver given t { t with unanswered := 0 } _ after rfl
          rfl rfl rfl) ?_
      refine meets_bind (fun _ t => Kept driver given (t.push (some frame))) ?_ (fun now => ?_)
      · apply meets_on
        intro t after
        apply meets_now
        rintro _ rfl
        exact kept_quiet driver given (t.push (some frame)) _ after
          ⟨⟨rfl, fun _ => rfl⟩, fun _ => rfl⟩
      · refine meets_modify_bind (fun t => Kept driver given (t.push (some frame)))
          (fun t after =>
            kept_push driver given t { t with lastPicture := now } _ after rfl rfl rfl rfl) ?_
        exact meets_pure _ (fun _ after => after)

theorem kept_takeCapture :
    Meets (Kept driver given) (takeCapture driver)
      (fun taken t => Kept driver given (t.push (taken.getD none)))
      (fun _ => Kept driver given) := by
  have idle (t : Decoder) (kept : Kept driver given t) : Kept driver given (t.push none) := by
    rwa [push_none]
  apply meets_get_bind
  intro s kept
  cases up : s.capture with
  | none => exact meets_pure _ (by rintro _ rfl; exact idle _ kept)
  | some cap =>
      refine meets_bind _ (left_context (kept_dequeue driver given s cap kept up)) (fun reply => ?_)
      cases reply with
      | idle => exact meets_pure _ (fun t after => idle t after)
      | endOfSequence =>
          refine meets_modify_bind (Kept driver given)
            (fun t after => ⟨after.pictures, after.view, after.output⟩)
            (meets_pure _ (fun t after => idle t after))
      | buffer dequeued =>
          apply meets_get_bind
          rintro _ ⟨rfl, buffer, found⟩
          have there : (cap.queue.mark dequeued.index.toNat false).buffers[dequeued.index.toNat]? =
              some { buffer with queued := false } := by
            simp [Queue.mark, found]
          have copied := picture_frame _ (seen s.log)
            (view_mark cap (seen s.log) (kept.view cap up) dequeued.index.toNat false)
            (seen_small s.log) dequeued (driver.memory (taking s cap dequeued).log) _ there
          dsimp only at copied ⊢
          split at copied
          · next frame taken =>
              rw [taken]
              exact kept_finishCapture driver given s cap dequeued buffer kept up found _ copied
          · next other =>
              split
              · apply meets_throw
                rintro _ rfl
                have next := kept_taking driver given s cap dequeued kept (kept.view cap up)
                rwa [show shows driver s dequeued = none from copied, push_none] at next
              · exact kept_finishCapture driver given s cap dequeued buffer kept up found _ copied
              · next frame taken => exact absurd taken (other frame)

def Over (s : Decoder) (holds : Log → Prop) (t : Decoder) : Prop :=
  t = { s with log := t.log } ∧ holds t.log

theorem over_ops {ε α : Type} {call : Call ε Log α} {holds : Log → Prop} {done : α → Log → Prop}
    {failed : Log → Prop} (s : Decoder) (meets : Meets holds call done (fun _ => failed)) :
    Meets (Over s holds) (ops call) (fun value => Over s (done value)) (fun _ =>
      Over s failed) := by
  apply meets_on
  rintro t ⟨same, before⟩
  refine meets_mono meets (by rintro _ rfl; exact before) ?_ ?_
  · intro value log after
    exact ⟨by rw [same], after⟩
  · intro halt log early
    exact ⟨by rw [same], early⟩

theorem over_owning {ε α : Type} {queue : Queue} {call : Call ε Wired α} {holds : Log → Prop}
    {failed : Log → Prop} (s : Decoder) (done : α → Wired → Prop)
    (each : ∀ log, holds log → Meets (fun w => w = ⟨queue, log⟩) call done
      (fun _ w => failed w.log)) :
    Meets (Over s holds) (ops (owning queue call))
      (fun result => Over s (fun log => done result.2 ⟨result.1, log⟩)) (fun _ => Over s failed) :=
  over_ops s (meets_owning each)

theorem kept_over (s : Decoder) (output : s.output.bufType = .output) (t : Decoder)
    (renewed : Over { s with capture := none } (fun log => shown driver log = given ++ s.ready) t) :
    Kept driver given t := by
  obtain ⟨same, pictures⟩ := renewed
  rw [same]
  exact ⟨pictures.symm, nofun, output⟩

theorem kept_up (s : Decoder) (output : s.output.bufType = .output) (cap : Capture) (t : Decoder)
    (renewed : Over { s with capture := none }
      (fun log => shown driver log = given ++ s.ready ∧ View cap (seen log)) t) :
    Kept driver given { t with sawLast := false, capture := some cap } := by
  obtain ⟨same, pictures, view⟩ := renewed
  rw [same]
  exact ⟨pictures.symm, by rintro _ ⟨rfl⟩; exact view, output⟩

theorem over_stopOld (s : Decoder) (old : Capture) (frames : List RawFrame) (v : Seen)
    (view : View old v) :
    Meets (Over s (fun log => shown driver log = frames ∧ seen log = v)) (stopOld driver old.queue)
      (fun queue => Over s (fun log => shown driver log = frames ∧ seen log = v ∧
        queue.buffers.map Buffer.mapping = v.mappings ∧ queue.bufType = .capture))
      (fun _ => Over s (fun log => shown driver log = frames)) := by
  apply meets_ite
  · intro streaming
    refine meets_bind (fun result => Over s (fun log => shown driver log = frames ∧ seen log = v ∧
      result.1.buffers.map Buffer.mapping = v.mappings ∧ result.1.bufType = .capture)) ?_
      (fun result => meets_pure _ (fun _ after => after))
    refine left_context (over_owning s (fun _ w => shown driver w.log = frames ∧ seen w.log = v ∧
      w.queue.buffers.map Buffer.mapping = v.mappings ∧ w.queue.bufType = .capture) ?_)
    rintro log ⟨pictures, reported⟩
    apply meets_get_at
    rw [view.type]
    apply meets_asked_bind
    · rintro reply answer _ rfl
      refine ⟨shown_calm driver frames _ log ⟨rfl, fun _ => rfl⟩ pictures, reported, ?_, view.type⟩
      rw [← view.mappings, List.map_map]
      rfl
    · intro error answer
      exact shown_calm driver frames _ log ⟨rfl, fun _ => rfl⟩ pictures
  · intro stopped
    apply meets_pure
    rintro t ⟨same, pictures, reported⟩
    exact ⟨same, pictures, reported, view.mappings, view.type⟩

theorem kept_restartCapture (s : Decoder) (old : Capture) (kept : Kept driver given s)
    (up : s.capture = some old) :
    Meets (fun t => t = { s with capture := none }) (restartCapture driver old)
      (fun _ => Kept driver given) (fun _ => Kept driver given) := by
  have view := kept.view old up
  have ended (t : Decoder) := kept_over driver given s kept.output t
  refine meets_bind _ (meets_mono (over_stopOld driver { s with capture := none } old
    (given ++ s.ready) (seen s.log) view) ?_ (fun _ _ after => after) (fun _ t early =>
      ended t early))
    (fun queue => ?_)
  · rintro _ rfl
    exact ⟨rfl, kept.pictures.symm, rfl⟩
  refine meets_bind (fun _ => Over { s with capture := none } (fun log =>
    Has driver (given ++ s.ready) (seen s.log) [] ⟨queue, log⟩)) ?_ (fun reported => ?_)
  · refine left_context (meets_mono (over_ops _ (meets_call driver _ ?_ ?_))
      (fun _ before => before)
      (fun _ _ after => after) (fun _ t early => ended t early))
    · rintro log ⟨pictures, same, mappings, type⟩ reply answer
      refine ⟨told_mild driver _ _ _ log ⟨⟨rfl, fun _ => rfl⟩, fun _ => rfl⟩ pictures ?_, type, ?_⟩
      · rw [same]
      · rw [List.append_nil, mappings, ← same]
        rfl
    · rintro log ⟨pictures, _⟩ error answer
      exact shown_calm driver _ _ log ⟨rfl, fun _ => rfl⟩ pictures
  apply meets_ite
  · intro unchanged
    refine meets_bind _ (meets_mono (over_ops _ (has_visibleRect driver (given ++ s.ready)
      (seen s.log) queue old.coded view.coded)) (fun _ before => before) (fun _ _ after => after)
      (fun _ t early => ended t early)) (fun visible => ?_)
    refine meets_bind _ (meets_mono (over_owning _ (fun _ w => Has driver (given ++ s.ready)
      { seen s.log with visible } [] w) (fun log has => meets_mono
        (has_queueAllAndStart driver (given ++ s.ready) { seen s.log with visible })
        (by rintro _ rfl; exact has) (fun _ _ after => after) (fun _ _ early => early)))
      (fun _ before => before) (fun _ _ after => after) (fun _ t early => ended t early))
      (fun result => meets_modify _ (fun t renewed => ?_))
    refine kept_up driver given s kept.output { old with queue := result.1, visible } t
      ⟨renewed.1, renewed.2.pictures, ?_⟩
    exact view_of_has driver _ _ { old with queue := result.1, visible } t.log renewed.2
      view.coded rfl
      view.provisional view.formats
  · intro changed
    refine meets_bind (fun _ => Over { s with capture := none } (fun log =>
      shown driver log = given ++ s.ready ∧
        seen log = { seen s.log with mappings := (seen log).mappings })) ?_ (fun _ => ?_)
    · refine left_context
        (meets_mono (over_owning _ (fun _ w => shown driver w.log = given ++ s.ready ∧
        seen w.log = { seen s.log with mappings := (seen w.log).mappings }) (fun log has =>
          meets_mono (mild_release driver (fun log => shown driver log = given ++ s.ready ∧
            seen log = { seen s.log with mappings := (seen log).mappings }) ?_)
            (by rintro _ rfl; exact ⟨has.pictures, has.reported⟩) (fun _ _ after => after)
            (fun _ _ early => early.1)))
        (fun _ before => before) (fun _ _ after => after) (fun _ t early => ended t early))
      rintro entry log mild ⟨pictures, reported⟩
      have told := told_mild driver _ _ entry log mild pictures reported
      exact ⟨told.pictures, told.reported⟩
    · refine meets_bind _ (meets_mono (over_ops _ (view_bringUpCapture driver (given ++ s.ready)
        (seen s.log) false ?_)) (fun _ before => before) (fun _ _ after => after)
        (fun _ t early => ended t early)) (fun cap => meets_modify _ (fun t renewed =>
          kept_up driver given s kept.output cap t renewed))
      have later := view.formats
      simp only [false_eq_decide_iff]
      omega

theorem kept_steps : Steps driver (Kept driver given) (fun _ => True) where
  other _ _ := trivial
  sawLast _ _ kept := ⟨kept.pictures, kept.view, kept.output⟩
  finished _ kept := ⟨kept.pictures, kept.view, kept.output⟩
  unanswered _ _ kept := ⟨kept.pictures, kept.view, kept.output⟩
  now := meets_mono (kept_now driver given) (fun _ kept => kept) (fun _ _ kept => kept)
    (fun _ _ kept => ⟨trivial, kept⟩)
  poll timeoutMs := meets_mono (left_context (kept_call driver given (.poll timeoutMs)
      (fun _ => ⟨⟨rfl, fun _ => rfl⟩, fun _ => rfl⟩)))
    (fun _ kept => kept) (fun _ _ kept => kept) (fun _ _ kept => ⟨trivial, kept⟩)
  event := meets_mono (left_context (kept_call driver given .dqevent
      (fun _ => ⟨⟨rfl, fun _ => rfl⟩, fun _ => rfl⟩)))
    (fun _ kept => kept) (fun _ _ kept => kept) (fun _ _ kept => ⟨trivial, kept⟩)
  freed := meets_mono (left_context (kept_freed driver given))
    (fun _ kept => kept) (fun _ _ kept => kept) (fun _ _ kept => ⟨trivial, kept⟩)
  took := meets_mono (kept_takeCapture driver given)
    (fun _ kept => kept) (fun _ _ kept => kept) (fun _ _ kept => ⟨trivial, kept⟩)
  restarted s old kept up := meets_mono (kept_restartCapture driver given s old kept up)
    (fun _ same => same) (fun _ _ kept => kept) (fun _ _ kept => ⟨trivial, kept⟩)
  queued data timestampUs := meets_mono (kept_queueInput driver given data timestampUs)
    (fun _ before => before.1) (fun _ _ kept => kept) (fun _ _ kept => ⟨trivial, kept⟩)

end Decoder

section Opening

variable (driver : Driver) (kept : Log → Prop)
  (closed : ∀ entry log, Mild entry → kept log → kept (entry :: log))

include closed

theorem mild_call (request : Request) (mild : ∀ answer, Mild (.asked request answer)) :
    Meets kept (driver.call request) (fun _ => kept) (fun _ => kept) := by
  apply meets_call
  · exact fun log holds reply answer => closed _ log (mild _) holds
  · exact fun log holds error answer => closed _ log (mild _) holds

theorem mild_supportsFrom (bufType : BufType) (format : UInt32) (index left : Nat) :
    Meets kept (supportsFrom driver bufType format index left) (fun _ => kept) (fun _ => kept) := by
  induction left generalizing index with
  | zero => exact meets_fail _ (fun _ holds => holds)
  | succ left ih =>
      refine meets_bind (fun _ => kept) (left_context (mild_call driver kept closed _
        (fun _ => ⟨⟨rfl, fun _ => rfl⟩, fun _ => rfl⟩))) (fun found => ?_)
      cases found with
      | none => exact meets_pure _ (fun _ holds => holds)
      | some found =>
          apply meets_ite
          · exact fun _ => meets_pure _ (fun _ holds => holds)
          · exact fun _ => ih (index + 1)

def OnOutput (kept : Log → Prop) (wired : Wired) : Prop :=
  kept wired.log ∧ wired.queue.bufType = .output

theorem output_asked (request : Request) (mild : ∀ answer, Mild (.asked request answer)) :
    Meets (OnOutput kept) (Queue.ops (driver.call request)) (fun _ => OnOutput kept)
      (fun _ => OnOutput kept) := by
  apply meets_asked
  · exact fun w before reply answer => ⟨closed _ w.log (mild _) before.1, before.2⟩
  · exact fun w before error answer => ⟨closed _ w.log (mild _) before.1, before.2⟩

theorem output_allocateFrom (exports : Bool) (index left : Nat) :
    Meets (OnOutput kept) (Queue.allocateFrom driver .output exports index left)
      (fun _ => OnOutput kept) (fun _ => OnOutput kept) := by
  induction left generalizing index with
  | zero => exact meets_pure _ (fun _ before => before)
  | succ left ih =>
      refine meets_bind (fun _ => OnOutput kept) (output_asked driver kept closed _
        (fun _ => ⟨⟨rfl, fun _ => rfl⟩, fun _ => rfl⟩)) (fun info => ?_)
      refine meets_bind (fun _ => OnOutput kept) ?_ (fun mapping => ?_)
      · apply meets_on
        intro w before
        exact meets_bind (fun _ log => kept log ∧ w.queue.bufType = .output)
          (meets_mono (mild_call driver kept closed (.mmap info.length.toNat info.memOffset)
            (fun _ => ⟨⟨rfl, fun _ => rfl⟩, fun _ => rfl⟩)) (by rintro _ rfl; exact before.1)
            (fun _ _ after => ⟨after, before.2⟩) (fun _ _ after => ⟨after, before.2⟩))
          (fun _ => meets_pure _ (fun _ after => after))
      refine meets_bind (fun _ => OnOutput kept) ?_ (fun _ => ?_)
      · apply meets_ite
        · exact fun _ => output_asked driver kept closed _
            (fun _ => ⟨⟨rfl, fun _ => rfl⟩, fun _ => rfl⟩)
        · exact fun _ => meets_pure _ (fun _ before => before)
      · exact meets_modify_bind (OnOutput kept) (fun _ before => before) (ih (index + 1))

theorem output_openOutput :
    Meets (OnOutput kept) (openOutput driver) (fun _ => OnOutput kept) (fun _ _ => True) := by
  refine meets_bind (fun _ => OnOutput kept) (left_context ?_) (fun _ => ?_)
  · apply meets_get_bind
    intro w before
    rw [before.2]
    refine meets_bind (fun _ => OnOutput kept) (meets_mono (output_asked driver kept closed _
      (fun _ => ⟨⟨rfl, fun _ => rfl⟩, fun _ => rfl⟩)) (by rintro _ rfl; exact before)
      (fun _ _ after => after) (fun _ _ _ => trivial)) (fun granted => ?_)
    exact meets_modify_bind (OnOutput kept) (fun _ before => before)
      (meets_mono (output_allocateFrom driver kept closed false 0 _) (fun _ before => before)
        (fun _ _ after => after) (fun _ _ _ => trivial))
  apply meets_get_bind
  intro w before
  apply meets_ite
  · exact fun few => meets_fail _ (fun _ _ => trivial)
  intro enough
  split
  · exact meets_fail _ (fun _ _ => trivial)
  · refine left_context (meets_get_at ?_)
    refine meets_bind (fun _ => OnOutput kept) (meets_mono (output_asked driver kept closed _
      (fun _ => ⟨⟨rfl, fun _ => rfl⟩, fun _ => rfl⟩)) (by rintro _ rfl; exact before)
      (fun _ _ after => after) (fun _ _ _ => trivial)) (fun _ => ?_)
    exact meets_modify _ (fun _ before => before)

end Opening

section Runs

variable (driver : Driver)

theorem kept_withOps :
    Meets (fun log => log = []) (withOps driver) (fun s _ => Kept driver [] s)
      (fun _ _ => True) := by
  let before (log : Log) : Prop := shown driver log = [] ∧
    seen log = { seen [] with mappings := (seen log).mappings }
  have closed : ∀ entry log, Mild entry → before log → before (entry :: log) := by
    rintro entry log mild ⟨pictures, reported⟩
    have told := told_mild driver [] (seen []) entry log mild pictures reported
    exact ⟨told.pictures, told.reported⟩
  have asked {text : String} (request : Request) (mild : ∀ answer, Mild (.asked request answer)) :
      Meets before (context text (driver.call request)) (fun _ => before) (fun _ _ => True) :=
    meets_mono (left_context (mild_call driver before closed request mild)) (fun _ holds => holds)
      (fun _ _ holds => holds) (fun _ _ _ => trivial)
  have supported (bufType : BufType) (format : UInt32) :
      Meets before (supports driver bufType format) (fun _ => before) (fun _ _ => True) :=
    meets_mono (mild_supportsFrom driver before closed bufType format 0 64) (fun _ holds => holds)
      (fun _ _ holds => holds) (fun _ _ _ => trivial)
  refine meets_bind (fun _ => before) (meets_mono (asked .queryCap
    (fun _ => ⟨⟨rfl, fun _ => rfl⟩, fun _ => rfl⟩)) (by rintro _ rfl; exact ⟨rfl, rfl⟩)
    (fun _ _ holds => holds) (fun _ _ _ => trivial)) (fun cap => ?_)
  apply meets_ite
  · exact fun _ => meets_fail _ (fun _ _ => trivial)
  intro codec
  refine meets_bind (fun _ => before) (supported _ _) (fun accepts => ?_)
  refine meets_ite (fun _ => ?_) (fun _ => meets_fail _ (fun _ _ => trivial))
  refine meets_bind (fun _ => before) (supported _ _) (fun produces => ?_)
  refine meets_ite (fun _ => ?_) (fun _ => meets_fail _ (fun _ _ => trivial))
  refine meets_bind (fun _ => before) (asked _ (fun answer => ⟨⟨rfl, fun _ => rfl⟩, fun _ => rfl⟩))
    (fun _ => ?_)
  refine meets_bind (fun _ => before) (asked _ (fun answer => ⟨⟨rfl, fun _ => rfl⟩, fun _ => rfl⟩))
    (fun _ => ?_)
  refine meets_bind (fun _ => before) (asked _ (fun answer => ⟨⟨rfl, fun _ => rfl⟩, fun _ => rfl⟩))
    (fun _ => ?_)
  refine meets_bind (fun result log => before log ∧ result.1.bufType = .output) ?_ ?_
  · apply meets_owning
    intro log holds
    exact meets_mono (output_openOutput driver before closed) (by rintro _ rfl; exact ⟨holds, rfl⟩)
      (fun _ _ after => after) (fun _ _ _ => trivial)
  rintro ⟨output, _⟩
  refine meets_bind (fun cap log => (shown driver log = [] ∧ View cap (seen log)) ∧
    output.bufType = .output) ?_ (fun cap => ?_)
  · refine meets_bind (Handed (fun cap log => (shown driver log = [] ∧ View cap (seen log)) ∧
      output.bufType = .output) (fun _ _ => True)) ?_ (fun result => ?_)
    · apply meets_each
      rintro log ⟨holds, type⟩
      have up : Meets (fun t => t = log) (bringUpCapture driver true)
          (fun cap log => (shown driver log = [] ∧ View cap (seen log)) ∧ output.bufType = .output)
          (fun _ _ => True) :=
        meets_mono (view_bringUpCapture driver [] (seen []) true rfl) (by rintro _ rfl; exact holds)
          (fun _ _ after => ⟨after, type⟩) (fun _ _ _ => trivial)
      exact meets_attempt _ _ up (fun _ _ after => after) (fun _ _ _ => trivial)
        (fun _ _ => trivial) (fun _ _ => trivial)
    · cases result with
      | ok cap => exact meets_pure _ (fun _ after => after)
      | error fault =>
          exact meets_bind (fun _ _ => True) (meets_true _) (fun _ =>
            meets_fail _ (fun _ _ => trivial))
  refine meets_bind (fun _ log => (shown driver log = [] ∧ View cap (seen log)) ∧
    output.bufType = .output) ?_ (fun now => ?_)
  · apply meets_now
    rintro log ⟨⟨pictures, view⟩, type⟩
    exact ⟨⟨shown_calm driver [] _ log ⟨rfl, fun _ => rfl⟩ pictures, view⟩, type⟩
  apply meets_get_bind
  rintro log ⟨⟨pictures, view⟩, type⟩
  apply meets_pure
  rintro _ rfl
  exact ⟨pictures.symm, by rintro _ ⟨rfl⟩; exact view, type⟩

theorem kept_popped (given : List RawFrame) (s : Decoder) (kept : Kept driver given s) :
    Kept driver (given ++ s.ready.head?.toList) s.popped := by
  refine ⟨?_, kept.view, kept.output⟩
  show given ++ s.ready.head?.toList ++ s.ready.tail = shown driver s.log
  rw [← kept.pictures, List.append_assoc]
  cases s.ready <;> rfl

theorem kept_served (s : Decoder) (given : List RawFrame) (served : Served driver s given) :
    Kept driver given s := by
  induction served with
  | opened s log ran =>
      have opened := kept_withOps driver [] rfl
      rw [ran] at opened
      exact opened
  | answered s next given fuel ask frame served ran ih =>
      have after := (Decoder.kept_steps driver given).ask fuel ask s ih
      rw [ran] at after
      obtain ⟨t, kept, rfl, rfl⟩ := after
      exact kept_popped driver given t kept
  | failed s next given fuel ask fault served ran ih =>
      have after := (Decoder.kept_steps driver given).ask fuel ask s ih
      rw [ran] at after
      exact after.2

/-- The frames given, and after them those that wait, are the pictures shown, however the last
call ends. -/
theorem pictures_conserved (s : Decoder) (given : List RawFrame) (served : Served driver s given) :
    given ++ s.ready = shown driver s.log ∧
    ∀ fuel ask, match Decoder.ask driver fuel ask s with
      | .ok frame next => given ++ frame.toList ++ next.ready = shown driver next.log
      | .error _ next => given ++ next.ready = shown driver next.log := by
  have kept := kept_served driver s given served
  refine ⟨kept.pictures, fun fuel ask => ?_⟩
  have after := (Decoder.kept_steps driver given).ask fuel ask s kept
  cases ran : Decoder.ask driver fuel ask s with
  | ok frame next =>
      rw [ran] at after
      obtain ⟨t, kept, rfl, rfl⟩ := after
      exact (kept_popped driver given t kept).pictures
  | error halt next =>
      rw [ran] at after
      exact after.2.pictures

end Runs

/-- The first call gives the picture of the one buffer that was dequeued. -/
theorem pictures_conserved_steady : match withOps steady [] with
    | .ok s _ => match Decoder.ask steady 3 .pollFrame s with
      | .ok (some frame) next =>
          frame.timestampUs = 7 ∧ [frame] ++ next.ready = shown steady next.log
      | _ => False
    | _ => False := by
  have runs : (match withOps steady [] with
      | .ok s _ => match Decoder.ask steady 3 .pollFrame s with
        | .ok (some frame) _ => decide (frame.timestampUs = 7)
        | _ => false
      | _ => false) = true := by decide +kernel
  split at runs
  · next s log opened =>
      have after := (pictures_conserved steady s [] (.opened s log opened)).2 3 .pollFrame
      split at runs
      · next frame next answered =>
          simp only [answered] at after ⊢
          exact ⟨of_decide_eq_true runs, after⟩
      · cases runs
  · cases runs

end Castr.V4l2
