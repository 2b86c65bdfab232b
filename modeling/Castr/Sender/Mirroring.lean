import Castr.Capture.Rotating
import Castr.Lib.Since
import Castr.Sender.Capturing
import Castr.Sender.Miracast

/-! The video thread of a cast to a Miracast display, frame by frame. It sends one in every slot,
whether the desktop has changed or not. Instants are in nanoseconds; a turn of its loop is `none`
where the thread ends. -/

namespace Castr.Sender.Miracast

open Castr.Lib Castr.Lib.Since
open Castr.Capture (scaled)
open Castr.Media (convert)
open Castr.Sender.Capturing (millis)
open Castr.V4l2 (PixelFormat RawFrame)

structure Glance where
  begun : Int
  asked : Int
  captured : Captured
  checked : Int
  stamped : Int
  /-- The sides of the picture scaled into the display, in floating point. -/
  roundedW : UInt32
  roundedH : UInt32
  /-- The encoder takes the rate that it is told. -/
  obeyed : Bool
  /-- It takes the frame, and there is someone to take what it gives. -/
  taken : Bool
  deriving DecidableEq, Repr

/-- A frame that goes to the encoder, the turn it was made in, and what the encoder was told before
it. -/
structure Picture where
  input : RawFrame
  glance : Glance
  repeated : Bool
  keyframe : Bool
  applied : Option Nat
  deriving DecidableEq, Repr

inductive Entry where
  /-- The display asks for a keyframe, or for a rate. -/
  | wantsKeyframe
  | wantsRate (kbps : UInt32)
  | nextFrame (timeoutMs : UInt32) (timestampUs : UInt64)
  | captured (frame : RawFrame)
  | pictured (picture : Picture)
  deriving DecidableEq, Repr

structure Mirroring where
  start : Int
  width : UInt32
  height : UInt32
  interval : Int
  format : PixelFormat
  thread : VideoThread
  last : Option RawFrame
  nextDue : Int
  fresh : Bool
  wantIdr : Bool
  wantKbps : UInt32
  deriving DecidableEq, Repr

namespace Mirroring

def micros (s : Mirroring) (now : Int) : UInt64 := UInt64.ofNat ((now - s.start).toNat / 1000)

/-- At least a millisecond. -/
def timeout (s : Mirroring) (now : Int) : UInt32 := millis (max (s.nextDue - now) (10 ^ 6))

def see (s : Mirroring) : Captured → Option (Mirroring × List Entry)
  | .frame frame => some ({ s with last := some frame, fresh := true }, [.captured frame])
  | .unchanged => some (s, [])
  | .failed => none

def inputOf (s : Mirroring) (glance : Glance) (frame : RawFrame) : Option RawFrame := do
  let frame := { frame with timestampUs := s.micros glance.stamped }
  convert (← scaled frame s.width s.height glance.roundedW glance.roundedH) s.format

def picture (s : Mirroring) (glance : Glance) (frame : RawFrame) :
    Option (Mirroring × Picture) := do
  let input ← s.inputOf glance frame
  let (thread, applied) ← s.thread.serve ⟨s.wantKbps, glance.obeyed⟩
  if glance.taken then
    some ({ s with thread := thread, fresh := false, wantIdr := false, wantKbps := 0 },
      ⟨input, glance, !s.fresh, s.wantIdr, applied⟩)
  else none

def turn (s : Mirroring) (glance : Glance) : Option (Mirroring × List Entry) := do
  let asked := Entry.nextFrame (s.timeout glance.asked) (s.micros glance.begun)
  let (s, seen) ← s.see glance.captured
  if glance.checked < s.nextDue then some (s, asked :: seen)
  else
    let s := { s with nextDue := s.nextDue + s.interval }
    match s.last with
    | none => some (s, asked :: seen)
    | some frame => do
        let (s, picture) ← s.picture glance frame
        some (s, asked :: seen ++ [.pictured picture])

inductive Event where
  | wantsKeyframe
  | wantsRate (kbps : UInt32)
  | turns (glance : Glance)
  deriving DecidableEq, Repr

def act (s : Mirroring) : Event → Option (Mirroring × List Entry)
  | .wantsKeyframe => some ({ s with wantIdr := true }, [.wantsKeyframe])
  | .wantsRate kbps => some ({ s with wantKbps := kbps }, [.wantsRate kbps])
  | .turns glance => s.turn glance

end Mirroring

structure Mirrored where
  state : Mirroring
  log : List Entry
  deriving DecidableEq

namespace Mirrored

def step (m : Mirrored) (event : Mirroring.Event) : Option (Mirrored × Unit) :=
  (m.state.act event).map (fun next => (⟨next.1, m.log ++ next.2⟩, ()))

def begin (start : Int) (width height fps : UInt32) (format : PixelFormat) (thread : VideoThread)
    (nextDue : Int) : Mirrored where
  state := {
    start := start
    width := width
    height := height
    interval := (10 ^ 6 / (max fps 1).toNat * 1000 : Nat)
    format := format
    thread := thread
    last := none
    nextDue := nextDue
    fresh := false
    wantIdr := false
    wantKbps := 0 }
  log := []

end Mirrored

def isPictured : Entry → Bool
  | .pictured _ => true
  | _ => false

def Entry.capture : Entry → Option RawFrame
  | .captured frame => some frame
  | _ => none

def Entry.rate : Entry → Option UInt32
  | .wantsRate kbps => some kbps
  | _ => none

def newest (log : List Entry) : Option RawFrame := (log.filterMap Entry.capture).getLast?

/-- The rate asked for last since a frame was sent, 0 where none was. -/
def askedRate (log : List Entry) : UInt32 :=
  ((since isPictured log).filterMap Entry.rate).getLast?.getD 0

/-- What a frame that is sent has to do with what came before it. -/
structure Truthful (first : Mirroring) (front : List Entry) (picture : Picture) : Prop where
  paced : first.nextDue + front.countP isPictured * first.interval ≤ picture.glance.checked
  repeats : picture.repeated = true ↔ ∀ entry ∈ since isPictured front, entry.capture = none
  keyframe : picture.keyframe = true ↔ .wantsKeyframe ∈ since isPictured front
  rate : picture.applied = if askedRate front = 0 then none
    else clamp (askedRate front).toNat minKbps (first.thread.bitrateBps / 1000)
  shows : ∃ frame, newest front = some frame ∧
    first.inputOf picture.glance frame = some picture.input

structure Alike (first s : Mirroring) : Prop where
  start : s.start = first.start
  width : s.width = first.width
  height : s.height = first.height
  interval : s.interval = first.interval
  format : s.format = first.format
  bitrate : s.thread.bitrateBps = first.thread.bitrateBps

structure Inv (first : Mirroring) (m : Mirrored) : Prop where
  alike : Alike first m.state
  due : first.nextDue + m.log.countP isPictured * first.interval ≤ m.state.nextDue
  fresh : m.state.fresh = true ↔ ∃ entry ∈ since isPictured m.log, entry.capture ≠ none
  idr : m.state.wantIdr = true ↔ .wantsKeyframe ∈ since isPictured m.log
  kbps : m.state.wantKbps = askedRate m.log
  last : m.state.last = newest m.log
  told : Each (fun front entry => ∀ picture, entry = .pictured picture →
    Truthful first front picture) m.log

variable {first s next : Mirroring} {log : List Entry}

theorem Alike.refl (s : Mirroring) : Alike s s := ⟨rfl, rfl, rfl, rfl, rfl, rfl⟩

theorem Alike.trans (alike : Alike first s) (also : Alike s next) : Alike first next where
  start := also.start.trans alike.start
  width := also.width.trans alike.width
  height := also.height.trans alike.height
  interval := also.interval.trans alike.interval
  format := also.format.trans alike.format
  bitrate := also.bitrate.trans alike.bitrate

theorem Alike.inputOf (alike : Alike first s) (glance : Glance) (frame : RawFrame) :
    s.inputOf glance frame = first.inputOf glance frame := by
  unfold Mirroring.inputOf Mirroring.micros
  rw [alike.start, alike.width, alike.height, alike.format]

theorem inv_begin (first : Mirroring) (unseen : first.last = none) (stale : first.fresh = false)
    (unasked : first.wantIdr = false) (free : first.wantKbps = 0) : Inv first ⟨first, []⟩ where
  alike := .refl first
  due := by
    rw [List.countP_nil, Int.natCast_zero, Int.zero_mul, Int.add_zero]
  fresh := by simp [stale]
  idr := by simp [unasked]
  kbps := free
  last := unseen
  told := each_nil

theorem Inv.logs (inv : Inv first ⟨s, log⟩) (entry : Entry) (other : isPictured entry = false)
    (alike : Alike s next) (due : next.nextDue = s.nextDue)
    (fresh : next.fresh = true ↔ s.fresh = true ∨ entry.capture ≠ none)
    (idr : next.wantIdr = true ↔ s.wantIdr = true ∨ .wantsKeyframe = entry)
    (kbps : next.wantKbps = entry.rate.getD s.wantKbps)
    (last : next.last = entry.capture.or s.last) : Inv first ⟨next, log ++ [entry]⟩ where
  alike := inv.alike.trans alike
  due := by
    have before := inv.due
    dsimp only at before ⊢
    rw [List.countP_append, List.countP_singleton, other, due]
    exact before
  fresh := by
    have before := inv.fresh
    dsimp only at before ⊢
    rw [fresh, before, since_other other]
    simp only [List.mem_append, List.mem_singleton, or_and_right, exists_or, exists_eq_left]
  idr := by
    have before := inv.idr
    dsimp only at before ⊢
    rw [idr, before, since_other other, List.mem_append, List.mem_singleton]
  kbps := by
    have before := inv.kbps
    dsimp only at before ⊢
    rw [kbps, before, askedRate, askedRate, since_other other, List.filterMap_append,
      List.getLast?_append]
    cases rate : entry.rate with
    | none => simp [rate]
    | some kbps => simp [rate]
  last := by
    have before := inv.last
    dsimp only at before ⊢
    rw [last, before, newest, newest, List.filterMap_append, List.getLast?_append]
    cases seen : entry.capture with
    | none => simp [seen]
    | some frame => simp [seen]
  told := each_snoc inv.told (fun picture same => by
    rw [same] at other
    cases other)

theorem Inv.skips (inv : Inv first ⟨s, log⟩) (forward : 0 ≤ first.interval) :
    Inv first ⟨{ s with nextDue := s.nextDue + s.interval }, log⟩ where
  alike := inv.alike.trans ⟨rfl, rfl, rfl, rfl, rfl, rfl⟩
  due := by
    have before := inv.due
    have same := inv.alike.interval
    dsimp only at before same ⊢
    omega
  fresh := inv.fresh
  idr := inv.idr
  kbps := inv.kbps
  last := inv.last
  told := inv.told

theorem serve_spec {thread after : VideoThread} {request : Request} {applied : Option Nat}
    (served : thread.serve request = some (after, applied)) :
    after.bitrateBps = thread.bitrateBps ∧
      applied = if request.asked = 0 then none
        else clamp request.asked.toNat minKbps (thread.bitrateBps / 1000) := by
  unfold VideoThread.serve at served
  split at served
  · rename_i silent
    cases served
    exact ⟨rfl, (if_pos silent).symm⟩
  · rename_i asks
    obtain ⟨rate, clamped, served⟩ := Option.bind_eq_some_iff.mp served
    obtain ⟨bps, _, served⟩ := Option.bind_eq_some_iff.mp served
    cases served
    refine ⟨?_, ?_⟩
    · split <;> rfl
    · rw [if_neg asks]
      exact clamped.symm

/-- A frame is sent, in its slot. -/
theorem Inv.sends (inv : Inv first ⟨s, log⟩) (forward : 0 ≤ first.interval) {glance : Glance}
    {frame : RawFrame} {picture : Picture} (ripe : s.nextDue ≤ glance.checked)
    (seen : s.last = some frame)
    (sent : ({ s with nextDue := s.nextDue + s.interval } : Mirroring).picture glance frame =
      some (next, picture)) : Inv first ⟨next, log ++ [.pictured picture]⟩ := by
  obtain ⟨input, shown, sent⟩ := Option.bind_eq_some_iff.mp sent
  obtain ⟨⟨thread, applied⟩, served, sent⟩ := Option.bind_eq_some_iff.mp sent
  obtain ⟨bitrate, rate⟩ := serve_spec served
  dsimp only at bitrate rate sent
  split at sent
  · cases sent
    have marks : since isPictured (log ++ [Entry.pictured
        ⟨input, glance, !s.fresh, s.wantIdr, applied⟩]) = [] := since_mark rfl log
    have skipped := inv.skips forward
    refine ⟨⟨inv.alike.start, inv.alike.width, inv.alike.height, inv.alike.interval,
      inv.alike.format, bitrate.trans inv.alike.bitrate⟩, ?_, ?_, ?_, ?_, ?_, ?_⟩
    · have before := inv.due
      have same := inv.alike.interval
      have one : [Entry.pictured ⟨input, glance, !s.fresh, s.wantIdr, applied⟩].countP
          isPictured = 1 := rfl
      dsimp only at before same ⊢
      rw [List.countP_append, one, Int.natCast_add, Int.natCast_one, Int.add_mul, Int.one_mul, same]
      omega
    · simp [marks]
    · simp [marks]
    · simp [marks, askedRate]
    · have before := inv.last
      have nothing : [Entry.pictured ⟨input, glance, !s.fresh, s.wantIdr, applied⟩].filterMap
          Entry.capture = [] := rfl
      dsimp only at before ⊢
      rw [newest, List.filterMap_append, nothing, List.append_nil]
      exact before
    · refine each_snoc inv.told (fun picture same => ?_)
      cases same
      have fresh := inv.fresh
      have asked := inv.kbps
      have start := inv.alike.bitrate
      dsimp only at fresh asked start
      refine ⟨inv.due.trans ripe, ?_, inv.idr, ?_, frame, inv.last.symm.trans seen, ?_⟩
      · dsimp only
        rw [Bool.not_eq_true', ← Bool.not_eq_true, fresh]
        simp only [not_exists, not_and, ne_eq, not_not]
      · rw [← asked, ← start]
        exact rate
      · exact (skipped.alike.inputOf glance frame).symm.trans shown
  · cases sent

theorem inv_see (inv : Inv first ⟨s, log⟩) {captured : Captured} {entries : List Entry}
    (sees : s.see captured = some (next, entries)) :
    Inv first ⟨next, log ++ entries⟩ ∧ next.nextDue = s.nextDue := by
  cases captured with
  | frame frame =>
      cases sees
      exact ⟨inv.logs (.captured frame) rfl ⟨rfl, rfl, rfl, rfl, rfl, rfl⟩ rfl
        (by simp [Entry.capture]) (by simp) rfl rfl, rfl⟩
  | unchanged =>
      cases sees
      rw [List.append_nil]
      exact ⟨inv, rfl⟩
  | failed => cases sees

theorem inv_turn (inv : Inv first ⟨s, log⟩) (forward : 0 ≤ first.interval) {glance : Glance}
    {entries : List Entry} (turned : s.turn glance = some (next, entries)) :
    Inv first ⟨next, log ++ entries⟩ ∧ (s.nextDue ≤ glance.checked →
      newest (log ++ entries) ≠ none →
        ∃ front picture, entries = front ++ [.pictured picture]) := by
  obtain ⟨⟨found, seen⟩, sees, turned⟩ := Option.bind_eq_some_iff.mp turned
  have asked := inv.logs (.nextFrame (s.timeout glance.asked) (s.micros glance.begun)) rfl
    (.refl s) rfl (by simp [Entry.capture]) (by simp) rfl rfl
  obtain ⟨now, due⟩ := inv_see asked sees
  rw [List.append_assoc, List.singleton_append] at now
  dsimp only at turned
  split at turned
  · rename_i early
    cases turned
    exact ⟨now, fun ripe => by omega⟩
  · rename_i ripe
    split at turned
    · rename_i unseen
      cases turned
      exact ⟨now.skips forward, fun _ shown => absurd (now.last.symm.trans unseen) shown⟩
    · rename_i frame shown
      obtain ⟨⟨after, picture⟩, sent, turned⟩ := Option.bind_eq_some_iff.mp turned
      cases turned
      have sends := now.sends forward (not_lt.mp ripe) shown sent
      rw [List.append_assoc] at sends
      exact ⟨sends, fun _ _ => ⟨_, picture, rfl⟩⟩

theorem inv_act (inv : Inv first ⟨s, log⟩) (forward : 0 ≤ first.interval)
    {event : Mirroring.Event} {entries : List Entry}
    (acts : s.act event = some (next, entries)) : Inv first ⟨next, log ++ entries⟩ := by
  cases event with
  | wantsKeyframe =>
      cases acts
      exact inv.logs .wantsKeyframe rfl ⟨rfl, rfl, rfl, rfl, rfl, rfl⟩ rfl (by simp [Entry.capture])
        (by simp) rfl rfl
  | wantsRate kbps =>
      cases acts
      exact inv.logs (.wantsRate kbps) rfl ⟨rfl, rfl, rfl, rfl, rfl, rfl⟩ rfl
        (by simp [Entry.capture]) (by simp) rfl rfl
  | turns glance => exact (inv_turn inv forward acts).1

namespace Mirrored

theorem step_eq_some {m next : Mirrored} {event : Mirroring.Event}
    (taken : m.step event = some (next, ())) :
    ∃ state entries, m.state.act event = some (state, entries) ∧ next =
      ⟨state, m.log ++ entries⟩ := by
  obtain ⟨⟨state, entries⟩, acts, same⟩ := Option.map_eq_some_iff.mp taken
  exact ⟨state, entries, acts, (congrArg Prod.fst same).symm⟩

/-- Whatever the desktop shows, the display asks for and the clock says: no frame is sent before its
slot; each shows what was captured last, at the negotiated size and in the encoder's format, counts
as repeated if nothing was captured since the one before it, and comes after a keyframe request and
at a rate exactly when the display asked for them since; and in a slot that has come a frame is
sent, once anything was captured. -/
theorem mirrored (start : Int) (width height fps : UInt32) (format : PixelFormat)
    (thread : VideoThread) (nextDue : Int) (events : List Mirroring.Event) (last : Mirrored)
    (ended : Halting.final step (begin start width height fps format thread nextDue) events =
      some last) :
    (∀ front picture back, last.log = front ++ .pictured picture :: back →
      Truthful (begin start width height fps format thread nextDue).state front picture) ∧
    ∀ glance next, last.step (.turns glance) = some (next, ()) →
      last.state.nextDue ≤ glance.checked → newest next.log ≠ none →
        ∃ front picture, next.log = last.log ++ front ++ [.pictured picture] := by
  have forward : 0 ≤ (begin start width height fps format thread nextDue).state.interval :=
    Int.natCast_nonneg _
  have inv : Inv (begin start width height fps format thread nextDue).state last := by
    refine Halting.final_invariant step (Inv _) (inv_begin _ rfl rfl rfl rfl) ?_ ended
    intro m event next out taken now
    obtain ⟨state, entries, acts, rfl⟩ := step_eq_some taken
    exact inv_act now forward acts
  refine ⟨fun front picture back split => inv.told front _ back split picture rfl, ?_⟩
  intro glance next taken ripe seen
  obtain ⟨state, entries, acts, rfl⟩ := step_eq_some taken
  obtain ⟨front, picture, rfl⟩ := (inv_turn inv forward acts).2 ripe seen
  exact ⟨front, picture, (List.append_assoc _ _ _).symm⟩

/-- A frame at a rate that the display asks for, and a slot later its repetition. -/
theorem mirrored_repeated :
    let white : RawFrame := ⟨.bgra, 2, 2, 8, List.replicate 16 255, 3⟩
    let first := begin 0 2 2 30 .i420 ⟨8000000, 8000000⟩ 0
    let events : List Mirroring.Event := [.wantsRate 500, .wantsKeyframe,
      .turns ⟨0, 1, .frame white, 5, 6, 2, 2, true, true⟩]
    let still : Glance := ⟨7, 8, .unchanged, 33333000, 33333001, 2, 2, true, true⟩
    ∃ last next, Halting.final step first events = some last ∧
      last.log.countP isPictured = 1 ∧ last.step (.turns still) = some (next, ()) ∧
      ∃ front picture, next.log = last.log ++ front ++ [.pictured picture] := by
  intro white first events still
  have sent : (Halting.final step first events).map (fun last =>
      (last.log.countP isPictured, last.state.nextDue)) = some (1, 33333000) := by decide
  have seen : (Halting.final step first (events ++ [.turns still])).map
      (fun last => newest last.log) = some (some white) := by decide
  obtain ⟨next, ended, shown⟩ := Option.map_eq_some_iff.mp seen
  obtain ⟨last, out, reached, taken⟩ := Halting.final_snoc_eq step ended
  rw [reached] at sent
  obtain ⟨one, due⟩ := Prod.mk.inj (Option.some.inj sent)
  have alive := (mirrored 0 2 2 30 .i420 ⟨8000000, 8000000⟩ 0 events last reached).2
    still next taken
    due.le (by rw [shown]; decide)
  exact ⟨last, next, reached, one, taken, alive⟩

end Mirrored

end Castr.Sender.Miracast
