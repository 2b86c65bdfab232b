import Castr.Lib.Halting
import Castr.Lib.Paced
import Castr.Media.Convert
import Castr.Sender.Cast
import Castr.Sender.Scaling

/-! The thread that captures the desktop and encodes it at a rate of its own. Instants are in
nanoseconds. A turn of its loop is `none` where the thread ends: by a stop, for want of an encoder
or of a receiver for its frames, or by a panic. -/

namespace Castr.Sender

open Castr.Lib Castr.Lib.Paced
open Castr.Lib.Checked (mul32)
open Castr.Media (convert)
open Castr.Proto (Mode)
open Castr.V4l2 (PixelFormat RawFrame)

/-- What the thread asks of the desktop and of its encoder, and what it captures. -/
inductive Done where
  | opened (cfg : EncoderConfig) (format : PixelFormat)
  | setBitrate (bps : UInt32)
  | setMode (mode : Mode)
  | requestKeyframe
  | nextFrame (timeoutMs : UInt32) (timestampUs : UInt64)
  | captured (frame : RawFrame)
  | encode (input : RawFrame) (now : Int)
  deriving DecidableEq, Repr

/-- The variables of the loop; the encoder is known by the format of its input. -/
structure Capturing where
  start : Int
  interval : Int
  cfg : EncoderConfig
  width : UInt32
  height : UInt32
  format : PixelFormat
  last : Option RawFrame
  lastSent : Int
  nextDue : Int
  pending : Bool
  deriving DecidableEq, Repr

/-- A command, and the format of the encoder that opens if it asks for a new one. -/
structure Command where
  cmd : EncCmd
  opens : Option PixelFormat
  deriving DecidableEq, Repr

inductive Captured where
  | frame (frame : RawFrame)
  | unchanged
  | failed
  deriving DecidableEq, Repr

/-- What a turn finds: the clock is read where the timestamp is made, before the capture, after it,
for the time since the last frame, and when a frame goes out. -/
structure Turn where
  commands : List Command
  begun : Int
  asked : Int
  captured : Captured
  checked : Int
  idle : Int
  sent : Int
  /-- There is someone to take an encoded frame, or the encoder gives none. -/
  taken : Bool
  deriving DecidableEq, Repr

namespace Capturing

def slot (fps : UInt32) : Int := (10 ^ 6 / fps.toNat * 1000 : Nat)

def keepalive : Int := 500 * 10 ^ 6

def spawned (cfg : EncoderConfig) (format : PixelFormat) (start lastSent nextDue : Int) :
    Capturing where
  start := start
  interval := slot cfg.fps
  cfg := cfg
  width := cfg.width
  height := cfg.height
  format := format
  last := none
  lastSent := lastSent
  nextDue := nextDue
  pending := false

def hear (s : Capturing) (command : Command) : Option (Capturing × Done) :=
  match command.cmd with
  | .bitrate bps => some ({ s with cfg := { s.cfg with bitrateBps := bps } }, .setBitrate bps)
  | .keyframe => some (s, .requestKeyframe)
  | .mode mode => some ({ s with cfg := { s.cfg with mode := mode } }, .setMode mode)
  | .resolution width height => do
      let cfg := { s.cfg with width := width, height := height }
      let format ← command.opens
      some ({ s with cfg := cfg, width := width, height := height, format := format },
        .opened cfg format)
  | .stop => none

def hearAll (s : Capturing) : List Command → Option (Capturing × List Done)
  | [] => some (s, [])
  | command :: commands => do
      let (next, done) ← s.hear command
      let (last, rest) ← next.hearAll commands
      some (last, done :: rest)

def millis (duration : Int) : UInt32 := UInt32.ofNat (duration.toNat / 10 ^ 6)

def timeout (s : Capturing) (now : Int) : UInt32 :=
  millis (if s.pending then s.nextDue - now else s.interval)

def choose (s : Capturing) (turn : Turn) (ts : UInt64) : Capturing × Option RawFrame :=
  match turn.captured with
  | .frame frame =>
      let s := { s with last := some frame, pending := true }
      if turn.checked < s.nextDue then (s, none) else ({ s with pending := false }, s.last)
  | .unchanged =>
      if s.pending ∧ s.nextDue ≤ turn.checked then ({ s with pending := false }, s.last)
      else if keepalive ≤ turn.idle - s.lastSent then
        (s, s.last.map (fun frame => { frame with timestampUs := ts }))
      else (s, none)
  | .failed => (s, none)

def react : Captured → List Done
  | .frame frame => [.captured frame]
  | .unchanged => []
  | .failed => [.requestKeyframe]

def sentAt (s : Capturing) (now : Int) : Capturing :=
  { s with lastSent := now, nextDue := advance s.interval s.nextDue now }

def scaled (width height : UInt32) (frame : RawFrame) : Option RawFrame :=
  if (frame.width, frame.height) ≠ (width, height) then do
    let stride ← mul32 width 4
    let data ← resizeBgraNearest frame.data frame.width frame.height frame.stride width height
    some ⟨.bgra, width, height, stride, data, frame.timestampUs⟩
  else some frame

def inputOf (width height : UInt32) (format : PixelFormat) (frame : RawFrame) : Option RawFrame :=
  do convert (← scaled width height frame) format

def turn (s : Capturing) (turn : Turn) : Option (Capturing × List Done) := do
  let (s, told) ← s.hearAll turn.commands
  let ts := UInt64.ofNat ((turn.begun - s.start).toNat / 1000)
  let done := told ++ .nextFrame (s.timeout turn.asked) ts :: react turn.captured
  let (s, frame) := s.choose turn ts
  match frame with
  | none => some (s, done)
  | some frame => do
      let s := s.sentAt turn.sent
      let input ← inputOf s.width s.height s.format frame
      if turn.taken then some (s, done ++ [.encode input turn.sent]) else none

end Capturing

/-- The clock does not run back within a turn, nor between two of them. -/
def Turn.Ordered (now : Int) (turn : Turn) : Prop :=
  now ≤ turn.begun ∧ turn.begun ≤ turn.asked ∧ turn.asked ≤ turn.checked ∧
    turn.checked ≤ turn.idle ∧ turn.idle ≤ turn.sent

instance (now : Int) (turn : Turn) : Decidable (turn.Ordered now) :=
  inferInstanceAs (Decidable (_ ∧ _ ∧ _ ∧ _ ∧ _))

def Done.frame : Done → Option RawFrame
  | .captured frame => some frame
  | _ => none

def Done.time : Done → Option Int
  | .encode _ now => some now
  | _ => none

/-- The loop with its whole past; `now` is the last reading of the clock. -/
structure Filming where
  thread : Capturing
  done : List Done
  now : Int
  deriving DecidableEq

namespace Filming

open Capturing

def step (s : Filming) (turn : Turn) : Option (Filming × Unit) :=
  if turn.Ordered s.now then
    (s.thread.turn turn).map (fun next => (⟨next.1, s.done ++ next.2, turn.sent⟩, ()))
  else none

def begin (cfg : EncoderConfig) (format : PixelFormat) (start lastSent nextDue : Int) : Filming :=
  ⟨.spawned cfg format start lastSent nextDue, [.opened cfg format], nextDue⟩

def newest (done : List Done) : Option RawFrame := (done.filterMap Done.frame).getLast?

def times (done : List Done) : List Int := done.filterMap Done.time

/-- The configuration of the encoder, and the format of its input. -/
def encoderAfter (encoder : EncoderConfig × PixelFormat) : Done → EncoderConfig × PixelFormat
  | .opened cfg format => (cfg, format)
  | .setBitrate bps => ({ encoder.1 with bitrateBps := bps }, encoder.2)
  | .setMode mode => ({ encoder.1 with mode := mode }, encoder.2)
  | _ => encoder

/-- The input shows the newest capture, at the size and in the format of its encoder. -/
def Shows (first : EncoderConfig × PixelFormat) (before : List Done) (input : RawFrame) : Prop :=
  ∃ frame stamp, newest before = some frame ∧
    inputOf (before.foldl encoderAfter first).1.width (before.foldl encoderAfter first).1.height
      (before.foldl encoderAfter first).2 { frame with timestampUs := stamp } = some input

end Filming

namespace Capturing

open Filming

variable {s next : Capturing} {told : List Done}

def Sized (s : Capturing) : Prop := s.width = s.cfg.width ∧ s.height = s.cfg.height

structure Told (s : Capturing) (commands : List EncCmd) (next : Capturing) (told : List Done) :
    Prop where
  same : next = { s with cfg := next.cfg, width := next.width, height := next.height,
                         format := next.format }
  sized : s.Sized → next.Sized
  cfg : next.cfg = commands.foldl EncoderConfig.told s.cfg
  encoder : told.foldl encoderAfter (s.cfg, s.format) = (next.cfg, next.format)
  unseen : told.filterMap Done.frame = []
  unsent : told.filterMap Done.time = []

theorem told_hear {command : Command} {done : Done} (heard : s.hear command = some (next, done)) :
    Told s [command.cmd] next [done] := by
  obtain ⟨cmd, opens⟩ := command
  cases cmd with
  | bitrate bps =>
      obtain ⟨rfl, rfl⟩ := Prod.mk.inj (Option.some.inj heard)
      exact ⟨rfl, id, rfl, rfl, rfl, rfl⟩
  | keyframe =>
      obtain ⟨rfl, rfl⟩ := Prod.mk.inj (Option.some.inj heard)
      exact ⟨rfl, id, rfl, rfl, rfl, rfl⟩
  | mode mode =>
      obtain ⟨rfl, rfl⟩ := Prod.mk.inj (Option.some.inj heard)
      exact ⟨rfl, id, rfl, rfl, rfl, rfl⟩
  | resolution width height =>
      obtain ⟨format, -, heard⟩ := Option.bind_eq_some_iff.mp heard
      obtain ⟨rfl, rfl⟩ := Prod.mk.inj (Option.some.inj heard)
      exact ⟨rfl, fun _ => ⟨rfl, rfl⟩, rfl, rfl, rfl, rfl⟩
  | stop => cases heard

theorem Told.trans {commands others : List EncCmd} {last : Capturing} {more : List Done}
    (first : Told s commands next told) (second : Told next others last more) :
    Told s (commands ++ others) last (told ++ more) := by
  refine ⟨?_, fun sized => second.sized (first.sized sized), ?_, ?_, ?_, ?_⟩
  · rw [second.same, first.same]
  · rw [List.foldl_append, second.cfg, first.cfg]
  · rw [List.foldl_append, first.encoder, second.encoder]
  · rw [List.filterMap_append, first.unseen, second.unseen, List.append_nil]
  · rw [List.filterMap_append, first.unsent, second.unsent, List.append_nil]

theorem told_hearAll {commands : List Command} (heard : s.hearAll commands = some (next, told)) :
    Told s (commands.map Command.cmd) next told := by
  induction commands generalizing s told with
  | nil =>
      obtain ⟨rfl, rfl⟩ := Prod.mk.inj (Option.some.inj heard)
      exact ⟨rfl, id, rfl, rfl, rfl, rfl⟩
  | cons command commands ih =>
      obtain ⟨⟨middle, done⟩, here, heard⟩ := Option.bind_eq_some_iff.mp heard
      obtain ⟨⟨last, rest⟩, later, heard⟩ := Option.bind_eq_some_iff.mp heard
      obtain ⟨rfl, rfl⟩ := Prod.mk.inj (Option.some.inj heard)
      exact (told_hear here).trans (ih later)

/-- The next frame is due an interval after the last one at the latest, if it was not due before. -/
def Near (s : Capturing) (now : Int) : Prop := s.nextDue ≤ max (s.lastSent + s.interval) now

structure Chosen (s : Capturing) (turn : Turn) (next : Capturing) (frame : Option RawFrame) :
    Prop where
  same : next = { s with last := next.last, pending := next.pending }
  last : next.last = ((react turn.captured).filterMap Done.frame).getLast?.or s.last
  newest : ∀ chosen, frame = some chosen → s.nextDue ≤ turn.idle ∧
    ∃ seen stamp, next.last = some seen ∧ chosen = { seen with timestampUs := stamp }
  silent : frame = none → turn.captured = .failed ∨ next.last = none ∨
    turn.checked < s.lastSent + keepalive

theorem choose_spec (s : Capturing) (turn : Turn) (ts : UInt64) {now : Int}
    (ordered : turn.Ordered now) (near : s.Near now) (short : s.interval ≤ keepalive) :
    Chosen s turn (s.choose turn ts).1 (s.choose turn ts).2 := by
  obtain ⟨start, asking, waited, looked, sending⟩ := ordered
  rw [Near] at near
  rw [choose]
  cases found : turn.captured with
  | frame frame =>
      dsimp only
      split
      · exact ⟨rfl, by rw [found]; rfl, by simp, fun _ => .inr (.inr (by omega))⟩
      · refine ⟨rfl, by rw [found]; rfl, fun chosen same => ⟨by omega, frame, ?_⟩, by simp⟩
        exact ⟨frame.timestampUs, rfl, (Option.some.inj same).symm⟩
  | unchanged =>
      dsimp only
      split
      · rename_i ripe
        refine ⟨rfl, by rw [found]; rfl, fun chosen same => ⟨by omega, chosen, ?_⟩, ?_⟩
        · exact ⟨chosen.timestampUs, same, rfl⟩
        · exact fun none_ => .inr (.inl none_)
      · split
        · refine ⟨rfl, by rw [found]; rfl, fun chosen same => ⟨by omega, ?_⟩, fun none_ =>
            .inr (.inl ?_)⟩
          · obtain ⟨seen, last, rfl⟩ := Option.map_eq_some_iff.mp same
            exact ⟨seen, ts, last, rfl⟩
          · exact Option.map_eq_none_iff.mp none_
        · exact ⟨rfl, by rw [found]; rfl, by simp, fun _ => .inr (.inr (by omega))⟩
  | failed => exact ⟨rfl, by rw [found]; rfl, by simp, fun _ => .inl found⟩

/-- A turn: the commands, the capture, and a frame if there is one to send. -/
inductive Turned (s : Capturing) (turn : Turn) : Capturing → List Done → Prop
  | quiet (middle after : Capturing) (told : List Done) (ask : UInt32 × UInt64) :
      Told s (turn.commands.map Command.cmd) middle told → Chosen middle turn after none →
      Turned s turn after (told ++ .nextFrame ask.1 ask.2 :: react turn.captured)
  | sends (middle after : Capturing) (told : List Done) (ask : UInt32 × UInt64)
      (frame input : RawFrame) :
      Told s (turn.commands.map Command.cmd) middle told → Chosen middle turn after (some frame) →
      inputOf after.width after.height after.format frame = some input →
      Turned s turn (after.sentAt turn.sent)
        (told ++ .nextFrame ask.1 ask.2 :: react turn.captured ++ [.encode input turn.sent])

theorem turn_spec {turn : Turn} {now : Int} {done : List Done}
    (taken : s.turn turn = some (next, done)) (ordered : turn.Ordered now) (near : s.Near now)
    (short : s.interval ≤ keepalive) : Turned s turn next done := by
  obtain ⟨⟨middle, told⟩, heard, taken⟩ := Option.bind_eq_some_iff.mp taken
  have tells := told_hearAll heard
  have near_ : middle.Near now := by
    rw [tells.same]
    exact near
  have short_ : middle.interval ≤ keepalive := by
    rw [tells.same]
    exact short
  have chosen := choose_spec middle turn
    (UInt64.ofNat ((turn.begun - middle.start).toNat / 1000)) ordered near_ short_
  dsimp only at taken
  split at taken
  · rename_i silent
    rw [silent] at chosen
    obtain ⟨rfl, rfl⟩ := Prod.mk.inj (Option.some.inj taken)
    exact .quiet middle _ told (_, _) tells chosen
  · rename_i frame some_
    rw [some_] at chosen
    obtain ⟨input, converted, taken⟩ := Option.bind_eq_some_iff.mp taken
    split at taken
    · obtain ⟨rfl, rfl⟩ := Prod.mk.inj (Option.some.inj taken)
      exact .sends middle _ told (_, _) frame input tells chosen converted
    · cases taken

end Capturing

namespace Filming

open Capturing

structure Inv (first : EncoderConfig × PixelFormat) (begun : Int) (s : Filming) : Prop where
  encoder : s.done.foldl encoderAfter first = (s.thread.cfg, s.thread.format)
  sized : s.thread.Sized
  latest : newest s.done = s.thread.last
  interval : s.thread.interval = slot first.1.fps
  slots : Slots s.thread.interval (times s.done) s.thread.nextDue
  near : s.thread.Near s.now
  sent : s.thread.lastSent = (times s.done).getLast?.getD begun
  shows : ∀ front input now back, s.done = front ++ .encode input now :: back →
    Shows first front input

variable {first : EncoderConfig × PixelFormat} {begun : Int} {s next : Filming} {turn : Turn}

theorem inv_begin (cfg : EncoderConfig) (format : PixelFormat) (start lastSent nextDue : Int) :
    Inv (cfg, format) lastSent (begin cfg format start lastSent nextDue) where
  encoder := rfl
  sized := ⟨rfl, rfl⟩
  latest := rfl
  interval := rfl
  slots := slots_nil
  near := le_max_right _ _
  sent := rfl
  shows := by
    intro front input now back split
    cases front with
    | nil => cases split
    | cons one front => cases front <;> cases split

theorem slot_short {fps : UInt32} (fast : 2 ≤ fps.toNat) : 0 ≤ slot fps ∧ slot fps ≤ keepalive := by
  have half : 10 ^ 6 / fps.toNat ≤ 10 ^ 6 / 2 := Nat.div_le_div_left fast (by decide)
  rw [slot, keepalive]
  omega

theorem unsent_chosen {told : List Done} (ask : UInt32 × UInt64) (captured : Captured)
    (unsent : told.filterMap Done.time = []) :
    (told ++ .nextFrame ask.1 ask.2 :: react captured).filterMap Done.time = [] := by
  rw [List.filterMap_append, unsent]
  cases captured <;> rfl

theorem encoded_before {done more front back : List Done} {input : RawFrame} {now : Int}
    (unsent : more.filterMap Done.time = [])
    (split : done ++ more = front ++ .encode input now :: back) :
    ∃ rest, done = front ++ .encode input now :: rest := by
  rcases List.append_eq_append_iff.mp split with ⟨middle, rfl, same⟩ | ⟨middle, rfl, same⟩
  · have sent : now ∈ more.filterMap Done.time :=
      List.mem_filterMap.mpr ⟨.encode input now, by rw [same]; simp, rfl⟩
    rw [unsent] at sent
    cases sent
  · cases middle with
    | nil =>
        rw [List.nil_append] at same
        have sent : now ∈ more.filterMap Done.time :=
          List.mem_filterMap.mpr ⟨.encode input now, by rw [← same]; simp, rfl⟩
        rw [unsent] at sent
        cases sent
    | cons one rest =>
        obtain ⟨rfl, -⟩ := List.cons.inj same
        exact ⟨rest, rfl⟩

/-- The turn as far as the choice of its frame. -/
theorem Inv.chosen (inv : Inv first begun s) (ask : UInt32 × UInt64) {middle after : Capturing}
    {told : List Done} {frame : Option RawFrame} {now : Int} {commands : List EncCmd}
    (tells : Told s.thread commands middle told) (chosen : Chosen middle turn after frame)
    (later : s.now ≤ now) :
    Inv first begun
      ⟨after, s.done ++ (told ++ .nextFrame ask.1 ask.2 :: react turn.captured), now⟩ := by
  have unsent := unsent_chosen ask turn.captured tells.unsent
  have sending : times (s.done ++ (told ++ .nextFrame ask.1 ask.2 :: react turn.captured)) =
      times s.done := by
    rw [times, List.filterMap_append, unsent, List.append_nil]
    rfl
  have seen : after.last = ((react turn.captured).filterMap Done.frame).getLast?.or
      s.thread.last := by
    rw [chosen.last, tells.same]
  have kept : after = { middle with last := after.last, pending := after.pending } := chosen.same
  have same : after.interval = s.thread.interval ∧ after.nextDue = s.thread.nextDue ∧
      after.lastSent = s.thread.lastSent := by
    rw [kept, tells.same]
    exact ⟨rfl, rfl, rfl⟩
  refine ⟨?_, ?_, ?_, same.1.trans inv.interval, ?_, ?_, ?_, ?_⟩
  · dsimp only
    rw [List.foldl_append, inv.encoder, List.foldl_append, tells.encoder, kept]
    cases turn.captured <;> rfl
  · have sized := tells.sized inv.sized
    rw [kept]
    exact sized
  · dsimp only
    rw [newest, List.filterMap_append, List.filterMap_append, tells.unseen, List.nil_append,
      List.getLast?_append, seen, ← inv.latest]
    rfl
  · dsimp only
    rw [sending, same.1, same.2.1]
    exact inv.slots
  · have near := inv.near
    rw [Near] at near ⊢
    rw [same.1, same.2.1, same.2.2]
    exact near.trans (max_le_max_left _ later)
  · rw [sending]
    exact same.2.2.trans inv.sent
  · intro front input time back split
    obtain ⟨rest, before⟩ := encoded_before unsent split
    exact inv.shows front input time rest before

theorem Inv.encode {after : Capturing} {done : List Done} {idle now : Int} {input : RawFrame}
    (inv : Inv first begun ⟨after, done, idle⟩) (fast : 2 ≤ first.1.fps.toNat)
    (due : after.nextDue ≤ now) (shows : Shows first done input) :
    Inv first begun ⟨after.sentAt now, done ++ [.encode input now], now⟩ := by
  have sending : times (done ++ [.encode input now]) = times done ++ [now] := by
    rw [times, List.filterMap_append]
    rfl
  have positive : 0 ≤ after.interval := by
    rw [inv.interval]
    exact (slot_short fast).1
  refine ⟨?_, inv.sized, ?_, inv.interval, ?_, ?_, ?_, ?_⟩
  · dsimp only
    rw [List.foldl_append]
    exact inv.encoder
  · dsimp only
    rw [newest, List.filterMap_append]
    exact (congrArg List.getLast? (List.append_nil _)).trans inv.latest
  · dsimp only
    rw [sending]
    exact inv.slots.take due
  · exact (advance_near positive due).trans (le_max_left _ _)
  · rw [sending, List.getLast?_append]
    rfl
  · intro front other time back split
    rcases Since.split_snoc split with ⟨rfl, same, rfl⟩ | ⟨rest, rfl, before⟩
    · obtain ⟨rfl, -⟩ := Done.encode.inj same
      exact shows
    · exact inv.shows front other time rest before

/-- One turn: it keeps what holds, and sends unless there is nothing to send or no need to. -/
theorem inv_step (inv : Inv first begun s) (fast : 2 ≤ first.1.fps.toNat) {out : Unit}
    (taken : step s turn = some (next, out)) :
    Inv first begun next ∧
      (times next.done = times s.done ++ [turn.sent] ∨ turn.captured = .failed ∨
        newest next.done = none ∨ turn.checked < s.thread.lastSent + keepalive) := by
  rw [step] at taken
  split at taken
  swap
  · cases taken
  rename_i ordered
  obtain ⟨⟨thread, done⟩, turned, same⟩ := Option.map_eq_some_iff.mp taken
  obtain ⟨rfl, -⟩ := Prod.mk.inj same
  have short : s.thread.interval ≤ keepalive := by
    rw [inv.interval]
    exact (slot_short fast).2
  have quick : s.now ≤ turn.idle ∧ turn.idle ≤ turn.sent := by
    obtain ⟨start, asking, waited, looked, sending⟩ := ordered
    omega
  cases turn_spec turned ordered inv.near short with
  | quiet middle after told ask tells chosen =>
      have kept := inv.chosen ask tells chosen (quick.1.trans quick.2)
      refine ⟨kept, .inr ?_⟩
      rcases chosen.silent rfl with failed | unseen | early
      · exact .inl failed
      · exact .inr (.inl (kept.latest.trans unseen))
      · rw [tells.same] at early
        exact .inr (.inr early)
  | sends middle after told ask frame input tells chosen converted =>
      have kept := inv.chosen ask tells chosen quick.1
      obtain ⟨due, seen, stamp, latest, rfl⟩ := chosen.newest frame rfl
      have due_ : after.nextDue ≤ turn.sent := by
        rw [chosen.same]
        exact due.trans quick.2
      have shows : Shows first (s.done ++ (told ++ .nextFrame ask.1 ask.2 :: react turn.captured))
          input := by
        refine ⟨seen, stamp, kept.latest.trans latest, ?_⟩
        rw [kept.encoder, ← kept.sized.1, ← kept.sized.2]
        exact converted
      have encoded := kept.encode fast due_ shows
      rw [List.append_assoc] at encoded
      have unsent := unsent_chosen ask turn.captured tells.unsent
      refine ⟨encoded, .inl ?_⟩
      dsimp only
      rw [times, List.filterMap_append, List.filterMap_append, unsent]
      rfl

theorem inv_final {turns : List Turn} {start : Int} {cfg : EncoderConfig} {format : PixelFormat}
    {lastSent nextDue : Int} {last : Filming} (fast : 2 ≤ cfg.fps.toNat)
    (ended : Halting.final step (begin cfg format start lastSent nextDue) turns = some last) :
    Inv (cfg, format) lastSent last :=
  Halting.final_invariant step (Inv (cfg, format) lastSent) (inv_begin _ _ _ _ _)
    (fun _ _ _ _ taken inv => (inv_step inv fast taken).1) ended

theorem cfg_final {turns : List Turn} {start : Int} {cfg : EncoderConfig} {format : PixelFormat}
    {lastSent nextDue : Int} {last : Filming} (fast : 2 ≤ cfg.fps.toNat)
    (ended : Halting.final step (begin cfg format start lastSent nextDue) turns = some last) :
    last.thread.cfg =
      (turns.flatMap (fun turn => turn.commands.map Command.cmd)).foldl EncoderConfig.told cfg := by
  refine Halting.final_induction step (fun turns last => last.thread.cfg = (turns.flatMap
    (fun turn => turn.commands.map Command.cmd)).foldl EncoderConfig.told cfg) rfl ?_ turns ended
  intro front turn middle next out reached taken before
  have inv := inv_final fast reached
  rw [step] at taken
  split at taken
  swap
  · cases taken
  rename_i ordered
  obtain ⟨⟨thread, done⟩, turned, same⟩ := Option.map_eq_some_iff.mp taken
  obtain ⟨rfl, -⟩ := Prod.mk.inj same
  have short : middle.thread.interval ≤ keepalive := by
    rw [inv.interval]
    exact (slot_short fast).2
  rw [List.flatMap_append, List.foldl_append, ← before, List.flatMap_singleton]
  cases turn_spec turned ordered inv.near short with
  | quiet between after told ask tells chosen => rw [← tells.cfg, chosen.same]
  | sends between after told ask frame input tells chosen converted =>
      rw [← tells.cfg, chosen.same]
      rfl

/-- However commands, captures and readings of the clock come: in any time only so many frames are
encoded as it has slots, and two; each shows what was captured last, at the size and in the format
of the encoder then open, whose configuration is the one commanded; and half a second after a frame
there is another one, unless the capture fails or nothing was ever captured. -/
theorem filmed (cfg : EncoderConfig) (format : PixelFormat) (start lastSent nextDue : Int)
    (fast : 2 ≤ cfg.fps.toNat) (turns : List Turn) (last : Filming)
    (ended : Halting.final step (begin cfg format start lastSent nextDue) turns = some last) :
    (∀ (i j : Nat) (s t : Int), i < j → (times last.done)[i]? = some s →
      (times last.done)[j]? = some t → s + ((j : Int) - i - 2) * slot cfg.fps ≤ t) ∧
    (∀ front input now back, last.done = front ++ .encode input now :: back →
      Shows (cfg, format) front input) ∧
    (last.done.foldl encoderAfter (cfg, format)).1 =
      (turns.flatMap (fun turn => turn.commands.map Command.cmd)).foldl EncoderConfig.told cfg ∧
    ∀ turn next, step last turn = some (next, ()) → turn.captured ≠ .failed →
      newest next.done ≠ none →
      (times last.done).getLast?.getD lastSent + keepalive ≤ turn.checked →
      times next.done = times last.done ++ [turn.sent] := by
  have inv := inv_final fast ended
  have interval : last.thread.interval = slot cfg.fps := inv.interval
  refine ⟨?_, inv.shows, ?_, fun turn next taken works seen waited => ?_⟩
  · rw [← interval]
    exact inv.slots.apart
  · rw [inv.encoder]
    exact cfg_final fast ended
  · rcases (inv_step inv fast taken).2 with sent | failed | unseen | early
    · exact sent
    · exact absurd failed works
    · exact absurd unseen seen
    · rw [inv.sent] at early
      omega

/-- A frame that comes before its slot, and half a second later its repetition. -/
theorem filmed_repeated :
    let white : RawFrame := ⟨.bgra, 2, 2, 8, List.replicate 16 255, 3⟩
    let turns : List Turn := [
      ⟨[⟨.resolution 2 2, some .nv12⟩, ⟨.bitrate 7, none⟩], 0, 1, .frame white, 2, 3, 4, true⟩,
      ⟨[], 5, 6, .frame white, 7, 8, 9, true⟩]
    let late : Turn := ⟨[], 9, 9, .unchanged, 600000000, 600000000, 600000000, true⟩
    ∃ last next, Halting.final step (begin ⟨4, 4, 2, 9, .game⟩ .i420 0 0 0) turns = some last ∧
      times last.done = [4] ∧ step last late = some (next, ()) ∧
      times next.done = [4, 600000000] := by
  intro white turns late
  have sent : (Halting.final step (begin ⟨4, 4, 2, 9, .game⟩ .i420 0 0 0) turns).map
      (fun last => times last.done) = some [4] := by decide
  have seen : (Halting.final step (begin ⟨4, 4, 2, 9, .game⟩ .i420 0 0 0) (turns ++ [late])).map
      (fun last => newest last.done) = some (some white) := by decide
  obtain ⟨next, ended, shown⟩ := Option.map_eq_some_iff.mp seen
  obtain ⟨last, out, reached, taken⟩ := Halting.final_snoc_eq step ended
  rw [reached] at sent
  have one : times last.done = [4] := Option.some.inj sent
  obtain ⟨-, -, -, alive⟩ := filmed ⟨4, 4, 2, 9, .game⟩ .i420 0 0 0 (by decide) turns last reached
  have again := alive late next taken (by decide) (by rw [shown]; decide) (by rw [one]; decide)
  rw [one] at again
  exact ⟨last, next, reached, one, taken, again⟩

end Filming

end Castr.Sender
