import Castr.Lib.Timer
import Castr.Media.Bitrate

/-! When the resolution is stepped down. The two timers run on over a change of the mode, and both
may be due in one call. -/

namespace Castr.Media

open Castr.Lib
open Castr.Lib.Checked
open Castr.Lib.Timer
open Castr.Lib.Word (saturatingSub saturatingSub_toNat)
open Castr.Proto (Mode Stats)

namespace BitrateController

def lossOf (stats : Stats) : ℚ := loss stats (stats.fragmentsLost + stats.fragmentsReceived)

def Event.time : Event → Option UInt64
  | .stats _ nowUs => some nowUs
  | .setMode _ => none

def Changes (c : BitrateController) : Event → Prop
  | .stats _ _ => False
  | .setMode mode => mode ≠ c.mode

def AtFloor (c : BitrateController) : Event → Prop
  | .stats stats nowUs =>
      ∀ next decision, c.onStats stats nowUs = some (next, decision) → next.bitrate = minBitrate
  | .setMode _ => True

def DeepQueue (_ : BitrateController) : Event → Prop
  | .stats stats _ => deep (lossOf stats) stats.decodeQueueDepth = true
  | .setMode _ => True

/-- A report came at least so long before `nowUs`, and at every event from it on it holds. -/
def HeldFor (Holds : BitrateController → Event → Prop) (wait nowUs : UInt64)
    (start : BitrateController) (run : List Event) : Prop :=
  Since step Event.time Holds (fun t => t.toNat + wait.toNat ≤ nowUs.toNat) start run

def QueueDue (c : BitrateController) (stats : Stats) (nowUs : UInt64) : Prop :=
  c.mode = .game ∧ deep (lossOf stats) stats.decodeQueueDepth = true ∧
    c.stepDownDue c.queueHighSinceUs queueStepDownUs nowUs = true

def FloorDue (c : BitrateController) (stats : Stats) (nowUs : UInt64) : Prop :=
  c.mode = .game ∧
    ((c.cut (lossOf stats) stats.decodeQueueDepth nowUs).raise (lossOf stats)
      stats.decodeQueueDepth nowUs).map bitrate = some minBitrate ∧
    c.stepDownDue c.atFloorSinceUs floorStepDownUs nowUs = true

instance (c : BitrateController) (stats : Stats) (nowUs : UInt64) :
    Decidable (c.QueueDue stats nowUs) := inferInstanceAs (Decidable (_ ∧ _ ∧ _))

instance (c : BitrateController) (stats : Stats) (nowUs : UInt64) :
    Decidable (c.FloorDue stats nowUs) := inferInstanceAs (Decidable (_ ∧ _ ∧ _))

/-- What resolution steps read, other than the bitrate, is as it was. -/
structure Beside (c next : BitrateController) : Prop where
  rung : next.rung = c.rung
  ladder : next.ladder = c.ladder
  mode : next.mode = c.mode
  queueHigh : next.queueHighSinceUs = c.queueHighSinceUs
  atFloor : next.atFloorSinceUs = c.atFloorSinceUs

/-- What both blocks do: where it does not show, the timer is cleared; else a step that is due is
taken and the timer starts anew, or the timer runs on. -/
def Ticked (shows due : Bool) (nowUs : UInt64) (rung later : Nat)
    (timer after : Option UInt64) : Prop :=
  (shows = false ∧ later = rung ∧ after = none) ∨
  (shows = true ∧ due = true ∧ later = rung + 1 ∧ after = some nowUs) ∨
  (shows = true ∧ due = false ∧ later = rung ∧ after = some (timer.getD nowUs))

section Blocks

variable {c next : BitrateController} {loss : ℚ} {depth : UInt32} {nowUs : UInt64}

theorem cut_beside (c : BitrateController) (loss : ℚ) (depth : UInt32) (nowUs : UInt64) :
    Beside c (c.cut loss depth nowUs) := by
  unfold cut
  split
  · exact ⟨rfl, rfl, rfl, rfl, rfl⟩
  · split <;> exact ⟨rfl, rfl, rfl, rfl, rfl⟩

theorem raise_beside (raised : c.raise loss depth nowUs = some next) : Beside c next := by
  unfold raise at raised
  split at raised
  · split at raised
    · obtain ⟨sum, _, same⟩ := Option.bind_eq_some_iff.mp raised
      cases same
      exact ⟨rfl, rfl, rfl, rfl, rfl⟩
    · cases raised
      exact ⟨rfl, rfl, rfl, rfl, rfl⟩
  · cases raised
    exact ⟨rfl, rfl, rfl, rfl, rfl⟩

theorem Beside.due (beside : Beside c next) (timer : Option UInt64) (wait : UInt64) :
    next.stepDownDue timer wait nowUs = c.stepDownDue timer wait nowUs := by
  rw [stepDownDue, stepDownDue, beside.rung, beside.ladder]

theorem due_timer {timer : Option UInt64} {wait : UInt64} (positive : 0 < wait.toNat)
    (due : c.stepDownDue timer wait nowUs = true) :
    ∃ t, timer = some t ∧ t.toNat + wait.toNat ≤ nowUs.toNat := by
  obtain ⟨waited, _⟩ := of_decide_eq_true due
  rw [ge_iff_le, UInt64.le_iff_toNat_le, saturatingSub_toNat] at waited
  cases timer with
  | none =>
      rw [Option.getD_none] at waited
      omega
  | some t =>
      rw [Option.getD_some] at waited
      exact ⟨t, rfl, by omega⟩

theorem queueStep_ticked (taken : c.queueStep loss depth nowUs = some next) :
    (next.bitrate = c.bitrate ∧ next.ladder = c.ladder ∧ next.mode = c.mode ∧
      next.atFloorSinceUs = c.atFloorSinceUs) ∧
    Ticked (deep loss depth) (c.stepDownDue c.queueHighSinceUs queueStepDownUs nowUs) nowUs
      c.rung next.rung c.queueHighSinceUs next.queueHighSinceUs := by
  unfold queueStep at taken
  split at taken
  · rename_i shown
    split at taken
    · rename_i due
      obtain ⟨doubled, _, same⟩ := Option.bind_eq_some_iff.mp taken
      cases same
      exact ⟨⟨rfl, rfl, rfl, rfl⟩, Or.inr (Or.inl ⟨shown, due, rfl, rfl⟩)⟩
    · rename_i early
      cases taken
      exact ⟨⟨rfl, rfl, rfl, rfl⟩, Or.inr (Or.inr ⟨shown, by simpa using early, rfl, rfl⟩)⟩
  · rename_i not
    cases taken
    exact ⟨⟨rfl, rfl, rfl, rfl⟩, Or.inl ⟨by simpa using not, rfl, rfl⟩⟩

theorem floorStep_ticked (c : BitrateController) (nowUs : UInt64) :
    ((c.floorStep nowUs).bitrate = c.bitrate ∧ (c.floorStep nowUs).mode = c.mode ∧
      (c.floorStep nowUs).queueHighSinceUs = c.queueHighSinceUs) ∧
    Ticked (decide (c.bitrate = minBitrate))
      (c.stepDownDue c.atFloorSinceUs floorStepDownUs nowUs) nowUs
      c.rung (c.floorStep nowUs).rung c.atFloorSinceUs (c.floorStep nowUs).atFloorSinceUs := by
  unfold floorStep
  split
  · rename_i shown
    split
    · rename_i due
      exact ⟨⟨rfl, rfl, rfl⟩, Or.inr (Or.inl ⟨decide_eq_true shown, due, rfl, rfl⟩)⟩
    · rename_i early
      exact ⟨⟨rfl, rfl, rfl⟩,
        Or.inr (Or.inr ⟨decide_eq_true shown, by simpa using early, rfl, rfl⟩)⟩
  · rename_i not
    exact ⟨⟨rfl, rfl, rfl⟩, Or.inl ⟨decide_eq_false not, rfl, rfl⟩⟩

theorem stepUp_cases (c : BitrateController) (nowUs : UInt64) :
    (c.stepUp nowUs).bitrate = c.bitrate ∧ (c.stepUp nowUs).mode = c.mode ∧
    (c.stepUp nowUs).rung ≤ c.rung ∧ (c.stepUp nowUs).queueHighSinceUs = c.queueHighSinceUs ∧
    (c.stepUp nowUs).atFloorSinceUs = c.atFloorSinceUs := by
  unfold stepUp
  cases c.cleanSinceUs with
  | none => exact ⟨rfl, rfl, le_refl _, rfl, rfl⟩
  | some since =>
      dsimp only
      split
      · exact ⟨rfl, rfl, Nat.sub_le _ _, rfl, rfl⟩
      · exact ⟨rfl, rfl, le_refl _, rfl, rfl⟩

end Blocks

section Call

variable {c next : BitrateController} {stats : Stats} {nowUs : UInt64} {decision : Option Decision}

theorem onStats_adapt (taken : c.onStats stats nowUs = some (next, decision)) :
    c.adapt (lossOf stats) stats.decodeQueueDepth nowUs = some next := by
  unfold onStats at taken
  obtain ⟨before, _, taken⟩ := Option.bind_eq_some_iff.mp taken
  obtain ⟨total, added, counted⟩ := Option.bind_eq_some_iff.mp taken
  obtain ⟨last, adapted, returned⟩ := Option.bind_eq_some_iff.mp counted
  obtain ⟨after, _, ended⟩ := Option.bind_eq_some_iff.mp returned
  rw [add32_eq (add32_isSome.mp (Option.isSome_of_eq_some added))] at added
  obtain rfl := Option.some.inj added
  obtain ⟨rfl, _⟩ := Prod.mk.inj (Option.some.inj ended)
  exact adapted

theorem quality_call (taken : c.onStats stats nowUs = some (next, decision))
    (mode : c.mode = .quality) : next.rung = c.rung ∧ next.mode = .quality := by
  have adapted := onStats_adapt taken
  obtain ⟨raised, lifted, adapted⟩ := Option.bind_eq_some_iff.mp adapted
  have first := cut_beside c (lossOf stats) stats.decodeQueueDepth nowUs
  have second := raise_beside lifted
  have same : raised.mode = .quality := (second.mode.trans first.mode).trans mode
  rw [gameStep, same] at adapted
  cases adapted
  exact ⟨second.rung.trans first.rung, same⟩

theorem game_call (taken : c.onStats stats nowUs = some (next, decision)) (mode : c.mode = .game) :
    next.mode = .game ∧
    ((c.cut (lossOf stats) stats.decodeQueueDepth nowUs).raise (lossOf stats)
      stats.decodeQueueDepth nowUs).map bitrate = some next.bitrate ∧
    ∃ middle low,
      Ticked (deep (lossOf stats) stats.decodeQueueDepth)
        (c.stepDownDue c.queueHighSinceUs queueStepDownUs nowUs) nowUs c.rung middle
        c.queueHighSinceUs next.queueHighSinceUs ∧
      Ticked (decide (next.bitrate = minBitrate))
        ({ c with rung := middle }.stepDownDue c.atFloorSinceUs floorStepDownUs nowUs) nowUs
        middle low c.atFloorSinceUs next.atFloorSinceUs ∧
      next.rung ≤ low := by
  have adapted := onStats_adapt taken
  obtain ⟨raised, lifted, adapted⟩ := Option.bind_eq_some_iff.mp adapted
  have first := cut_beside c (lossOf stats) stats.decodeQueueDepth nowUs
  have second := raise_beside lifted
  have same : raised.mode = .game := (second.mode.trans first.mode).trans mode
  rw [gameStep, same] at adapted
  obtain ⟨queued, stepped, adapted⟩ := Option.bind_eq_some_iff.mp adapted
  obtain rfl := Option.some.inj adapted
  obtain ⟨⟨bitrate, ladder, kept, floorTimer⟩, queue⟩ := queueStep_ticked stepped
  obtain ⟨⟨still, again, queueTimer⟩, floor⟩ := floorStep_ticked queued nowUs
  obtain ⟨last, end_, higher, queueLast, floorLast⟩ :=
    stepUp_cases (queued.floorStep nowUs) nowUs
  have level : ((queued.floorStep nowUs).stepUp nowUs).bitrate = raised.bitrate := by
    rw [last, still, bitrate]
  refine ⟨?_, ?_, queued.rung, (queued.floorStep nowUs).rung, ?_, ?_, higher⟩
  · rw [end_, again, kept, same]
  · rw [lifted, level]
    rfl
  · rw [second.due, first.due, second.queueHigh, first.queueHigh, second.rung, first.rung] at queue
    rw [queueLast, queueTimer]
    exact queue
  · rw [floorTimer, second.atFloor, first.atFloor] at floor
    rw [level, floorLast, ← bitrate]
    rw [stepDownDue, ladder, second.ladder, first.ladder] at floor
    exact floor

end Call

theorem setMode_mode (c : BitrateController) (mode : Mode) : (c.setMode mode).mode = mode := by
  cases mode <;> rfl

section Timers

variable {timer : BitrateController → Option UInt64} {Shows : BitrateController → Event → Prop}

theorem timing_of_ticked (still : ∀ c mode, timer (setMode c mode) = timer c)
    (silent : ∀ c mode, Shows c (.setMode mode))
    (ticked : ∀ c stats nowUs next decision, c.mode = .game →
      c.onStats stats nowUs = some (next, decision) → ∃ shown due rung later,
        (shown = true → Shows c (.stats stats nowUs)) ∧
        Ticked shown due nowUs rung later (timer c) (timer next)) :
    Timing step Event.time timer (fun c => c.mode = .game) Changes Shows := by
  intro c event next out taken active
  cases event with
  | stats stats nowUs =>
      cases mode : c.mode with
      | quality => exact absurd ((quality_call taken mode).2.symm.trans active) (by decide)
      | game =>
          obtain ⟨shown, due, rung, later, shows, not | fired | runs⟩ :=
            ticked c stats nowUs next out mode taken
          · exact Or.inl not.2.2
          · exact Or.inr (Or.inr ⟨⟨id, shows fired.1⟩, Or.inr fired.2.2.2⟩)
          · obtain ⟨here, _, _, after⟩ := runs
            refine Or.inr (Or.inr ⟨⟨id, shows here⟩, ?_⟩)
            cases before : timer c with
            | none =>
                rw [before, Option.getD_none] at after
                exact Or.inr after
            | some t =>
                rw [before, Option.getD_some] at after
                exact Or.inl ⟨mode, after⟩
  | setMode mode =>
      obtain ⟨rfl, _⟩ := Prod.mk.inj (Option.some.inj taken)
      by_cases same : mode = c.mode
      · subst same
        rw [setMode_mode] at active
        exact Or.inr (Or.inr ⟨⟨fun changed => changed rfl, silent c _⟩, Or.inl ⟨active, still c _⟩⟩)
      · exact Or.inr (Or.inl same)

theorem queue_timing :
    Timing step Event.time queueHighSinceUs (fun c => c.mode = .game) Changes DeepQueue := by
  refine timing_of_ticked (fun c mode => by cases mode <;> rfl) (fun _ _ => trivial) ?_
  intro c stats nowUs next decision mode taken
  obtain ⟨_, _, middle, low, queue, _⟩ := game_call taken mode
  exact ⟨_, _, _, _, id, queue⟩

theorem floor_timing :
    Timing step Event.time atFloorSinceUs (fun c => c.mode = .game) Changes AtFloor := by
  refine timing_of_ticked (fun c mode => by cases mode <;> rfl) (fun _ _ => trivial) ?_
  intro c stats nowUs next decision mode taken
  obtain ⟨_, _, middle, low, _, floor, _⟩ := game_call taken mode
  refine ⟨_, _, _, _, fun low => ?_, floor⟩
  intro other out again
  rw [taken] at again
  cases again
  exact of_decide_eq_true low

end Timers

/-- No call has both steps due with room for both, and none has one due sooner after the last change
of the mode than the step is meant to wait. -/
structure Timely (start : BitrateController) (run : List Event) (c : BitrateController)
    (stats : Stats) (nowUs : UInt64) : Prop where
  apart : c.QueueDue stats nowUs → c.FloorDue stats nowUs → c.ladder.length ≤ c.rung + 2
  queue : c.QueueDue stats nowUs →
    HeldFor (fun c event => ¬ Changes c event) queueStepDownUs nowUs start run
  floor : c.FloorDue stats nowUs → ¬ c.QueueDue stats nowUs →
    HeldFor (fun c event => ¬ Changes c event) floorStepDownUs nowUs start run

/-- One rung at most; and only in Game mode, after two seconds at the floor or one of a deep queue
without loss, all of it after the last change of the mode. -/
structure Disciplined (start : BitrateController) (run : List Event) (c next : BitrateController)
    (stats : Stats) (nowUs : UInt64) : Prop where
  one : next.rung ≤ c.rung + 1
  game : c.rung < next.rung → c.mode = .game
  held : c.rung < next.rung →
    HeldFor (Steady Changes AtFloor) floorStepDownUs nowUs start (run ++ [.stats stats nowUs]) ∨
    HeldFor (Steady Changes DeepQueue) queueStepDownUs nowUs start (run ++ [.stats stats nowUs])

section Run

variable {start c next : BitrateController} {run : List Event} {stats : Stats} {nowUs : UInt64}
  {decision : Option Decision}

theorem queue_held (fresh : start.queueHighSinceUs = none)
    (reached : Halting.final step start run = some c) (due : c.QueueDue stats nowUs)
    (calm : HeldFor (fun c event => ¬ Changes c event) queueStepDownUs nowUs start run) :
    HeldFor (Steady Changes DeepQueue) queueStepDownUs nowUs start
      (run ++ [.stats stats nowUs]) := by
  obtain ⟨mode, shown, out⟩ := due
  obtain ⟨t, running, enough⟩ := due_timer (by decide) out
  have timed := timed_run queue_timing fresh reached
  refine (timed.since mode running enough calm).snoc (fun other there => ?_)
  exact ⟨id, shown⟩

theorem floor_held (fresh : start.atFloorSinceUs = none)
    (reached : Halting.final step start run = some c) (due : c.FloorDue stats nowUs)
    (calm : HeldFor (fun c event => ¬ Changes c event) floorStepDownUs nowUs start run) :
    HeldFor (Steady Changes AtFloor) floorStepDownUs nowUs start
      (run ++ [.stats stats nowUs]) := by
  obtain ⟨mode, low, out⟩ := due
  obtain ⟨t, running, enough⟩ := due_timer (by decide) out
  have timed := timed_run floor_timing fresh reached
  refine (timed.since mode running enough calm).snoc (fun other there => ⟨id, ?_⟩)
  obtain rfl := Option.some.inj (reached.symm.trans there)
  intro next decision taken
  have bitrate := (game_call taken mode).2.1
  exact Option.some.inj (bitrate.symm.trans low)

theorem call_disciplined (queueFresh : start.queueHighSinceUs = none)
    (floorFresh : start.atFloorSinceUs = none) (reached : Halting.final step start run = some c)
    (timely : Timely start run c stats nowUs)
    (taken : c.onStats stats nowUs = some (next, decision)) :
    Disciplined start run c next stats nowUs := by
  cases mode : c.mode with
  | quality =>
      have same := (quality_call taken mode).1
      exact ⟨by omega, fun lower => by omega, fun lower => by omega⟩
  | game =>
      obtain ⟨_, bitrate, middle, low, queue, floor, last⟩ := game_call taken mode
      have queueHeld : c.QueueDue stats nowUs → HeldFor (Steady Changes DeepQueue)
          queueStepDownUs nowUs start (run ++ [.stats stats nowUs]) := fun due =>
        queue_held queueFresh reached due (timely.queue due)
      have atFloor : decide (next.bitrate = minBitrate) = true →
          c.stepDownDue c.atFloorSinceUs floorStepDownUs nowUs = true → c.FloorDue stats nowUs :=
        fun low due => ⟨mode, bitrate.trans (congrArg some (of_decide_eq_true low)), due⟩
      by_cases queueDue : c.QueueDue stats nowUs
      · -- the queue's step is taken, and then there is no room for the other
        have middleRung : middle = c.rung + 1 := by
          rcases queue with not | fired | early
          · exact absurd (queueDue.2.1.symm.trans not.1) (by decide)
          · exact fired.2.2.1
          · exact absurd (queueDue.2.2.symm.trans early.2.1) (by decide)
        have lowRung : low = middle := by
          rcases floor with not | fired | early
          · exact not.2.1
          · obtain ⟨shown, due, _⟩ := fired
            obtain ⟨waited, room⟩ := of_decide_eq_true due
            dsimp only at room
            have floorDue := atFloor shown (decide_eq_true ⟨waited, by omega⟩)
            have short := timely.apart queueDue floorDue
            omega
          · exact early.2.2.1
        exact ⟨by omega, fun _ => mode, fun _ => Or.inr (queueHeld queueDue)⟩
      · have middleRung : middle = c.rung := by
          rcases queue with not | fired | early
          · exact not.2.1
          · exact absurd ⟨mode, fired.1, fired.2.1⟩ queueDue
          · exact early.2.2.1
        subst middleRung
        rcases floor with not | fired | early
        · exact ⟨by omega, fun _ => mode, fun lower => by omega⟩
        · have floorDue := atFloor fired.1 fired.2.1
          exact ⟨by omega, fun _ => mode, fun _ => Or.inl
            (floor_held floorFresh reached floorDue (timely.floor floorDue queueDue))⟩
        · exact ⟨by omega, fun _ => mode, fun lower => by omega⟩

theorem new_unset {ceilingBps initialBps : UInt32} {native : Resolution} {mode : Mode}
    (made : new ceilingBps initialBps native mode = some start) :
    start.queueHighSinceUs = none ∧ start.atFloorSinceUs = none := by
  obtain ⟨ladder, _, made⟩ := Option.bind_eq_some_iff.mp made
  obtain ⟨bitrate, _, made⟩ := Option.bind_eq_some_iff.mp made
  cases made
  exact ⟨rfl, rfl⟩

end Run

/-- Every call of a run whose calls are all timely steps down as it should. -/
theorem stepdown_disciplined (ceilingBps initialBps : UInt32) (native : Resolution) (mode : Mode)
    (start : BitrateController) (made : new ceilingBps initialBps native mode = some start)
    (events : List Event)
    (timely : ∀ front stats nowUs back, events = front ++ .stats stats nowUs :: back →
      ∀ c, Halting.final step start front = some c → Timely start front c stats nowUs) :
    ∀ front stats nowUs back, events = front ++ .stats stats nowUs :: back →
      ∀ c next decision, Halting.final step start front = some c →
        c.onStats stats nowUs = some (next, decision) →
        Disciplined start front c next stats nowUs := by
  intro front stats nowUs back split c next decision reached taken
  obtain ⟨queueFresh, floorFresh⟩ := new_unset made
  exact call_disciplined queueFresh floorFresh reached
    (timely front stats nowUs back split c reached) taken

def deepStats : Stats := ⟨3, 0, 0, 100, 5, 100⟩

def lossyStats : Stats := ⟨3, 0, 5, 95, 0, 100⟩

def halfway : BitrateController := (new 10000000 5000000 .hd .game).get (by decide +kernel)

def deepened : BitrateController :=
  (Halting.final step halfway [.stats deepStats 0]).get (by decide +kernel)

/-- A second of a deep queue, and the rung below. -/
theorem stepdown_disciplined_deep :
    ∃ next decision, deepened.onStats deepStats 1000000 = some (next, decision) ∧ next.rung = 1 ∧
      Disciplined halfway [.stats deepStats 0] deepened next deepStats 1000000 := by
  have answer : (deepened.onStats deepStats 1000000).map (fun out => out.1.rung) = some 1 := by
    decide +kernel
  obtain ⟨⟨next, decision⟩, taken, rung⟩ := Option.map_eq_some_iff.mp answer
  have reached : Halting.final step halfway [.stats deepStats 0] = some deepened :=
    (Option.some_get _).symm
  refine ⟨next, decision, taken, rung, ?_⟩
  refine stepdown_disciplined 10000000 5000000 .hd .game halfway (Option.some_get _).symm
    [.stats deepStats 0, .stats deepStats 1000000] ?_ [.stats deepStats 0] deepStats 1000000 [] rfl
    deepened next decision reached taken
  intro front stats nowUs back split c there
  rcases front with _ | ⟨first, _ | ⟨second, rest⟩⟩
  · cases split
    obtain rfl := Option.some.inj there
    have early : ¬ halfway.QueueDue deepStats 0 ∧ ¬ halfway.FloorDue deepStats 0 := by
      decide +kernel
    exact ⟨fun due => absurd due early.1, fun due => absurd due early.1,
      fun due => absurd due early.2⟩
  · cases split
    obtain rfl := Option.some.inj (reached.symm.trans there)
    have high : ¬ deepened.FloorDue deepStats 1000000 := by decide +kernel
    refine ⟨fun _ due => absurd due high, fun _ => ?_, fun due => absurd due high⟩
    have first : HeldFor (fun c event => ¬ Changes c event) queueStepDownUs 1000000 halfway
        ([] ++ [.stats deepStats 0]) :=
      since_last rfl (show _ ≤ _ by decide) (fun _ _ => id)
    exact first
  · simp at split

def floored : BitrateController := (new 10000000 minBitrate .hd .game).get (by decide +kernel)

/-- Loss for a second, and then a deep queue without loss for another. -/
def crowded : List Event := [.stats lossyStats 0, .stats deepStats 1000000]

/-- A report of loss, and the mode there and back. -/
def toggled : List Event := [.stats lossyStats 0, .setMode .quality, .setMode .game]

theorem toggled_unheld (Shows : BitrateController → Event → Prop) (wait : UInt64)
    (positive : 0 < wait.toNat) :
    ¬ HeldFor (Steady Changes Shows) wait 2000000 floored
      (toggled ++ [.stats lossyStats 2000000]) := by
  rintro ⟨early, event, late, t, split, read, enough, through⟩
  rcases early with _ | ⟨_, _ | ⟨_, _ | ⟨_, _ | ⟨_, _⟩⟩⟩⟩
  · cases split
    have low : (Halting.final step floored [.stats lossyStats 0]).map mode = some .game := by
      decide +kernel
    obtain ⟨c, reached, mode⟩ := Option.map_eq_some_iff.mp low
    have calm := (through [.stats lossyStats 0] (.setMode .quality) _ rfl c reached).1
    exact calm (by simp [Changes, mode])
  · cases split
    cases read
  · cases split
    cases read
  · cases split
    cases read
    exact absurd enough (by simp; omega)
  · simp [toggled] at split

/-- Two rungs in one call, where both timers have run out; and one at the first report after the
mode was changed. -/
theorem stepdown_undisciplined :
    (∃ c next decision, Halting.final step floored crowded = some c ∧
      c.onStats deepStats 2000000 = some (next, decision) ∧
      ¬ Disciplined floored crowded c next deepStats 2000000) ∧
    ∃ c next decision, Halting.final step floored toggled = some c ∧
      c.onStats lossyStats 2000000 = some (next, decision) ∧
      ¬ Disciplined floored toggled c next lossyStats 2000000 := by
  have rungs : ∀ (run : List Event) (stats : Stats) (low high : Nat),
      ((Halting.final step floored run).bind (fun c =>
        (c.onStats stats 2000000).map (fun out => (c.rung, out.1.rung)))) = some (low, high) →
      ∃ c next decision, Halting.final step floored run = some c ∧
        c.onStats stats 2000000 = some (next, decision) ∧ c.rung = low ∧ next.rung = high := by
    intro run stats low high ended
    obtain ⟨c, reached, called⟩ := Option.bind_eq_some_iff.mp ended
    obtain ⟨⟨next, decision⟩, taken, same⟩ := Option.map_eq_some_iff.mp called
    exact ⟨c, next, decision, reached, taken, (Prod.mk.inj same).1, (Prod.mk.inj same).2⟩
  constructor
  · obtain ⟨c, next, decision, reached, taken, low, high⟩ :=
      rungs crowded deepStats 0 2 (by decide +kernel)
    refine ⟨c, next, decision, reached, taken, fun disciplined => ?_⟩
    have one := disciplined.one
    omega
  · obtain ⟨c, next, decision, reached, taken, low, high⟩ :=
      rungs toggled lossyStats 0 1 (by decide +kernel)
    refine ⟨c, next, decision, reached, taken, fun disciplined => ?_⟩
    rcases disciplined.held (by omega) with held | held
    · exact toggled_unheld _ _ (by decide) held
    · exact toggled_unheld _ _ (by decide) held

end BitrateController

end Castr.Media
