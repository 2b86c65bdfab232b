import Castr.Lib.Latest
import Castr.Media.Jitter

/-! How often the receiver asks for a frame again. The memory of what it asked for is pruned at
every tick, to the frames reported there and to the last second. -/

namespace Castr.Receiver

open Castr.Lib
open Castr.Lib.Run
open Castr.Proto (Bytes Nack Reassembler)
open Castr.Media (gapWaitUs)

/-- `Duration`s and `Instant`s are in nanoseconds. -/
def nackFloor : Nat := 20000000

def nackMemory : Nat := 1000000000

/-- What one firing of the tick reads: the stream's clock, the round trip and the `Instant`. -/
structure Moment where
  nowUs : UInt64
  rtt : Nat
  now : Nat
  deriving Repr

def Moment.rttUs (m : Moment) : UInt64 := UInt64.ofNat (m.rtt / 1000)

def Moment.minGap (m : Moment) : Nat := max m.rtt nackFloor

structure Nacker where
  videoReasm : Reassembler
  lastNack : Std.TreeMap UInt32 Nat

namespace Nacker

inductive Event where
  | fragment (datagram : Bytes) (nowUs : UInt64)
  | tick (m : Moment)

/-- The frame is asked for unless it was less than the gap ago. -/
def due (lastNack : Std.TreeMap UInt32 Nat) (m : Moment) (frameNumber : UInt32) : Bool :=
  (lastNack[frameNumber]?).all (fun t => m.minGap ≤ m.now - t)

def ask (m : Moment) (lastNack : Std.TreeMap UInt32 Nat) :
    List Nack → Std.TreeMap UInt32 Nat × List Nack
  | [] => (lastNack, [])
  | n :: nacks =>
      if due lastNack m n.frameNumber then
        let (later, sent) := ask m (lastNack.insert n.frameNumber m.now) nacks
        (later, n :: sent)
      else ask m lastNack nacks

def nacks (s : Nacker) (m : Moment) : List Nack :=
  (s.videoReasm.tick m.nowUs m.rttUs gapWaitUs).1

def reports (s : Nacker) (m : Moment) (frameNumber : UInt32) : Bool :=
  (s.nacks m).any (fun n => n.frameNumber == frameNumber)

def tick (s : Nacker) (m : Moment) : Nacker × List Nack :=
  let (lastNack, sent) := ask m s.lastNack (s.nacks m)
  ({ videoReasm := (s.videoReasm.tick m.nowUs m.rttUs gapWaitUs).2
     lastNack := lastNack.filter (fun f t => s.reports m f && decide (m.now - t < nackMemory)) },
    sent)

def step (s : Nacker) : Event → Nacker × List Nack
  | .fragment datagram nowUs => ({ s with videoReasm := (s.videoReasm.push datagram nowUs).2 }, [])
  | .tick m => s.tick m

def Event.now : Event → Nat
  | .fragment _ _ => 0
  | .tick m => m.now

def asks (s : Nacker) (frameNumber : UInt32) (event : Event) : Bool :=
  (s.step event).2.any (fun n => n.frameNumber == frameNumber)

/-- The tick keeps a frame that was asked for at `t` in memory. -/
def keeps (s : Nacker) (frameNumber : UInt32) (t : Nat) : Event → Bool
  | .fragment _ _ => true
  | .tick m => s.reports m frameNumber && decide (m.now - t < nackMemory)

section Ask

variable (m : Moment) (frameNumber : UInt32)

/-- The loop asks for the frames reported that are due, and notes them. -/
theorem ask_spec (lastNack : Std.TreeMap UInt32 Nat) (nacks : List Nack) :
    ((ask m lastNack nacks).2.any (fun n => n.frameNumber == frameNumber) =
      (nacks.any (fun n => n.frameNumber == frameNumber) && due lastNack m frameNumber)) ∧
    (ask m lastNack nacks).1[frameNumber]? =
      if (ask m lastNack nacks).2.any (fun n => n.frameNumber == frameNumber) then some m.now
      else lastNack[frameNumber]? := by
  induction nacks generalizing lastNack with
  | nil => simp [ask]
  | cons n nacks ih =>
      by_cases wanted : due lastNack m n.frameNumber = true
      · obtain ⟨sent, noted⟩ := ih (lastNack.insert n.frameNumber m.now)
        rw [ask, if_pos wanted]
        by_cases same : n.frameNumber = frameNumber
        · -- once asked for, it is not due in the same tick
          subst same
          have positive : ¬ m.minGap = 0 := by
            unfold Moment.minGap nackFloor
            omega
          have asked : due (lastNack.insert n.frameNumber m.now) m n.frameNumber = false := by
            simp [due, positive]
          rw [asked, Bool.and_false] at sent
          rw [sent] at noted
          simpa [wanted] using noted
        · have others : due (lastNack.insert n.frameNumber m.now) m frameNumber =
              due lastNack m frameNumber := by
            simp [due, Std.TreeMap.getElem?_insert, same]
          have apart : (n.frameNumber == frameNumber) = false := beq_eq_false_iff_ne.mpr same
          rw [others] at sent
          simp only [List.any_cons, apart, Bool.false_or]
          refine ⟨sent, ?_⟩
          simpa [Std.TreeMap.getElem?_insert, same] using noted
      · obtain ⟨sent, noted⟩ := ih lastNack
        rw [ask, if_neg wanted]
        refine ⟨?_, noted⟩
        by_cases same : n.frameNumber = frameNumber
        · subst same
          rw [Bool.not_eq_true] at wanted
          simpa [wanted] using sent
        · have apart : (n.frameNumber == frameNumber) = false := beq_eq_false_iff_ne.mpr same
          simpa only [List.any_cons, apart, Bool.false_or] using sent

end Ask

theorem asks_tick (s : Nacker) (m : Moment) (frameNumber : UInt32) :
    s.asks frameNumber (.tick m) = (s.reports m frameNumber && due s.lastNack m frameNumber) :=
  (ask_spec m frameNumber s.lastNack (s.nacks m)).1

theorem step_lastNack (s : Nacker) (event : Event) (frameNumber : UInt32) (t : Nat) :
    (s.step event).1.lastNack[frameNumber]? = some t ↔
      s.keeps frameNumber t event = true ∧
        if s.asks frameNumber event = true then t = event.now else s.lastNack[frameNumber]? =
          some t := by
  cases event with
  | fragment datagram nowUs => simp [step, keeps, asks]
  | tick m =>
      have noted : (ask m s.lastNack (s.nacks m)).1[frameNumber]? =
          if s.asks frameNumber (.tick m) = true then some m.now else s.lastNack[frameNumber]? :=
        (ask_spec m frameNumber s.lastNack (s.nacks m)).2
      have after : (s.step (.tick m)).1.lastNack[frameNumber]? =
          (if s.asks frameNumber (.tick m) = true then some m.now
            else s.lastNack[frameNumber]?).filter
              (fun t => s.reports m frameNumber && decide (m.now - t < nackMemory)) := by
        rw [← noted]
        exact Std.TreeMap.getElem?_filter'
      rw [after, Option.filter_eq_some_iff, and_comm]
      refine and_congr_right (fun _ => ?_)
      by_cases asked : s.asks frameNumber (.tick m) = true
      · simp [asked, Event.now, eq_comm]
      · simp [asked]

theorem asks_keeps (s : Nacker) (frameNumber : UInt32) (event : Event)
    (asked : s.asks frameNumber event = true) : s.keeps frameNumber event.now event = true := by
  cases event with
  | fragment datagram nowUs => rfl
  | tick m =>
      rw [asks_tick, Bool.and_eq_true] at asked
      simp [keeps, asked.1, Event.now, nackMemory]

def LastAsked (s : Nacker) (frameNumber : UInt32) :=
  LastAt (fun front event => (final step s front).asks frameNumber event = true)

/-- Every event since then keeps the frame in memory. -/
def Kept (s : Nacker) (frameNumber : UInt32) (front : List Event) (event : Event)
    (since : List Event) : Prop :=
  ∀ before next after, since = before ++ next :: after →
    (final step s (front ++ event :: before)).keeps frameNumber event.now next = true

theorem kept_snoc (s : Nacker) (frameNumber : UInt32) (front : List Event) (event next : Event)
    (since : List Event) :
    Kept s frameNumber front event (since ++ [next]) ↔ Kept s frameNumber front event since ∧
      (final step s (front ++ event :: since)).keeps frameNumber event.now next = true := by
  constructor
  · intro kept
    refine ⟨?_, kept since next [] rfl⟩
    intro before other after inside
    exact kept before other (after ++ [next]) (by simp [inside])
  · rintro ⟨kept, last⟩ before other after inside
    rcases Since.split_snoc inside with ⟨rfl, rfl, rfl⟩ | ⟨rest, rfl, split⟩
    · exact last
    · exact kept before other rest split

theorem lastNack_iff (s : Nacker) (fresh : s.lastNack = ∅) (events : List Event)
    (frameNumber : UInt32) (t : Nat) :
    (final step s events).lastNack[frameNumber]? = some t ↔
      ∃ front event since, LastAsked s frameNumber events front event since ∧ event.now = t ∧
        Kept s frameNumber front event since := by
  apply final_induction step s events (fun run now => now.lastNack[frameNumber]? = some t ↔
    ∃ front event since, LastAsked s frameNumber run front event since ∧ event.now = t ∧
      Kept s frameNumber front event since)
  · rw [fresh]
    constructor
    · intro held
      simp at held
    · rintro ⟨front, event, since, last, _⟩
      simpa using last.split
  · intro run next _ _ held
    rw [step_lastNack]
    by_cases asked : (final step s run).asks frameNumber next = true
    · rw [if_pos asked]
      constructor
      · rintro ⟨_, rfl⟩
        exact ⟨run, next, [], (lastAt_snoc next).mpr (Or.inl ⟨asked, rfl, rfl, rfl⟩), rfl,
          by simp [Kept]⟩
      · rintro ⟨front, event, since, last, rfl, kept⟩
        rcases (lastAt_snoc next).mp last with ⟨_, rfl, rfl, rfl⟩ | ⟨unasked, _⟩
        · exact ⟨asks_keeps _ frameNumber event asked, rfl⟩
        · exact absurd asked unasked
    · rw [if_neg asked, held]
      constructor
      · rintro ⟨keeps, front, event, since, last, rfl, kept⟩
        refine ⟨front, event, since ++ [next],
          (lastAt_snoc next).mpr (Or.inr ⟨asked, since, rfl, last⟩), rfl, ?_⟩
        rw [kept_snoc, ← last.split]
        exact ⟨kept, keeps⟩
      · rintro ⟨front, event, since, last, rfl, kept⟩
        rcases (lastAt_snoc next).mp last with ⟨here, _⟩ | ⟨_, earlier, rfl, before⟩
        · exact absurd here asked
        · rw [kept_snoc, ← before.split] at kept
          exact ⟨kept.2, front, event, earlier, before, rfl, kept.1⟩

def Clocked (events : List Event) : Prop :=
  ∀ front first between second back,
    events = front ++ .tick first :: between ++ .tick second :: back → first.now ≤ second.now

/-- Two Nacks for one frame are at least the gap of the second apart. -/
def Paced (s : Nacker) (events : List Event) : Prop :=
  ∀ frameNumber front first between second back,
    events = front ++ .tick first :: between ++ .tick second :: back →
    (final step s front).asks frameNumber (.tick first) = true →
    (final step s (front ++ .tick first :: between)).asks frameNumber (.tick second) = true →
    second.minGap ≤ second.now - first.now

/-- A frame reported when the gap has passed since it was last asked for is asked for again. -/
def Prompt (s : Nacker) (events : List Event) : Prop :=
  ∀ frameNumber front first between second back,
    events = front ++ .tick first :: between ++ .tick second :: back →
    LastAsked s frameNumber (front ++ .tick first :: between) front (.tick first) between →
    (final step s (front ++ .tick first :: between)).reports second frameNumber = true →
    second.minGap ≤ second.now - first.now →
    (final step s (front ++ .tick first :: between)).asks frameNumber (.tick second) = true

/-- A frame reported before the gap has passed since it was last asked for was reported at every
tick in between, each less than a second after it was asked for. -/
def Steady (s : Nacker) (events : List Event) : Prop :=
  ∀ frameNumber front first between second back,
    events = front ++ .tick first :: between ++ .tick second :: back →
    LastAsked s frameNumber (front ++ .tick first :: between) front (.tick first) between →
    (final step s (front ++ .tick first :: between)).reports second frameNumber = true →
    second.now - first.now < second.minGap →
    Kept s frameNumber front (.tick first) between

theorem asks_is_tick (s : Nacker) (frameNumber : UInt32) (event : Event)
    (asked : s.asks frameNumber event = true) : ∃ m, event = .tick m := by
  cases event with
  | fragment datagram nowUs => cases asked
  | tick m => exact ⟨m, rfl⟩

theorem clocked_behind {events : List Event} (clocked : Clocked events)
    (front place since back : List Event)
    (first last : Moment) (split : events = place ++ .tick last :: since ++ back)
    (behind : front ++ [.tick first] <+: place ++ [.tick last]) : first.now ≤ last.now := by
  obtain ⟨rest, same⟩ := behind
  rcases List.eq_nil_or_concat rest with rfl | ⟨rest, final, rfl⟩
  · rw [List.append_nil] at same
    obtain ⟨_, equal⟩ := List.append_inj' same rfl
    obtain ⟨equal, _⟩ := List.cons.inj equal
    cases equal
    exact Nat.le_refl _
  · rw [List.concat_eq_append, ← List.append_assoc] at same
    obtain ⟨rfl, _⟩ := List.append_inj' same rfl
    exact clocked front first rest last (since ++ back) (by simp [split])

section Pace

variable (s : Nacker) (fresh : s.lastNack = ∅) (events : List Event)
include fresh

theorem due_iff (frameNumber : UInt32) (run front since : List Event) (first second : Moment)
    (last : LastAsked s frameNumber run front (.tick first) since) :
    due (final step s run).lastNack second frameNumber = false ↔
      Kept s frameNumber front (.tick first) since ∧ second.now - first.now < second.minGap := by
  have memory := lastNack_iff s fresh run frameNumber
  rw [due, Option.all_eq_false]
  constructor
  · rintro ⟨t, noted, early⟩
    obtain ⟨place, event, later, other, rfl, kept⟩ := (memory t).mp noted
    obtain ⟨rfl, rfl, rfl⟩ := other.unique last
    exact ⟨kept, Nat.lt_of_not_le (of_decide_eq_false early)⟩
  · rintro ⟨kept, early⟩
    have noted := (memory first.now).mpr ⟨front, .tick first, since, last, rfl, kept⟩
    exact ⟨first.now, noted, by simpa using early⟩

theorem prompt : Prompt s events := by
  intro frameNumber front first between second back split last reported passed
  rw [asks_tick, reported, Bool.true_and]
  by_contra early
  have held := (due_iff s fresh frameNumber _ _ _ first second last).mp (by simpa using early)
  omega

/-- The Nacks are paced exactly when no frame is forgotten before its gap has passed. -/
theorem paced_iff (clocked : Clocked events) :
    Paced s events ∧ Prompt s events ↔ Steady s events := by
  constructor
  · rintro ⟨paced, _⟩ frameNumber front first between second back split last reported early
    have unasked : ¬ (final step s (front ++ .tick first :: between)).asks frameNumber
        (.tick second) = true := by
      intro asked
      have apart := paced frameNumber front first between second back split last.here asked
      omega
    rw [asks_tick, reported, Bool.true_and, Bool.not_eq_true] at unasked
    exact ((due_iff s fresh frameNumber _ _ _ first second last).mp unasked).1
  · intro steady
    refine ⟨?_, prompt s fresh events⟩
    intro frameNumber front first between second back split askedFirst askedSecond
    by_contra early
    obtain ⟨place, event, since, last, behind⟩ := lastAt_exists
      (fun front event => (final step s front).asks frameNumber event = true) between askedFirst
    obtain ⟨m, rfl⟩ := asks_is_tick _ frameNumber event last.here
    have later := clocked_behind clocked front place since (.tick second :: back) first m
      (by rw [split, last.split]) behind
    rw [last.split] at askedSecond
    rw [asks_tick, Bool.and_eq_true] at askedSecond
    have kept := steady frameNumber place m since second back (by rw [split, last.split])
      (last.split ▸ last) askedSecond.1 (by omega)
    have held := (due_iff s fresh frameNumber _ _ _ m second last).mpr ⟨kept, by omega⟩
    rw [last.split, askedSecond.2] at held
    cases held

end Pace

def Event.instant : Event → Option Nat
  | .fragment _ _ => none
  | .tick m => some m.now

theorem clocked_of_sorted (events : List Event)
    (sorted : (events.filterMap Event.instant).Pairwise (· ≤ ·)) : Clocked events := by
  rintro front first between second back rfl
  simp only [List.filterMap_append, List.pairwise_append] at sorted
  exact sorted.2.2 first.now (by simp [Event.instant]) second.now (by simp [Event.instant])

def idle : Nacker := ⟨.new 500000, ∅⟩

def deltaHalf : Bytes := [0, 0, 0, 0, 2, 0, 0, 0, 0, 0, 0, 0, 5, 0, 0, 0, 0, 0, 0, 0, 1]

/-- The tick that comes so many milliseconds in, at a round trip of so many. -/
def tickAt (ms rttMs : Nat) : Event :=
  .tick ⟨UInt64.ofNat (ms * 1000), rttMs * 1000000, ms * 1000000⟩

def steadyTicks : List Event :=
  [.fragment deltaHalf 0, tickAt 10 40, tickAt 30 40, tickAt 50 40]

theorem steadyTicks_steady : Steady idle steadyTicks := by
  intro frameNumber front first between second back split _ _ early
  cases between with
  | nil =>
      intro before next after inside
      simp at inside
  | cons other between =>
      rcases front with _ | ⟨start, _ | ⟨later, front⟩⟩
      · simp [steadyTicks] at split
      · rcases between with _ | ⟨more, between⟩
        · simp only [steadyTicks, tickAt, List.cons_append, List.nil_append, List.cons.injEq,
            Event.tick.injEq] at split
          obtain ⟨-, rfl, -, rfl, -⟩ := split
          exact absurd early (by decide)
        · have length := congrArg List.length split
          simp [steadyTicks] at length
      · have length := congrArg List.length split
        simp only [steadyTicks, List.length_append, List.length_cons, List.length_nil] at length
        omega

theorem paced_iff_steady : Paced idle steadyTicks ∧ Prompt idle steadyTicks :=
  (paced_iff idle rfl steadyTicks (clocked_of_sorted _ (by decide))).mpr steadyTicks_steady

/-- The round trip grows for one tick, at which a repair would come too late. -/
def jumpyTicks : List Event :=
  [.fragment deltaHalf 0, tickAt 10 40, tickAt 30 130, tickAt 50 60]

/-- The frame left out of that one report is asked for again 40 ms after its last Nack, at a round
trip of 60 ms. -/
theorem jumpy_unpaced : Clocked jumpyTicks ∧ ¬ Paced idle jumpyTicks := by
  refine ⟨clocked_of_sorted _ (by decide), ?_⟩
  intro paced
  have apart := paced 0 [.fragment deltaHalf 0] ⟨10000, 40000000, 10000000⟩ [tickAt 30 130]
    ⟨50000, 60000000, 50000000⟩ [] rfl (by decide +kernel) (by decide +kernel)
  exact absurd apart (by decide)

end Nacker

end Castr.Receiver
