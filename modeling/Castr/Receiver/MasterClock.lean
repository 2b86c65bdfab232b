import Mathlib
import Castr.Lib.Checked
import Castr.Lib.Since
import Castr.Receiver.Present

/-! What the presentation loop keeps of earlier sessions: the clock forgets them at the first
packet that drives it, the newest video timestamp never does. -/

namespace Castr.Receiver

open Castr.Lib.Run
open Castr.Lib.Word (saturatingSub saturatingSub_toNat)
open Castr.Media (AvClock)
open Castr.Proto (Bytes)

def newestFrom (latest : Option UInt64) : List Event → Option UInt64
  | [] => latest
  | .frame f :: events => newestFrom (some (newerTs latest f.timestampUs)) events
  | _ :: events => newestFrom latest events

def newestVideo (events : List Event) : Option UInt64 := newestFrom none events

theorem lagging_newer (latest : Option UInt64) (videoUs tsUs : UInt64) :
    lagging (some (newerTs latest videoUs)) tsUs =
      (lagging latest tsUs || lagging (some videoUs) tsUs) := by
  cases latest with
  | none => rfl
  | some v =>
      simp only [lagging, newerTs, Option.any_some]
      rw [Bool.eq_iff_iff]
      simp only [Bool.or_eq_true, decide_eq_true_eq, gt_iff_lt, UInt64.lt_iff_toNat_lt,
        saturatingSub_toNat]
      by_cases order : v ≤ videoUs
      · have larger : max v videoUs = videoUs := if_pos order
        rw [UInt64.le_iff_toNat_le] at order
        rw [larger]
        omega
      · have larger : max v videoUs = v := if_neg order
        rw [UInt64.le_iff_toNat_le] at order
        rw [larger]
        omega

theorem lagging_newestFrom (latest : Option UInt64) (events : List Event) (tsUs : UInt64) :
    lagging (newestFrom latest events) tsUs =
      (lagging latest tsUs || lagging (newestVideo events) tsUs) := by
  unfold newestVideo
  induction events generalizing latest with
  | nil => simp [newestFrom, lagging]
  | cons event events ih =>
      cases event with
      | frame f =>
          simp only [newestFrom]
          rw [ih, ih (some (newerTs none f.timestampUs)), lagging_newer, Bool.or_assoc]
          rfl
      | audioPacket tsUs data queued bufferedUs nowUs => exact ih latest
      | turn nowUs => exact ih latest

/-- The loop when a session that comes after `history` has sent `front`. -/
def atPoint (history front : List Event) : Presenter :=
  final Presenter.step Presenter.new (history ++ front)

theorem atPoint_snoc (history front : List Event) (event : Event) :
    atPoint history (front ++ [event]) = ((atPoint history front).step event).1 := by
  unfold atPoint
  rw [← List.append_assoc, final_snoc]

theorem step_latest (p : Presenter) (event : Event) :
    (p.step event).1.latestVideoTs = newestFrom p.latestVideoTs [event] := by
  cases event with
  | frame f => rfl
  | audioPacket tsUs data queued bufferedUs nowUs =>
      simp only [Presenter.step]
      split
      · rfl
      · split
        · rfl
        · split <;> rfl
  | turn nowUs => rfl

theorem newestFrom_append (latest : Option UInt64) (front back : List Event) :
    newestFrom latest (front ++ back) = newestFrom (newestFrom latest front) back := by
  induction front generalizing latest with
  | nil => rfl
  | cons event front ih => cases event <;> exact ih _

theorem latest_eq (events : List Event) :
    (final Presenter.step Presenter.new events).latestVideoTs = newestVideo events := by
  apply final_induction Presenter.step Presenter.new events
    (fun front p => p.latestVideoTs = newestVideo front) rfl
  intro front event back _ same
  rw [step_latest, same, newestVideo, newestVideo, newestFrom_append]

theorem atPoint_lagging (history front : List Event) (tsUs : UInt64) :
    lagging (atPoint history front).latestVideoTs tsUs =
      (lagging (newestVideo history) tsUs || lagging (newestVideo front) tsUs) := by
  rw [atPoint, latest_eq, newestVideo, newestFrom_append, lagging_newestFrom]
  rfl

theorem drives_packet (p : Presenter) (tsUs : UInt64) (data : Bytes) (queued : Bool)
    (bufferedUs nowUs : UInt64) :
    p.drives (.audioPacket tsUs data queued bufferedUs nowUs) =
      (!data.isEmpty && !lagging p.latestVideoTs tsUs && queued) := by
  unfold Presenter.drives Presenter.step
  cases data with
  | nil => rfl
  | cons byte data =>
      cases late : lagging p.latestVideoTs tsUs <;> cases queued <;> simp [late]

theorem drives_only_packets (p : Presenter) (event : Event) (drives : p.drives event = true) :
    ∃ tsUs data bufferedUs nowUs, event = .audioPacket tsUs data true bufferedUs nowUs ∧
      data ≠ [] ∧ (p.step event).1 =
        { p with clock := p.clock.audioPlayed (saturatingSub tsUs bufferedUs) nowUs } := by
  cases event with
  | frame f => cases drives
  | turn nowUs => cases drives
  | audioPacket tsUs data queued bufferedUs nowUs =>
      rw [drives_packet] at drives
      simp only [Bool.and_eq_true, Bool.not_eq_true', List.isEmpty_eq_false_iff] at drives
      obtain ⟨⟨some, timely⟩, rfl⟩ := drives
      exact ⟨tsUs, data, bufferedUs, nowUs, rfl, some, by simp [Presenter.step, some, timely]⟩

theorem quiet_clock (p : Presenter) (event : Event) (idle : p.drives event = false)
    (set : p.clock.videoOffset.isSome = true) : (p.step event).1.clock = p.clock := by
  cases event with
  | frame f => rfl
  | turn nowUs =>
      obtain ⟨offset, known⟩ := Option.isSome_iff_exists.mp set
      simp only [Presenter.step, PendingFrame.takeIfDue]
      cases p.pending with
      | none => rfl
      | some f =>
          simp only [AvClock.videoDue, known]
          split <;> rfl
  | audioPacket tsUs data queued bufferedUs nowUs =>
      rw [drives_packet] at idle
      simp only [Presenter.step]
      split
      · rfl
      · split
        · rfl
        · split
          · simp_all
          · rfl

/-- The runs of one session after two histories, with equal clocks that are set. -/
structure SameClock (p q : Presenter) : Prop where
  clock : p.clock = q.clock
  set : q.clock.videoOffset.isSome = true

theorem sameClock_drives (p q : Presenter) (event : Event) (first : p.drives event = true)
    (second : q.drives event = true) : SameClock (p.step event).1 (q.step event).1 := by
  obtain ⟨tsUs, data, bufferedUs, nowUs, rfl, _, next⟩ := drives_only_packets p event first
  obtain ⟨_, _, _, _, same, _, other⟩ := drives_only_packets q _ second
  cases same
  rw [next, other]
  exact ⟨rfl, rfl⟩

theorem sameClock_step (p q : Presenter) (event : Event) (same : SameClock p q)
    (agree : p.drives event = q.drives event) : SameClock (p.step event).1 (q.step event).1 := by
  cases driving : q.drives event with
  | true => exact sameClock_drives p q event (agree.trans driving) driving
  | false =>
      have left := quiet_clock p event (agree.trans driving) (same.clock ▸ same.set)
      have right := quiet_clock q event driving same.set
      exact ⟨by rw [left, right, same.clock], by rw [right, same.set]⟩

/-- In the run after `history` some packet of `front` has set the clock. -/
def Played (history front : List Event) : Prop :=
  ∃ before packet after, front = before ++ packet :: after ∧
    (atPoint history before).drives packet = true

theorem played_snoc (history front : List Event) (event : Event)
    (played : Played history (front ++ [event])) :
    Played history front ∨ (atPoint history front).drives event = true := by
  obtain ⟨before, packet, after, same, driving⟩ := played
  rcases Lib.Since.split_snoc same with ⟨rfl, rfl, rfl⟩ | ⟨after, rfl, rfl⟩
  · exact Or.inr driving
  · exact Or.inl ⟨before, packet, after, rfl, driving⟩

/-- The session does not tell its two histories apart: the same packets drive the clock, and after
one did the same frames are due and the slot gives the same ones, whenever it is asked. -/
structure Independent (first second session : List Event) : Prop where
  drives : ∀ front event back, session = front ++ event :: back →
    (atPoint first front).drives event = (atPoint second front).drives event
  due : ∀ front back, session = front ++ back → Played first front ∨ Played second front →
    ∀ frameTsUs nowUs, ((atPoint first front).clock.videoDue frameTsUs nowUs).1 =
      ((atPoint second front).clock.videoDue frameTsUs nowUs).1
  slot : ∀ front back, session = front ++ back → Played first front ∨ Played second front →
    ∀ nowUs, ((atPoint first front).step (.turn nowUs)).2 =
      ((atPoint second front).step (.turn nowUs)).2

def Unreached (pending : PendingFrame) (clock : AvClock) : Prop :=
  ∀ f ∈ pending, ∀ nowUs, (clock.videoDue f.timestampUs nowUs).1 = false

def SameSlot (p q : PendingFrame) (clock : AvClock) : Prop :=
  p = q ∨ Unreached p clock ∧ Unreached q clock

theorem turn_answer (p : Presenter) (nowUs : UInt64) :
    (p.step (.turn nowUs)).2 =
      .due (p.pending.filter (fun f => (p.clock.videoDue f.timestampUs nowUs).1)) := by
  simp only [Presenter.step, PendingFrame.takeIfDue]
  cases p.pending with
  | none => rfl
  | some f =>
      cases due : (p.clock.videoDue f.timestampUs nowUs).1 with
      | true => simp [due, Option.filter]
      | false => simp [due, Option.filter]

theorem unreached_filter {pending : PendingFrame} {clock : AvClock}
    (unreached : Unreached pending clock) (nowUs : UInt64) :
    pending.filter (fun f => (clock.videoDue f.timestampUs nowUs).1) = none := by
  cases pending with
  | none => rfl
  | some f => simp [Option.filter, unreached f rfl nowUs]

theorem sameSlot_iff (p q : PendingFrame) (clock : AvClock) :
    SameSlot p q clock ↔ ∀ nowUs : UInt64,
      p.filter (fun f => (clock.videoDue f.timestampUs nowUs).1) =
        q.filter (fun f => (clock.videoDue f.timestampUs nowUs).1) := by
  constructor
  · rintro (rfl | ⟨left, right⟩) nowUs
    · rfl
    · rw [unreached_filter left, unreached_filter right]
  · intro same
    have given (r : PendingFrame) (f : RawFrame) (held : f ∈ r) (nowUs : UInt64)
        (due : (clock.videoDue f.timestampUs nowUs).1 = true) :
        r.filter (fun f => (clock.videoDue f.timestampUs nowUs).1) = some f := by
      rw [Option.mem_def.mp held, Option.filter_some, if_pos due]
    by_cases equal : p = q
    · exact .inl equal
    · refine .inr ⟨fun f held nowUs => ?_, fun f held nowUs => ?_⟩
      · by_contra due
        have other := (same nowUs).symm.trans (given p f held nowUs (by simpa using due))
        exact equal (held.trans (Option.filter_eq_some_iff.mp other).1.symm)
      · by_contra due
        have other := (same nowUs).trans (given q f held nowUs (by simpa using due))
        exact equal ((Option.filter_eq_some_iff.mp other).1.trans held.symm)

theorem offset_presented (tsUs playedUs nowUs : UInt64) :
    (nowUs + (200000 + tsUs)).toInt64 - (nowUs.toInt64 - playedUs.toInt64) =
      (200000 + tsUs + playedUs).toInt64 := by
  rw [← UInt64.toInt64_sub, ← UInt64.toInt64_sub]
  congr 1
  grind

theorem due_later (tsUs playedUs nowUs : UInt64) (first : tsUs.toNat < 2 ^ 61)
    (second : playedUs.toNat < 2 ^ 61) (third : nowUs.toNat < 2 ^ 61) :
    ((AvClock.new.audioPlayed playedUs nowUs).videoDue tsUs (nowUs + (200000 + tsUs))).1 =
      true := by
  have later : (nowUs + (200000 + tsUs)).toNat = nowUs.toNat + (200000 + tsUs.toNat) := by
    rw [UInt64.toNat_add, UInt64.toNat_add]
    have : (200000 : UInt64).toNat = 200000 := rfl
    omega
  have shown : (200000 + tsUs + playedUs).toNat = 200000 + tsUs.toNat + playedUs.toNat := by
    rw [UInt64.toNat_add, UInt64.toNat_add]
    have : (200000 : UInt64).toNat = 200000 := rfl
    omega
  have stale : saturatingSub (nowUs + (200000 + tsUs)) nowUs ≥ Media.staleUs := by
    rw [ge_iff_le, UInt64.le_iff_toNat_le, saturatingSub_toNat, later]
    have : Media.staleUs.toNat = 200000 := rfl
    omega
  have positive : ¬ (200000 + tsUs + playedUs).toInt64 ≤ 0 := by
    rw [Int64.le_iff_toInt_le, Lib.Checked.toInt_toInt64 (by omega), shown]
    have : (0 : Int64).toInt = 0 := rfl
    omega
  simp only [AvClock.audioPlayed, AvClock.videoDue, AvClock.presentedTs, AvClock.audioStale, stale,
    decide_true, if_true, Option.map_some, Option.getD_some, offset_presented]
  have largest : max (200000 + tsUs + playedUs).toInt64 0 = (200000 + tsUs + playedUs).toInt64 :=
    if_neg positive
  rw [largest, UInt64.toUInt64_toInt64, decide_eq_true_eq, ge_iff_le, UInt64.le_iff_toNat_le, shown]
  omega

theorem sameSlot_ordinary (p q : PendingFrame) (playedUs nowUs : UInt64)
    (first : ∀ f ∈ p, f.timestampUs.toNat < 2 ^ 61) (second : ∀ f ∈ q, f.timestampUs.toNat < 2 ^ 61)
    (played : playedUs.toNat < 2 ^ 61) (now : nowUs.toNat < 2 ^ 61) :
    SameSlot p q (AvClock.new.audioPlayed playedUs nowUs) ↔ p = q := by
  have reached (r : PendingFrame) (small : ∀ f ∈ r, f.timestampUs.toNat < 2 ^ 61)
      (unreached : Unreached r (AvClock.new.audioPlayed playedUs nowUs)) : r = none := by
    rw [Option.eq_none_iff_forall_not_mem]
    intro f held
    have never := unreached f held (nowUs + (200000 + f.timestampUs))
    rw [due_later f.timestampUs playedUs nowUs (small f held) played now] at never
    cases never
  constructor
  · rintro (same | ⟨left, right⟩)
    · exact same
    · rw [reached p first left, reached q second right]
  · exact .inl

theorem turn_unreached (p : Presenter) (nowUs : UInt64) (set : p.clock.videoOffset.isSome = true)
    (unreached : Unreached p.pending p.clock) : (p.step (.turn nowUs)).1 = p := by
  obtain ⟨offset, known⟩ := Option.isSome_iff_exists.mp set
  have kept (tsUs : UInt64) : (p.clock.videoDue tsUs nowUs).2 = p.clock := by
    simp only [AvClock.videoDue, known]
  simp only [Presenter.step, PendingFrame.takeIfDue]
  cases held : p.pending with
  | none => simp [← held]
  | some f =>
      have late := unreached f held nowUs
      simp [late, kept, ← held]

theorem packet_pending (p : Presenter) (tsUs : UInt64) (data : Bytes) (queued : Bool)
    (bufferedUs nowUs : UInt64) :
    (p.step (.audioPacket tsUs data queued bufferedUs nowUs)).1.pending = p.pending := by
  simp only [Presenter.step]
  split
  · rfl
  · split
    · rfl
    · split <;> rfl

theorem step_pending (p q : Presenter) (event : Event) (same : p.clock = q.clock)
    (pending : p.pending = q.pending) : (p.step event).1.pending = (q.step event).1.pending := by
  cases event with
  | frame f => rfl
  | turn nowUs => simp [Presenter.step, same, pending]
  | audioPacket tsUs data queued bufferedUs nowUs => rw [packet_pending, packet_pending, pending]

theorem sameSlot_step (p q : Presenter) (event : Event) (same : SameClock p q)
    (first : p.drives event = false) (second : q.drives event = false)
    (slots : SameSlot p.pending q.pending q.clock) :
    SameSlot (p.step event).1.pending (q.step event).1.pending q.clock := by
  rcases slots with equal | ⟨left, right⟩
  · exact .inl (step_pending p q event same.clock equal)
  · cases event with
    | frame f => exact .inl rfl
    | turn nowUs =>
        rw [turn_unreached p nowUs (same.clock ▸ same.set) (same.clock ▸ left),
          turn_unreached q nowUs same.set right]
        exact .inr ⟨left, right⟩
    | audioPacket tsUs data queued bufferedUs nowUs =>
        rw [packet_pending, packet_pending]
        exact .inr ⟨left, right⟩

section Runs

variable (first second session : List Event)
  (agree : ∀ front event back, session = front ++ event :: back →
    (atPoint first front).drives event = (atPoint second front).drives event)
include agree

theorem played_sameClock (front back : List Event) (split : session = front ++ back)
    (played : Played first front ∨ Played second front) :
    SameClock (atPoint first front) (atPoint second front) := by
  induction front using List.reverseRecOn generalizing back with
  | nil =>
      rcases played with ⟨before, packet, after, none, _⟩ | ⟨before, packet, after, none, _⟩
      · simp at none
      · simp at none
  | append_singleton front event ih =>
      have here := agree front event back (by simp [split])
      have earlier := ih (event :: back) (by simp [split])
      rw [atPoint_snoc, atPoint_snoc]
      have now : (Played first front ∨ Played second front) ∨
          (atPoint second front).drives event = true := by
        rcases played with one | two
        · exact (played_snoc first front event one).imp Or.inl (fun driving => here ▸ driving)
        · exact (played_snoc second front event two).imp Or.inr id
      rcases now with before | driving
      · exact sameClock_step _ _ event (earlier before) here
      · exact sameClock_drives _ _ event (here.trans driving) driving

theorem played_sameSlot
    (slots : ∀ front event back, session = front ++ event :: back →
      (atPoint second front).drives event = true →
      SameSlot (atPoint first front).pending (atPoint second front).pending
        ((atPoint second front).step event).1.clock)
    (front back : List Event) (split : session = front ++ back)
    (played : Played first front ∨ Played second front) :
    SameSlot (atPoint first front).pending (atPoint second front).pending
      (atPoint second front).clock := by
  induction front using List.reverseRecOn generalizing back with
  | nil =>
      rcases played with ⟨before, packet, after, none, _⟩ | ⟨before, packet, after, none, _⟩
      · simp at none
      · simp at none
  | append_singleton front event ih =>
      have here := agree front event back (by simp [split])
      cases driving : (atPoint second front).drives event with
      | true =>
          have alike := slots front event back (by simp [split]) driving
          obtain ⟨tsUs, data, bufferedUs, nowUs, rfl, _, _⟩ := drives_only_packets _ event driving
          rw [atPoint_snoc, atPoint_snoc, packet_pending, packet_pending]
          exact alike
      | false =>
          have idle := here.trans driving
          have before : Played first front ∨ Played second front := by
            refine played.imp (fun one => ?_) (fun two => ?_)
            · exact (played_snoc first front event one).resolve_right (by rw [idle]; decide)
            · exact (played_snoc second front event two).resolve_right (by rw [driving]; decide)
          have clocks := played_sameClock first second session agree front (event :: back)
            (by simp [split]) before
          rw [atPoint_snoc, atPoint_snoc, quiet_clock _ event driving clocks.set]
          exact sameSlot_step _ _ event clocks idle driving
            (ih (event :: back) (by simp [split]) before)

end Runs

/-- What an audio packet that is queued finds in the two runs: it lags the session's own video, or
the newest video of both histories, or of neither; and then the slots are alike on the clock it
sets. -/
def Alike (first second front : List Event) (tsUs bufferedUs nowUs : UInt64) : Prop :=
  lagging (newestVideo front) tsUs = true ∨
    lagging (newestVideo first) tsUs = true ∧ lagging (newestVideo second) tsUs = true ∨
    lagging (newestVideo first) tsUs = false ∧ lagging (newestVideo second) tsUs = false ∧
      SameSlot (atPoint first front).pending (atPoint second front).pending
        (AvClock.new.audioPlayed (saturatingSub tsUs bufferedUs) nowUs)

theorem drives_queued (history front : List Event) (tsUs : UInt64) (data : Bytes)
    (bufferedUs nowUs : UInt64) (some : data ≠ []) :
    (atPoint history front).drives (.audioPacket tsUs data true bufferedUs nowUs) =
      (!lagging (newestVideo history) tsUs && !lagging (newestVideo front) tsUs) := by
  rw [drives_packet, atPoint_lagging, List.isEmpty_eq_false_iff.mpr some, Bool.not_or,
    Bool.not_false, Bool.true_and, Bool.and_true]

/-- A packet that drives the clock in both runs finds alike slots, or the next turn tells. -/
theorem sameSlot_of_independent {first second session front back : List Event} {tsUs : UInt64}
    {data : Bytes} {bufferedUs nowUs : UInt64} (independent : Independent first second session)
    (split : session = front ++ .audioPacket tsUs data true bufferedUs nowUs :: back)
    (one : (atPoint first front).drives (.audioPacket tsUs data true bufferedUs nowUs) = true)
    (two : (atPoint second front).drives (.audioPacket tsUs data true bufferedUs nowUs) = true) :
    SameSlot (atPoint first front).pending (atPoint second front).pending
      (AvClock.new.audioPlayed (saturatingSub tsUs bufferedUs) nowUs) := by
  obtain ⟨_, _, _, _, same, _, left⟩ := drives_only_packets _ _ one
  cases same
  obtain ⟨_, _, _, _, same, _, right⟩ := drives_only_packets _ _ two
  cases same
  refine (sameSlot_iff _ _ _).mpr (fun askedUs => ?_)
  have given := independent.slot (front ++ [_]) back (by simp [split])
    (.inl ⟨front, _, [], rfl, one⟩) askedUs
  rw [turn_answer, turn_answer, atPoint_snoc, atPoint_snoc, left, right] at given
  exact Answer.due.inj given

theorem alike_of_independent {first second session front back : List Event} {tsUs : UInt64}
    {data : Bytes} {bufferedUs nowUs : UInt64} (independent : Independent first second session)
    (split : session = front ++ .audioPacket tsUs data true bufferedUs nowUs :: back)
    (some : data ≠ []) : Alike first second front tsUs bufferedUs nowUs := by
  have same := independent.drives front _ back split
  rw [drives_queued _ _ _ _ _ _ some, drives_queued _ _ _ _ _ _ some] at same
  cases own : lagging (newestVideo front) tsUs with
  | true => exact .inl own
  | false =>
      rw [own, Bool.not_false, Bool.and_true, Bool.and_true] at same
      cases late : lagging (newestVideo second) tsUs with
      | true => exact .inr (.inl ⟨(Bool.not_inj same).trans late, late⟩)
      | false =>
          have early := (Bool.not_inj same).trans late
          refine .inr (.inr ⟨early, late, sameSlot_of_independent independent split ?_ ?_⟩)
          · rw [drives_queued _ _ _ _ _ _ some, early, own]
            rfl
          · rw [drives_queued _ _ _ _ _ _ some, late, own]
            rfl

section Alike

variable {first second session : List Event}
  (condition : ∀ front tsUs data bufferedUs nowUs back,
    session = front ++ .audioPacket tsUs data true bufferedUs nowUs :: back → data ≠ [] →
    Alike first second front tsUs bufferedUs nowUs)
include condition

theorem drives_of_alike (front : List Event) (event : Event) (back : List Event)
    (split : session = front ++ event :: back) :
    (atPoint first front).drives event = (atPoint second front).drives event := by
  cases event with
  | frame f => rfl
  | turn nowUs => rfl
  | audioPacket tsUs data queued bufferedUs nowUs =>
      by_cases heard : queued = true ∧ data ≠ []
      · obtain ⟨rfl, some⟩ := heard
        rw [drives_queued _ _ _ _ _ _ some, drives_queued _ _ _ _ _ _ some]
        rcases condition front tsUs data bufferedUs nowUs back split some with
          own | ⟨one, two⟩ | ⟨one, two, _⟩
        · rw [own, Bool.not_true, Bool.and_false, Bool.and_false]
        · rw [one, two]
        · rw [one, two]
      · rw [drives_packet, drives_packet]
        cases data with
        | nil => rfl
        | cons byte data =>
            have silent : queued = false := by simpa using heard
            rw [silent, Bool.and_false, Bool.and_false]

theorem sameSlot_of_alike (front : List Event) (event : Event) (back : List Event)
    (split : session = front ++ event :: back)
    (drives : (atPoint second front).drives event = true) :
    SameSlot (atPoint first front).pending (atPoint second front).pending
      ((atPoint second front).step event).1.clock := by
  obtain ⟨tsUs, data, bufferedUs, nowUs, rfl, some, next⟩ := drives_only_packets _ event drives
  rw [next]
  rw [drives_queued _ _ _ _ _ _ some, Bool.and_eq_true, Bool.not_eq_true',
    Bool.not_eq_true'] at drives
  rcases condition front tsUs data bufferedUs nowUs back split some with
    own | ⟨_, late⟩ | ⟨_, _, alike⟩
  · rw [drives.2] at own
    cases own
  · rw [drives.1] at late
    cases late
  · exact alike

end Alike

/-- A session is independent of two histories exactly when each packet it queues finds the two runs
alike. -/
theorem independent_iff (first second session : List Event) :
    Independent first second session ↔
      ∀ front tsUs data bufferedUs nowUs back,
        session = front ++ .audioPacket tsUs data true bufferedUs nowUs :: back → data ≠ [] →
        Alike first second front tsUs bufferedUs nowUs := by
  constructor
  · intro independent front tsUs data bufferedUs nowUs back split some
    exact alike_of_independent independent split some
  · intro condition
    have agree := drives_of_alike condition
    refine ⟨agree, ?_, ?_⟩
    · intro front back split played frameTsUs nowUs
      rw [(played_sameClock first second session agree front back split played).clock]
    · intro front back split played nowUs
      have clocks := played_sameClock first second session agree front back split played
      have alike := played_sameSlot first second session agree (sameSlot_of_alike condition)
        front back split played
      rw [turn_answer, turn_answer, clocks.clock, (sameSlot_iff _ _ _).mp alike nowUs]

def picture (timestampUs : UInt64) : RawFrame := ⟨.i420, 2, 2, 2, [0, 0, 0, 0, 0, 0], timestampUs⟩

/-- Twenty milliseconds into a session: its first packet of audio, taken by the device. -/
def firstPacket : Event := .audioPacket 20000 [1] true 5000 7200000000

/-- After an hour of another session the first packet of a new one no longer drives the
clock. -/
theorem earlier_session_holds_clock :
    (atPoint [] [.frame (picture 10000)]).drives firstPacket = true ∧
      (atPoint [.frame (picture 3600000000)] [.frame (picture 10000)]).drives firstPacket = false ∧
      ¬ Independent [] [.frame (picture 3600000000)] [.frame (picture 10000), firstPacket] := by
  have alone : (atPoint [] [.frame (picture 10000)]).drives firstPacket = true := by decide
  have later : (atPoint [.frame (picture 3600000000)] [.frame (picture 10000)]).drives
      firstPacket = false := by decide
  refine ⟨alone, later, ?_⟩
  intro independent
  have same := independent.drives [.frame (picture 10000)] firstPacket [] rfl
  rw [alone, later] at same
  cases same

theorem earlier_session_holds_frame :
    ¬ Independent [] [.audioPacket 0 [1] true 0 0]
      [.frame (picture 10000000), .turn 0, .audioPacket 10000000 [1] true 0 0] := by
  intro independent
  have same := independent.slot [.frame (picture 10000000), .turn 0,
    .audioPacket 10000000 [1] true 0 0] [] rfl
    (.inl ⟨[.frame (picture 10000000), .turn 0], _, [], rfl, by decide⟩) 0
  revert same
  decide

end Castr.Receiver
