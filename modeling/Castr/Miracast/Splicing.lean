import Castr.Miracast.Demuxing

/-! The demultiplexer under loss: where the counters show it, a unit that was touched is dropped. -/

namespace Castr.Miracast.Ts

open Castr.Lib.Bytes
open Castr.Lib.Run
open Source.TsMux

section Listening

/-- What the packets that came, and those that did not, tell of a stream. -/
structure Hearing where
  /-- The packets missed since the last that came. -/
  missed : Nat
  /-- Up to that one, every packet of the unit under way came. -/
  whole : Bool
  /-- The first that was missed began a unit. -/
  ended : Bool
  deriving DecidableEq, Repr

namespace Hearing

def new : Hearing := ⟨0, false, false⟩

def miss (h : Hearing) (start : Bool) : Hearing :=
  { h with
    missed := h.missed + 1
    ended := if h.missed = 0 then start else h.ended }

def hear (h : Hearing) (tuned start : Bool) : Hearing :=
  ⟨0, tuned && (start || (h.whole && h.missed = 0)), false⟩

/-- A loss that a counter of four bits does not show touches no unit of which anything came. -/
def Noticed (h : Hearing) (audio start : Bool) : Prop :=
  h.missed % 16 = 0 → h.missed = 0 ∨ h.whole = false ∨ (h.ended = true ∧ (start || audio) = true)

instance (h : Hearing) (audio start : Bool) : Decidable (h.Noticed audio start) :=
  inferInstanceAs (Decidable (_ → _))

end Hearing

structure Mark where
  pid : UInt16
  start : Bool
  came : Bool
  deriving DecidableEq, Repr

/-- The streams by what came of them, and whether the tables came. -/
structure Listener where
  known : Bool
  tuned : Bool
  streams : UInt16 → Hearing

namespace Listener

def new : Listener := ⟨false, false, fun _ => .new⟩

def step (l : Listener) (mark : Mark) : Listener :=
  if mark.came then
    { known := l.known || mark.pid = 0
      tuned := l.tuned || (l.known && mark.pid = pmtPid)
      streams := Function.update l.streams mark.pid ((l.streams mark.pid).hear l.tuned mark.start) }
  else
    { l with streams := Function.update l.streams mark.pid ((l.streams mark.pid).miss mark.start) }

/-- Wherever a packet of the two streams comes, a loss before it is noticed. -/
def Noticed : Listener → List Mark → Prop
  | _, [] => True
  | l, mark :: marks =>
      (mark.came = true → mark.pid ∈ [videoPid, audioPid] →
        (l.streams mark.pid).Noticed (mark.pid = audioPid) mark.start) ∧
      (l.step mark).Noticed marks

instance decideNoticed : (l : Listener) → (marks : List Mark) → Decidable (l.Noticed marks)
  | _, [] => isTrue trivial
  | l, mark :: marks =>
      have := decideNoticed (l.step mark) marks
      inferInstanceAs (Decidable (_ ∧ _))

theorem noticed_append (l : Listener) (front back : List Mark) :
    l.Noticed (front ++ back) ↔ l.Noticed front ∧ (front.foldl step l).Noticed back := by
  induction front generalizing l with
  | nil => simp [Noticed]
  | cons mark marks ih => simp [Noticed, ih, and_assoc]

theorem noticed_none (l : Listener) (marks : List Mark) (lost : ∀ mark ∈ marks, mark.came = false) :
    l.Noticed marks := by
  induction marks generalizing l with
  | nil => trivial
  | cons mark marks ih =>
      obtain ⟨first, rest⟩ := List.forall_mem_cons.mp lost
      exact ⟨fun came => absurd came (by simp [first]), ih _ rest⟩

end Listener

end Listening

section Assemblies

def Assembly.Void (asm : Assembly) : Prop := asm.isOpen = false ∨ asm.damaged = true

def Assembly.mark (asm : Assembly) (broken : Bool) : Assembly :=
  if broken then { asm with damaged := true } else asm

theorem void_mark (asm : Assembly) (broken : Bool) (void : asm.Void) : (asm.mark broken).Void := by
  cases broken with
  | false => exact void
  | true => exact Or.inr rfl

theorem void_done (asm : Assembly) (void : asm.Void) : asm.done = none := by
  rcases void with shut | damaged
  · simp [Assembly.done, shut]
  · simp [Assembly.done, damaged]

theorem void_take (asm : Assembly) (payload : List UInt8) (void : asm.Void) :
    (asm.take payload false).1.Void ∧ (asm.take payload false).2 = [] := by
  have fed : (if asm.isOpen then asm.append payload else asm).Void := by
    rcases void with shut | damaged
    · rw [shut]
      exact Or.inl shut
    · split
      · refine Or.inr ?_
        rw [Assembly.append]
        split <;> exact damaged
      · exact Or.inr damaged
  have unfinished (other : Assembly) (still : other.Void) : other.finish = (other, none) := by
    have no : ¬ (other.isOpen ∧ other.complete ∧ !other.damaged) := by
      rcases still with shut | damaged
      · simp [shut]
      · simp [damaged]
    rw [Assembly.finish, if_neg no]
  rw [Assembly.take]
  simp only [Bool.false_eq_true, if_false, unfinished _ fed]
  exact ⟨fed, rfl⟩

theorem done_after (cut : Cut) : ∀ unit ∈ (cut.after cut.last).1.done, unit = cut.pair := by
  have data := cut.upTo_last
  intro unit there
  rw [Cut.after] at there
  split at there
  · simp [Assembly.done, Cut.ended] at there
  · simp only [Assembly.done, Cut.begun, data] at there
    split at there
    · exact (Option.some.inj there).symm
    · exact absurd there (by simp)

end Assemblies

section Streams

def Next (prev : Option (Cut × Nat)) (cut : Cut) (index : Nat) : Prop :=
  (index = 0 ∧ ∀ before ∈ prev, before.2 = before.1.last) ∨
    ∃ before, index = before + 1 ∧ before < cut.last ∧ prev = some (cut, before)

structure Stream (muxed : Cut → Prop) (track : Track) (h : Hearing) (prev : Option (Cut × Nat))
    (count : Nat) (last : Option UInt8) (asm : Assembly) : Prop where
  counter : h.whole = true → ∃ place, last = some (ccOf place) ∧ place + 1 + h.missed = count
  void : h.whole = false → asm.Void
  under : h.whole = true → ∃ cut index, muxed cut ∧ cut.track = track ∧ index ≤ cut.last ∧
    asm = (cut.after index).1 ∧ (h.missed = 0 → prev = some (cut, index)) ∧
    (h.missed ≠ 0 → h.ended = true → index = cut.last)

theorem ccOf_eq (first second : Nat) : ccOf first = ccOf second ↔ first % 16 = second % 16 := by
  constructor
  · intro same
    have codes := congrArg UInt8.toNat same
    rw [ccOf, ccOf, UInt8.toNat_ofNat', UInt8.toNat_ofNat'] at codes
    omega
  · intro same
    rw [ccOf, ccOf, same]

theorem broken_iff (last : Option UInt8) (place missed count : Nat)
    (there : last = some (ccOf place)) (sum : place + 1 + missed = count) :
    last.any (fun cc => ccOf count ≠ (cc + 1) &&& 0x0f) = true ↔ missed % 16 ≠ 0 := by
  rw [there, Option.any_some, next_ccOf, decide_eq_true_iff, Ne, ccOf_eq]
  omega

section Step

variable (muxed : Cut → Prop) (track : Track) (h : Hearing) (prev : Option (Cut × Nat))
  (count : Nat) (last : Option UInt8) (asm : Assembly)
  (stream : Stream muxed track h prev count last asm) (cut : Cut) (index : Nat)
  (next : Next prev cut index)

include stream next

theorem stream_miss : Stream muxed track (h.miss (index = 0)) (some (cut, index))
    (count + 1) last asm := by
  refine ⟨fun whole => ?_, stream.void, fun whole => ?_⟩
  · obtain ⟨place, there, sum⟩ := stream.counter whole
    have one : place + 1 + (h.missed + 1) = count + 1 := by omega
    exact ⟨place, there, one⟩
  · obtain ⟨other, far, of, mine, within, same, begun, full⟩ := stream.under whole
    refine ⟨other, far, of, mine, within, same, fun none => absurd none (Nat.succ_ne_zero _), ?_⟩
    intro _ ended
    rw [Hearing.miss] at ended
    dsimp only at ended
    split at ended
    · rename_i none
      have start := of_decide_eq_true ended
      rcases next with ⟨-, complete⟩ | ⟨before, later, -⟩
      · exact complete _ (begun none)
      · omega
    · rename_i any
      exact full any ended

theorem stream_done (start : index = 0) (noticed : h.Noticed (track = .audio) true) :
    ∀ unit ∈ (asm.mark (last.any (fun cc => ccOf count ≠ (cc + 1) &&& 0x0f))).done,
      ∃ other, muxed other ∧ other.track = track ∧ unit = other.pair := by
  intro unit there
  cases whole : h.whole with
  | false =>
      rw [void_done _ (void_mark asm _ (stream.void whole))] at there
      exact absurd there (by simp)
  | true =>
      obtain ⟨place, counter, sum⟩ := stream.counter whole
      obtain ⟨other, far, of, mine, within, same, begun, full⟩ := stream.under whole
      by_cases shown : h.missed % 16 = 0
      · have unbroken := mt (broken_iff last place h.missed count counter sum).mp
          (not_not.mpr shown)
        rw [Bool.eq_false_iff.mpr unbroken] at there
        have complete : far = other.last := by
          rcases noticed shown with none | torn | ⟨ended, -⟩
          · rcases next with ⟨-, complete⟩ | ⟨before, later, -⟩
            · exact complete _ (begun none)
            · omega
          · exact absurd (whole.symm.trans torn) (by simp)
          · by_cases none : h.missed = 0
            · rcases next with ⟨-, complete⟩ | ⟨before, later, -⟩
              · exact complete _ (begun none)
              · omega
            · exact full none ended
        subst complete
        rw [same] at there
        exact ⟨other, of, mine, done_after other unit there⟩
      · rw [(broken_iff last place h.missed count counter sum).mpr shown,
          void_done _ (Or.inr rfl)] at there
        exact absurd there (by simp)

omit next in
theorem stream_torn (torn : (h.whole && decide (h.missed = 0)) = false)
    (noticed : h.Noticed (track = .audio) false) :
    (asm.mark (last.any (fun cc => ccOf count ≠ (cc + 1) &&& 0x0f))).Void := by
  cases whole : h.whole with
  | false => exact void_mark asm _ (stream.void whole)
  | true =>
      have any : h.missed ≠ 0 := by simpa [whole] using torn
      obtain ⟨place, counter, sum⟩ := stream.counter whole
      obtain ⟨other, far, of, mine, within, same, begun, full⟩ := stream.under whole
      by_cases shown : h.missed % 16 = 0
      · apply void_mark
        rcases noticed shown with none | unwhole | ⟨ended, audio⟩
        · exact absurd none any
        · exact absurd (whole.symm.trans unwhole) (by simp)
        · have kind : track = .audio := by simpa using audio
          rw [same, full any ended, Cut.after, if_pos ⟨mine.trans kind, rfl⟩]
          exact Or.inl rfl
      · rw [(broken_iff last place h.missed count counter sum).mpr shown]
        exact Or.inr rfl

/-- A piece comes: what it completes was sent, and what is under way is known again. -/
theorem stream_hear (mine : cut.track = track) (of : muxed cut)
    (noticed : h.Noticed (track = .audio) (index = 0)) :
    let fed := (asm.mark (last.any (fun cc => ccOf count ≠ (cc + 1) &&& 0x0f))).take
      (cut.pieces.getD index []) (index = 0)
    Stream muxed track (h.hear true (index = 0)) (some (cut, index)) (count + 1)
        (some (ccOf count)) fed.1 ∧
      ∀ unit ∈ fed.2, ∃ other, muxed other ∧ other.track = track ∧ unit = other.pair := by
  have own (far : Nat) : ∀ unit ∈ (cut.after far).2.toList, ∃ other, muxed other ∧
      other.track = track ∧ unit = other.pair := by
    intro unit member
    rw [Cut.after] at member
    split at member
    · have here : unit = (cut.data, cut.ptsUs) := by simpa using member
      exact ⟨cut, of, mine, here⟩
    · simp at member
  have counter : ∃ place, some (ccOf count) = some (ccOf place) ∧ place + 1 + 0 = count + 1 :=
    ⟨count, rfl, rfl⟩
  rcases Nat.eq_zero_or_pos index with start | later
  · have done := stream_done muxed track h prev count last asm stream cut index next start
      (by simpa [start] using noticed)
    subst start
    have first : (asm.mark (last.any (fun cc => ccOf count ≠ (cc + 1) &&& 0x0f))).take
        (cut.pieces.getD 0 []) true = _ := take_first _ cut
    rw [decide_eq_true rfl]
    dsimp only
    rw [first]
    refine ⟨⟨fun _ => counter, fun torn => by simp [Hearing.hear] at torn, fun _ => ?_⟩, ?_⟩
    · exact ⟨cut, 0, of, mine, Nat.zero_le _, rfl, fun _ => rfl, fun missed => absurd rfl missed⟩
    · intro unit member
      rcases List.mem_append.mp member with old | new
      · exact done unit (by simpa using old)
      · exact own 0 unit new
  · rcases next with ⟨none, -⟩ | ⟨before, rfl, within, prior⟩
    · omega
    have plain : decide (before + 1 = 0) = false := decide_eq_false (Nat.succ_ne_zero before)
    rw [plain] at noticed ⊢
    by_cases torn : (h.whole && decide (h.missed = 0)) = false
    · have void := stream_torn muxed track h prev count last asm stream torn noticed
      obtain ⟨still, nothing⟩ := void_take _ (cut.pieces.getD (before + 1) []) void
      dsimp only
      rw [nothing]
      have unwhole : (h.hear true false).whole = false := by simpa [Hearing.hear] using torn
      exact ⟨⟨fun whole => absurd whole (by simp [unwhole]), fun _ => still,
        fun whole => absurd whole (by simp [unwhole])⟩, by simp⟩
    · obtain ⟨whole, missed⟩ : h.whole = true ∧ h.missed = 0 := by simpa using torn
      obtain ⟨place, there, sum⟩ := stream.counter whole
      obtain ⟨other, far, -, -, -, same, begun, -⟩ := stream.under whole
      obtain ⟨rfl, rfl⟩ := Prod.mk.inj (Option.some.inj ((begun missed).symm.trans prior))
      have unbroken := mt (broken_iff last place h.missed count there sum).mp (by simp [missed])
      rw [Bool.eq_false_iff.mpr unbroken, same, after_before other far within]
      have fed : ((other.begun far).mark false).take (other.pieces.getD (far + 1) []) false = _ :=
        take_next other far within
      dsimp only
      rw [fed]
      refine ⟨⟨fun _ => counter, fun unwhole => by simp [Hearing.hear, whole, missed] at unwhole,
        fun _ => ?_⟩, own (far + 1)⟩
      exact ⟨other, far + 1, of, mine, within, rfl, fun _ => rfl, fun missed => absurd rfl missed⟩

end Step

end Streams

section Packets

structure Place where
  prev : Option (Cut × Nat)
  count : Nat

def Sent.follow (places : Track → Place) : Sent → Track → Place
  | .piece cut index _ =>
      Function.update places cut.track ⟨some (cut, index), (places cut.track).count + 1⟩
  | _ => places

def Sent.Fits (muxed : Cut → Prop) (places : Track → Place) : Sent → Prop
  | .piece cut index place =>
      muxed cut ∧ place = (places cut.track).count ∧ Next (places cut.track).prev cut index
  | _ => True

/-- The demultiplexer, against what came to it. -/
structure Hears (muxed : Cut → Prop) (l : Listener) (places : Track → Place) (d : Demux) :
    Prop where
  pmt : d.pmtPid = if l.known then some pmtPid else none
  video : d.videoPid = if l.tuned then some videoPid else none
  audio : d.audioPid = if l.tuned then some audioPid else none
  untuned : l.tuned = false → ∀ track, (l.streams (Track.pid track)).whole = false
  streams : ∀ track, Stream muxed track (l.streams (Track.pid track)) (places track).prev
    (places track).count (d.lastCc.lookup (Track.pid track)) (d.assembly track)

section Counted

variable (d : Demux) (pid : UInt16) (cc : UInt8)

theorem countContinuity_same : (d.countContinuity pid cc).pmtPid = d.pmtPid ∧
    (d.countContinuity pid cc).videoPid = d.videoPid ∧
    (d.countContinuity pid cc).audioPid = d.audioPid ∧
    (d.countContinuity pid cc).lastCc = (d.seen pid cc).lastCc := by
  rw [Demux.countContinuity]
  dsimp only
  split
  · split
    · simp [Demux.seen]
    · exact ⟨rfl, rfl, rfl, rfl⟩
  · exact ⟨rfl, rfl, rfl, rfl⟩

theorem countContinuity_assembly (track : Track) : (d.countContinuity pid cc).assembly track =
    (d.assembly track).mark (decide (d.trackOf pid = some track) &&
      (d.lastCc.lookup pid).any (fun last => cc ≠ (last + 1) &&& 0x0f)) := by
  rw [Demux.countContinuity]
  dsimp only
  split
  · rename_i broken
    rw [broken, Bool.and_true]
    split
    · rename_i other named
      rw [named]
      by_cases same : track = other
      · subst same
        rw [assembly_setAssembly, decide_eq_true rfl]
        rfl
      · rw [assembly_other _ _ _ _ same, decide_eq_false (fun found =>
          same (Option.some.inj found).symm)]
        cases track <;> rfl
    · rename_i unnamed
      rw [unnamed]
      cases track <;> rfl
  · rename_i smooth
    rw [Bool.eq_false_iff.mpr smooth, Bool.and_false]
    cases track <;> rfl

end Counted

theorem pid_inj (track other : Track) (same : Track.pid track = Track.pid other) :
    track = other := by
  revert same
  cases track <;> cases other <;> decide

theorem pid_ne_zero (track : Track) : Track.pid track ≠ 0 := by cases track <;> decide

theorem pmt_ne_pid (track : Track) : pmtPid ≠ Track.pid track := by cases track <;> decide

theorem trackOf_counted (d : Demux) (pid other : UInt16) (cc : UInt8) :
    (d.countContinuity pid cc).trackOf other = d.trackOf other := by
  have same := countContinuity_same d pid cc
  rw [Demux.trackOf, Demux.trackOf, same.2.1, same.2.2.1]

section Heard

variable (l : Listener) (track : Track) (start : Bool)

theorem step_known : (l.step ⟨Track.pid track, start, true⟩).known = l.known := by
  simp [Listener.step, pid_ne_zero]

theorem step_tuned : (l.step ⟨Track.pid track, start, true⟩).tuned = l.tuned := by
  simp [Listener.step, (pmt_ne_pid track).symm]

theorem step_here : (l.step ⟨Track.pid track, start, true⟩).streams (Track.pid track) =
    (l.streams (Track.pid track)).hear l.tuned start := Function.update_self _ _ _

theorem step_there {track : Track} {pid : UInt16} {came : Bool} (differs : pid ≠ Track.pid track) :
    (l.step ⟨pid, start, came⟩).streams (Track.pid track) = l.streams (Track.pid track) := by
  cases came with
  | true => exact Function.update_of_ne differs.symm _ _
  | false => exact Function.update_of_ne differs.symm _ _

end Heard

theorem pid_ne {track other : Track} (differs : other ≠ track) :
    Track.pid track ≠ Track.pid other := fun same => differs (pid_inj track other same).symm

theorem follow_here (places : Track → Place) (cut : Cut) (index : Nat) :
    (Sent.piece cut index (places cut.track).count).follow places cut.track =
      ⟨some (cut, index), (places cut.track).count + 1⟩ := Function.update_self _ _ _

theorem follow_there (places : Track → Place) (cut : Cut) (index : Nat) {other : Track}
    (differs : other ≠ cut.track) :
    (Sent.piece cut index (places cut.track).count).follow places other = places other :=
  Function.update_of_ne differs _ _

section Step

variable (muxed : Cut → Prop) (l : Listener) (places : Track → Place) (d : Demux)
  (hears : Hears muxed l places d)

include hears

theorem trackOf_tuned (tuned : l.tuned = true) (track : Track) :
    d.trackOf (Track.pid track) = some track := by
  have video := hears.video
  have audio := hears.audio
  rw [if_pos tuned] at video audio
  cases track <;> simp [Demux.trackOf, Track.pid, video, audio, videoPid, audioPid]

theorem trackOf_untuned (untuned : l.tuned = false) (pid : UInt16) : d.trackOf pid = none := by
  have video := hears.video
  have audio := hears.audio
  rw [untuned] at video audio
  simp [Demux.trackOf, video, audio]

theorem trackOf_other (pid : UInt16) (other : ∀ track, pid ≠ Track.pid track) :
    d.trackOf pid = none := by
  cases tuned : l.tuned with
  | false => exact trackOf_untuned muxed l places d hears tuned pid
  | true =>
      have video := hears.video
      have audio := hears.audio
      rw [if_pos tuned] at video audio
      have first : videoPid ≠ pid := (other .video).symm
      have second : audioPid ≠ pid := (other .audio).symm
      simp [Demux.trackOf, video, audio, first, second]

theorem count_other (pid : UInt16) (cc : UInt8) (other : ∀ track, pid ≠ Track.pid track)
    (track : Track) : (d.countContinuity pid cc).lastCc.lookup (Track.pid track) =
        d.lastCc.lookup (Track.pid track) ∧
      (d.countContinuity pid cc).assembly track = d.assembly track := by
  rw [(countContinuity_same d pid cc).2.2.2, Demux.seen_lookup, if_neg (other track).symm,
    countContinuity_assembly, trackOf_other muxed l places d hears pid other]
  exact ⟨rfl, rfl⟩

theorem hear_pat (place : Nat) :
    let taken := d.take (Sent.pat place).carried
    Hears muxed (l.step ⟨0, true, true⟩) places taken.1 ∧ taken.2 = [] := by
  have other (track : Track) : 0 ≠ Track.pid track := (pid_ne_zero track).symm
  have same := countContinuity_same d 0 (ccOf place)
  have counted := count_other muxed l places d hears 0 (ccOf place) other
  have streams (track : Track) : (l.step ⟨0, true, true⟩).streams (Track.pid track) =
      l.streams (Track.pid track) := step_there l true (other track)
  have known : (l.step ⟨0, true, true⟩).known = true := by simp [Listener.step]
  have tuned : (l.step ⟨0, true, true⟩).tuned = l.tuned := by
    have apart : (0 : UInt16) ≠ pmtPid := by decide
    simp [Listener.step, apart]
  dsimp only
  rw [take_pat]
  refine ⟨⟨?_, ?_, ?_, ?_, ?_⟩, rfl⟩
  · rw [known, if_pos rfl]
  · rw [tuned]
    exact same.2.1.trans hears.video
  · rw [tuned]
    exact same.2.2.1.trans hears.audio
  · intro untuned track
    rw [streams]
    exact hears.untuned (tuned ▸ untuned) track
  · intro track
    have stream := hears.streams track
    rw [← (counted track).1, ← (counted track).2] at stream
    rw [streams]
    cases track <;> exact stream

theorem hear_pmt (profile level : UInt8) (place : Nat) :
    let taken := d.take (Sent.pmt profile level place).carried
    Hears muxed (l.step ⟨pmtPid, true, true⟩) places taken.1 ∧ taken.2 = [] := by
  have other := pmt_ne_pid
  have apart : pmtPid ≠ 0 := by decide
  have same := countContinuity_same d pmtPid (ccOf place)
  have counted := count_other muxed l places d hears pmtPid (ccOf place) other
  have streams (track : Track) : (l.step ⟨pmtPid, true, true⟩).streams (Track.pid track) =
      l.streams (Track.pid track) := step_there l true (other track)
  have known : (l.step ⟨pmtPid, true, true⟩).known = l.known := by simp [Listener.step, apart]
  have tuned : (l.step ⟨pmtPid, true, true⟩).tuned = (l.tuned || l.known) := by simp [Listener.step]
  have kept (d' : Demux) (last : d'.lastCc = (d.countContinuity pmtPid (ccOf place)).lastCc)
      (assembly : ∀ track, d'.assembly track =
        (d.countContinuity pmtPid (ccOf place)).assembly track) (track : Track) :
      Stream muxed track ((l.step ⟨pmtPid, true, true⟩).streams (Track.pid track))
        (places track).prev (places track).count (d'.lastCc.lookup (Track.pid track))
        (d'.assembly track) := by
    rw [streams, last, assembly, (counted track).1, (counted track).2]
    exact hears.streams track
  have untuned (still : (l.tuned || l.known) = false) (track : Track) :
      ((l.step ⟨pmtPid, true, true⟩).streams (Track.pid track)).whole = false := by
    rw [streams]
    exact hears.untuned (Bool.or_eq_false_iff.mp still).1 track
  have pmt := same.1.trans hears.pmt
  dsimp only
  cases heard : l.known with
  | true =>
      rw [heard, if_pos rfl] at pmt
      rw [take_pmt d profile level place pmt]
      refine ⟨⟨?_, ?_, ?_, ?_, ?_⟩, rfl⟩
      · rw [known, heard]
        exact pmt
      · rw [tuned, heard, Bool.or_true]
        rfl
      · rw [tuned, heard, Bool.or_true]
        rfl
      · rw [tuned]
        exact untuned
      · exact kept _ rfl (fun track => by cases track <;> rfl)
  | false =>
      rw [heard] at pmt
      have unlisted : ¬ (d.countContinuity pmtPid (ccOf place)).pmtPid = some pmtPid := by
        rw [pmt]
        simp
      have unnamed : (d.countContinuity pmtPid (ccOf place)).trackOf pmtPid = none :=
        (trackOf_counted d pmtPid pmtPid _).trans
          (trackOf_other muxed l places d hears pmtPid other)
      have taken : d.take (Sent.pmt profile level place).carried =
          (d.countContinuity pmtPid (ccOf place), []) := by
        rw [Sent.carried, Demux.take]
        dsimp only
        rw [if_neg apart, if_neg unlisted, unnamed]
      rw [taken]
      rw [heard, Bool.or_false] at tuned
      refine ⟨⟨?_, ?_, ?_, ?_, ?_⟩, rfl⟩
      · rw [known, heard]
        exact pmt
      · rw [tuned]
        exact same.2.1.trans hears.video
      · rw [tuned]
        exact same.2.2.1.trans hears.audio
      · rw [tuned]
        intro still
        exact untuned (by rw [still, heard, Bool.or_false])
      · exact kept _ rfl (fun _ => rfl)

theorem pmt_unlisted (track : Track) (cc : UInt8) :
    ¬ (d.countContinuity (Track.pid track) cc).pmtPid = some (Track.pid track) := by
  rw [(countContinuity_same d (Track.pid track) cc).1, hears.pmt]
  split
  · simpa using pmt_ne_pid track
  · simp

theorem take_untuned (cut : Cut) (index place : Nat)
    (untracked : d.trackOf (Track.pid cut.track) = none) :
    d.take (Sent.piece cut index place).carried =
      (d.countContinuity (Track.pid cut.track) (ccOf place), []) := by
  rw [Sent.carried, Demux.take]
  dsimp only
  rw [if_neg (pid_ne_zero cut.track), if_neg (pmt_unlisted muxed l places d hears cut.track _),
    trackOf_counted, untracked]

theorem take_tuned (cut : Cut) (index place : Nat)
    (tracked : d.trackOf (Track.pid cut.track) = some cut.track) :
    d.take (Sent.piece cut index place).carried =
      let counted := d.countContinuity (Track.pid cut.track) (ccOf place)
      let fed := (counted.assembly cut.track).take (cut.pieces.getD index []) (index = 0)
      (counted.setAssembly cut.track fed.1,
        fed.2.map (fun unit => cut.track.unit unit.1 unit.2)) := by
  rw [Sent.carried, Demux.take]
  dsimp only
  rw [if_neg (pid_ne_zero cut.track), if_neg (pmt_unlisted muxed l places d hears cut.track _),
    trackOf_counted, tracked]

theorem hear_piece_untuned (tuning : l.tuned = false) (cut : Cut) (index : Nat) :
    let taken := d.take (Sent.piece cut index (places cut.track).count).carried
    Hears muxed (l.step ⟨Track.pid cut.track, index = 0, true⟩)
        ((Sent.piece cut index (places cut.track).count).follow places) taken.1 ∧
      taken.2 = [] := by
  have same := countContinuity_same d (Track.pid cut.track) (ccOf (places cut.track).count)
  have untracked := trackOf_untuned muxed l places d hears tuning (Track.pid cut.track)
  have unmarked (other : Track) : (d.countContinuity (Track.pid cut.track)
      (ccOf (places cut.track).count)).assembly other = d.assembly other := by
    rw [countContinuity_assembly, untracked]
    rfl
  have deaf (other : Track) : ((l.step ⟨Track.pid cut.track, index = 0, true⟩).streams
      (Track.pid other)).whole = false := by
    by_cases mine : other = cut.track
    · rw [mine, step_here, tuning]
      rfl
    · rw [step_there l _ (pid_ne mine)]
      exact hears.untuned tuning other
  dsimp only
  rw [take_untuned muxed l places d hears cut index _ untracked]
  refine ⟨⟨?_, ?_, ?_, fun _ => deaf, fun other => ?_⟩, rfl⟩
  · rw [step_known]
    exact same.1.trans hears.pmt
  · rw [step_tuned]
    exact same.2.1.trans hears.video
  · rw [step_tuned]
    exact same.2.2.1.trans hears.audio
  · have unwhole := deaf other
    refine ⟨fun whole => absurd (whole.symm.trans unwhole) (by simp), fun _ => ?_,
      fun whole => absurd (whole.symm.trans unwhole) (by simp)⟩
    rw [unmarked]
    exact (hears.streams other).void (hears.untuned tuning other)

theorem hear_piece_tuned (tuning : l.tuned = true) (cut : Cut) (index : Nat) (of : muxed cut)
    (next : Next (places cut.track).prev cut index)
    (noticed : (l.streams (Track.pid cut.track)).Noticed (cut.track = .audio) (index = 0)) :
    let taken := d.take (Sent.piece cut index (places cut.track).count).carried
    Hears muxed (l.step ⟨Track.pid cut.track, index = 0, true⟩)
        ((Sent.piece cut index (places cut.track).count).follow places) taken.1 ∧
      ∀ unit ∈ taken.2, ∃ other, muxed other ∧ unit = other.unit := by
  have tracked := trackOf_tuned muxed l places d hears tuning cut.track
  have taken := take_tuned muxed l places d hears cut index (places cut.track).count tracked
  generalize number : ccOf (places cut.track).count = cc at taken
  have same := countContinuity_same d (Track.pid cut.track) cc
  have assembly := countContinuity_assembly d (Track.pid cut.track) cc
  have marked : (d.countContinuity (Track.pid cut.track) cc).assembly cut.track =
      (d.assembly cut.track).mark ((d.lastCc.lookup (Track.pid cut.track)).any
        (fun last => ccOf (places cut.track).count ≠ (last + 1) &&& 0x0f)) := by
    rw [assembly, tracked, number, decide_eq_true rfl, Bool.true_and]
  have stream := stream_hear muxed cut.track _ _ _ _ _ (hears.streams cut.track) cut index next
    rfl of noticed
  rw [← marked, number] at stream
  dsimp only at stream ⊢
  rw [taken]
  dsimp only
  refine ⟨⟨?_, ?_, ?_, ?_, ?_⟩, ?_⟩
  · rw [step_known, pmtPid_setAssembly]
    exact same.1.trans hears.pmt
  · rw [step_tuned, videoPid_setAssembly]
    exact same.2.1.trans hears.video
  · rw [step_tuned, audioPid_setAssembly]
    exact same.2.2.1.trans hears.audio
  · intro still
    exact absurd (still.symm.trans ((step_tuned l cut.track _).trans tuning)) (by simp)
  · intro other
    rw [lastCc_setAssembly, same.2.2.2, Demux.seen_lookup]
    by_cases mine : other = cut.track
    · subst mine
      rw [step_here, tuning, follow_here, if_pos rfl, assembly_setAssembly]
      exact stream.1
    · have unmarked : (d.countContinuity (Track.pid cut.track) cc).assembly other =
          d.assembly other := by
        rw [assembly, tracked, decide_eq_false (fun found => mine (Option.some.inj found).symm)]
        rfl
      rw [step_there l _ (pid_ne mine), follow_there _ _ _ mine, if_neg (pid_ne mine).symm,
        assembly_other _ _ _ _ mine, unmarked]
      exact hears.streams other
  · intro unit member
    obtain ⟨pair, inside, rfl⟩ := List.mem_map.mp member
    obtain ⟨other, sent, track, rfl⟩ := stream.2 pair inside
    exact ⟨other, sent, by rw [Cut.unit, track, Cut.pair]⟩

theorem hear_piece (cut : Cut) (index place : Nat)
    (fits : (Sent.piece cut index place).Fits muxed places)
    (noticed : (l.streams (Track.pid cut.track)).Noticed (cut.track = .audio) (index = 0)) :
    let taken := d.take (Sent.piece cut index place).carried
    Hears muxed (l.step ⟨Track.pid cut.track, index = 0, true⟩)
        ((Sent.piece cut index place).follow places) taken.1 ∧
      ∀ unit ∈ taken.2, ∃ other, muxed other ∧ unit = other.unit := by
  obtain ⟨of, rfl, next⟩ := fits
  cases tuning : l.tuned with
  | false =>
      obtain ⟨heard, none⟩ := hear_piece_untuned muxed l places d hears tuning cut index
      refine ⟨heard, ?_⟩
      rw [none]
      intro unit member
      cases member
  | true => exact hear_piece_tuned muxed l places d hears tuning cut index of next noticed

theorem miss_sent (sent : Sent) (fits : sent.Fits muxed places) :
    Hears muxed (l.step ⟨sent.carried.pid, sent.carried.start, false⟩) (sent.follow places) d := by
  have table (pid : UInt16) (start : Bool) (other : ∀ track, pid ≠ Track.pid track) :
      Hears muxed (l.step ⟨pid, start, false⟩) places d := by
    have streams (track : Track) : (l.step ⟨pid, start, false⟩).streams (Track.pid track) =
        l.streams (Track.pid track) := step_there l start (other track)
    refine ⟨hears.pmt, hears.video, hears.audio, fun untuned track => ?_, fun track => ?_⟩
    · rw [streams]
      exact hears.untuned untuned track
    · rw [streams]
      exact hears.streams track
  cases sent with
  | pat place => exact table 0 true (fun track => (pid_ne_zero track).symm)
  | pmt profile level place => exact table pmtPid true pmt_ne_pid
  | piece cut index place =>
      obtain ⟨-, rfl, next⟩ := fits
      have here : (l.step ⟨Track.pid cut.track, index = 0, false⟩).streams (Track.pid cut.track) =
          (l.streams (Track.pid cut.track)).miss (index = 0) := Function.update_self _ _ _
      refine ⟨hears.pmt, hears.video, hears.audio, fun untuned other => ?_, fun other => ?_⟩
      · show ((l.step ⟨Track.pid cut.track, index = 0, false⟩).streams (Track.pid other)).whole =
          false
        by_cases mine : other = cut.track
        · rw [mine, here]
          exact hears.untuned untuned cut.track
        · rw [step_there l _ (pid_ne mine)]
          exact hears.untuned untuned other
      · show Stream muxed other
          ((l.step ⟨Track.pid cut.track, index = 0, false⟩).streams (Track.pid other)) _ _ _ _
        by_cases mine : other = cut.track
        · subst mine
          rw [here, follow_here]
          exact stream_miss muxed cut.track _ _ _ _ _ (hears.streams cut.track) cut index next
        · rw [step_there l _ (pid_ne mine), follow_there _ _ _ mine]
          exact hears.streams other

end Step

end Packets

end Castr.Miracast.Ts
